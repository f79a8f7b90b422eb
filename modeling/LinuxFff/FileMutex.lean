import LinuxFff.PlainServer
import LinuxFff.Serialization

/-!
# The critical sections of `file_mutex` in `server.c`

`save_chat_to_file` and the replay in `handle_client` open, read and write `chatlog.txt` under
`file_mutex`. Here each `fopen`, each byte that reaches the file, each `fgets` and each `send`
is a step of its own, and those of all threads mix. A replay still sends whole messages only.
-/

namespace LinuxFff.FileMutex

open LinuxFff.CString LinuxFff.Serialization LinuxFff.StepSystem
open LinuxFff.PlainServer (savedText)

set_option autoImplicit false

/-- `opens` is whether `fopen` succeeds on a file that it may open. -/
inductive Call where
  | saveChatToFile (username message : Bytes) (opens : Bool)
  | replay (sock : Nat) (opens : Bool)
  deriving DecidableEq

/-- The access that is next: `rest` is what `fprintf` has not brought to the file yet, `position`
is where the next `fgets` reads. -/
inductive Local where
  | openingLog (text : Bytes) (opens : Bool)
  | printing (rest : Bytes)
  | openingReplay (sock : Nat) (opens : Bool)
  | getting (sock position : Nat)
  | sending (sock position : Nat) (buffer : Bytes)
  deriving DecidableEq

/-- `sent` lists the `send` calls of the replays, with the descriptor. -/
structure Shared where
  chatlog : Option Bytes
  sent : List (Nat × Bytes)
  deriving DecidableEq

def Shared.contents (shared : Shared) : Bytes := shared.chatlog.getD []

/-- What `fprintf (fp, "%s: %s", username, message)` makes. -/
def Call.text : Call → Bytes
  | .saveChatToFile username message _ => savedText (cstr username) message
  | .replay _ _ => []

def enter : Call → Local
  | .saveChatToFile username message opens => .openingLog (savedText (cstr username) message) opens
  | .replay sock opens => .openingReplay sock opens

def access : Local → Shared → Shared × (Local ⊕ Unit)
  | .openingLog text opens, shared =>
      if opens then ({ shared with chatlog := some shared.contents }, .inl (.printing text))
      else (shared, .inr ())
  | .printing [], shared => (shared, .inr ())
  | .printing (byte :: rest), shared =>
      ({ shared with chatlog := some (shared.contents ++ [byte]) }, .inl (.printing rest))
  | .openingReplay sock opens, shared =>
      match shared.chatlog with
      | some _ => if opens then (shared, .inl (.getting sock 0)) else (shared, .inr ())
      | none => (shared, .inr ())
  | .getting sock position, shared =>
      let piece := (fgets 1023 (shared.contents.drop position)).1
      if piece = [] then (shared, .inr ())
      else (shared, .inl (.sending sock (position + piece.length) piece))
  | .sending sock position buffer, shared =>
      ({ shared with sent := shared.sent ++ [(sock, cstr buffer)] },
        .inl (.getting sock position))

def code : Code Call Local Shared Unit := ⟨enter, access⟩

def Call.opens : Call → Bool
  | .saveChatToFile _ _ opens => opens
  | .replay _ opens => opens

def effect (call : Call) (shared : Shared) : Shared × Unit :=
  if call.opens then
    match call with
    | .saveChatToFile _ _ _ => ({ shared with chatlog := some (shared.contents ++ call.text) }, ())
    | .replay sock _ =>
        ({ shared with
          sent := shared.sent ++ (replayWrites shared.contents).map fun text => (sock, text) }, ())
  else (shared, ())

def writesFrom (file : Bytes) (position : Nat) : List Bytes :=
  (fgetsLoop 1023 (file.drop position)).map cstr

/-- What a call has done before its next access, given the data it started from. -/
inductive Progress (before : Shared) : Call → Local → Shared → Prop where
  | openingLog (username message : Bytes) (opens : Bool) :
      Progress before (.saveChatToFile username message opens)
        (.openingLog (savedText (cstr username) message) opens) before
  | printing (username message printed rest : Bytes)
      (split : printed ++ rest = savedText (cstr username) message) :
      Progress before (.saveChatToFile username message true) (.printing rest)
        { before with chatlog := some (before.contents ++ printed) }
  | openingReplay (sock : Nat) (opens : Bool) :
      Progress before (.replay sock opens) (.openingReplay sock opens) before
  | getting (sock position : Nat) (written : List Bytes)
      (split : replayWrites before.contents = written ++ writesFrom before.contents position) :
      Progress before (.replay sock true) (.getting sock position)
        { before with sent := before.sent ++ written.map fun text => (sock, text) }
  | sending (sock position : Nat) (buffer : Bytes) (written : List Bytes)
      (split : replayWrites before.contents =
        written ++ cstr buffer :: writesFrom before.contents position) :
      Progress before (.replay sock true) (.sending sock position buffer)
        { before with sent := before.sent ++ written.map fun text => (sock, text) }

section Loops

variable {before after shared : Shared} {call : Call} {here moved : Local}

theorem writes_from_next {file : Bytes} {position : Nat}
    (more : (fgets 1023 (file.drop position)).1 ≠ []) :
    writesFrom file position =
      cstr (fgets 1023 (file.drop position)).1 ::
        writesFrom file (position + (fgets 1023 (file.drop position)).1.length) := by
  have whole := fgets_flatten 1023 (file.drop position)
  cases rest : file.drop position with
  | nil =>
      rw [rest] at more
      exact absurd rfl more
  | cons byte stream =>
      have later : (fgets 1023 (byte :: stream)).2 =
          file.drop (position + (fgets 1023 (byte :: stream)).1.length) := by
        rw [← List.drop_drop, rest]
        rw [rest] at whole
        nth_rewrite 3 [← whole]
        rw [List.drop_left]
      rw [writesFrom, rest, fgets_loop_cons, List.map_cons, later]
      rfl

theorem writes_from_end {file : Bytes} {position : Nat}
    (done : (fgets 1023 (file.drop position)).1 = []) : writesFrom file position = [] := by
  cases rest : file.drop position with
  | nil => rw [writesFrom, rest, fgets_loop_nil, List.map_nil]
  | cons byte stream =>
      rw [rest, fgets] at done
      split at done <;> cases done

theorem progress_enter (call : Call) (before : Shared) :
    Progress before call (enter call) before := by
  cases call with
  | saveChatToFile username message opens => exact Progress.openingLog username message opens
  | replay sock opens => exact Progress.openingReplay sock opens

theorem progress_goes_on (progress : Progress before call here shared)
    (accessed : access here shared = (after, .inl moved)) : Progress before call moved after := by
  cases progress with
  | openingLog username message opens =>
      simp only [access] at accessed
      split at accessed
      case isTrue open_ok =>
        cases accessed
        rw [open_ok]
        have printing := @Progress.printing before username message [] _ rfl
        rw [List.append_nil] at printing
        exact printing
      case isFalse => cases accessed
  | printing username message printed rest split =>
      cases rest with
      | nil => cases accessed
      | cons byte rest =>
          cases accessed
          have grown := @Progress.printing before username message (printed ++ [byte]) rest
            (by rw [← split]; simp)
          rw [← List.append_assoc] at grown
          exact grown
  | openingReplay sock opens =>
      simp only [access] at accessed
      split at accessed
      case h_1 file exists_file =>
        split at accessed
        case isTrue open_ok =>
          cases accessed
          rw [open_ok]
          have getting := @Progress.getting before sock 0 [] rfl
          rw [List.map_nil, List.append_nil] at getting
          exact getting
        case isFalse => cases accessed
      case h_2 => cases accessed
  | getting sock position written split =>
      simp only [access] at accessed
      split at accessed
      case isTrue => cases accessed
      case isFalse more =>
        cases accessed
        refine Progress.sending sock _ _ written ?_
        rw [split]
        exact congrArg (written ++ ·) (writes_from_next more)
  | sending sock position buffer written split =>
      cases accessed
      have grown := @Progress.getting before sock position (written ++ [cstr buffer])
        (by rw [split, List.append_assoc]; rfl)
      rw [List.map_append, ← List.append_assoc] at grown
      exact grown

theorem progress_ends (progress : Progress before call here shared)
    (accessed : access here shared = (after, .inr ())) : effect call before = (after, ()) := by
  cases progress with
  | openingLog username message opens =>
      simp only [access] at accessed
      split at accessed
      case isTrue => cases accessed
      case isFalse closed =>
        cases accessed
        exact if_neg closed
  | printing username message printed rest split =>
      cases rest with
      | nil =>
          cases accessed
          rw [List.append_nil] at split
          rw [split]
          rfl
      | cons byte rest => cases accessed
  | openingReplay sock opens =>
      simp only [access] at accessed
      split at accessed
      case h_1 file exists_file =>
        split at accessed
        case isTrue => cases accessed
        case isFalse closed =>
          cases accessed
          exact if_neg closed
      case h_2 missing =>
        cases accessed
        have nothing : replayWrites before.contents = [] := by
          rw [Shared.contents, missing]
          rfl
        unfold effect
        split
        · simp only [nothing, List.map_nil, List.append_nil]
        · rfl
  | getting sock position written split =>
      simp only [access] at accessed
      split at accessed
      case isTrue done =>
        cases accessed
        have finished : writesFrom before.contents position = [] := writes_from_end done
        rw [finished, List.append_nil] at split
        rw [← split]
        rfl
      case isFalse => cases accessed
  | sending sock position buffer written split => cases accessed

theorem code_implements : Implements code effect :=
  implements_of_invariant (fun call before here shared => Progress before call here shared)
    progress_enter (fun _ _ _ _ _ _ => progress_goes_on) (fun _ _ _ _ _ _ => progress_ends)

end Loops

def Call.saved (call : Call) : Bytes := if call.opens then call.text else []

def Call.repliesTo (call : Call) (sock : Nat) : Bool :=
  match call with
  | .saveChatToFile _ _ _ => false
  | .replay other opens => opens && other == sock

/-- What a descriptor is sent when the calls run one after another: for each replay to it the
whole log as it is then. -/
def received (sock : Nat) : Bytes → List (Served Call Unit) → Bytes
  | _, [] => []
  | file, served :: rest =>
      (if served.call.repliesTo sock then file else []) ++
        received sock (file ++ served.call.saved) rest

def bytesTo (sock : Nat) (sent : List (Nat × Bytes)) : Bytes :=
  (sent.filter fun write => write.1 = sock).flatMap Prod.snd

section Served

variable {before after : Shared} {sock : Nat}

theorem text_clean (call : Call) : (0 : Byte) ∉ call.text := by
  cases call with
  | saveChatToFile username message opens =>
      have middle : (0 : Byte) ∉ ascii ": " := by decide
      simp only [Call.text, savedText, List.mem_append, not_or]
      exact ⟨⟨cstr_no_nul username, middle⟩, cstr_no_nul message⟩
  | replay sock opens => simp [Call.text]

theorem effect_contents (call : Call) (shared : Shared) :
    (effect call shared).1.contents = shared.contents ++ call.saved := by
  unfold effect Call.saved
  split
  · cases call with
    | saveChatToFile username message opens => rfl
    | replay sock opens => exact (List.append_nil _).symm
  · exact (List.append_nil _).symm

theorem bytes_to_append (sent more : List (Nat × Bytes)) :
    bytesTo sock (sent ++ more) = bytesTo sock sent ++ bytesTo sock more := by
  rw [bytesTo, List.filter_append, List.flatMap_append]
  rfl

theorem bytes_to_writes (other : Nat) (texts : List Bytes) :
    bytesTo sock (texts.map fun text => (other, text)) =
      if other = sock then texts.flatten else [] := by
  unfold bytesTo
  rw [List.filter_map]
  by_cases same : other = sock <;> simp [same, Function.comp_def, List.flatMap]

theorem effect_sent (call : Call) (shared : Shared) (clean : (0 : Byte) ∉ shared.contents) :
    bytesTo sock (effect call shared).1.sent =
      bytesTo sock shared.sent ++ if call.repliesTo sock then shared.contents else [] := by
  unfold effect
  cases call with
  | saveChatToFile username message opens => cases opens <;> simp [Call.opens, Call.repliesTo]
  | replay other opens =>
      cases opens with
      | false => simp [Call.opens, Call.repliesTo]
      | true =>
          simp only [Call.opens, if_true, bytes_to_append, bytes_to_writes,
            replay_writes_flatten _ clean, Call.repliesTo, Bool.true_and, beq_iff_eq]

theorem replays_contents {served : List (Served Call Unit)}
    (replays : Replays effect before served after) :
    after.contents = before.contents ++ served.flatMap (fun one => one.call.saved) := by
  induction served generalizing before with
  | nil =>
      have same : after = before := replays
      rw [same]
      exact (List.append_nil _).symm
  | cons head rest ih =>
      rw [ih replays.2, effect_contents, List.flatMap_cons, List.append_assoc]

theorem replays_sent {served : List (Served Call Unit)}
    (clean : (0 : Byte) ∉ before.contents) (replays : Replays effect before served after) :
    bytesTo sock after.sent = bytesTo sock before.sent ++ received sock before.contents served := by
  induction served generalizing before with
  | nil =>
      have same : after = before := replays
      rw [same]
      exact (List.append_nil _).symm
  | cons head rest ih =>
      have stays : (0 : Byte) ∉ (effect head.call before).1.contents := by
        rw [effect_contents, List.mem_append, not_or, Call.saved]
        refine ⟨clean, ?_⟩
        split
        · exact text_clean head.call
        · exact List.not_mem_nil
      rw [ih stays replays.2, effect_contents, effect_sent head.call before clean, received,
        List.append_assoc]

end Served

/-- However the accesses of all threads mix: while nobody holds the mutex, the log is what it was
followed by the texts of the saves in lock order, each whole, and every replay has sent the log as
the saves before it have left it, if the log had no NUL byte; and as long as a call is pending,
some thread can go on. -/
theorem replays_send_whole_messages (start : Option Bytes)
    (actions : List (Action Call)) (state : State Call Local Shared Unit)
    (ran : run (step code) (begin ⟨start, []⟩) actions = some state) :
    (state.owner = none →
      state.shared.contents =
          start.getD [] ++ state.served.flatMap (fun one => one.call.saved) ∧
        ((0 : Byte) ∉ start.getD [] → ∀ sock,
          bytesTo sock state.shared.sent = received sock (start.getD []) state.served)) ∧
      ∀ thread phase, state.phases thread = some phase →
        ∃ action next, (∀ other call, action ≠ Action.call other call) ∧
          step code state action = some next := by
  have serialised := serialised_run code_implements ran
  refine ⟨?_, fun _ _ called => serialised.progress called⟩
  intro isFree
  have replays := serialised.idle isFree
  refine ⟨replays_contents replays, ?_⟩
  intro clean sock
  exact @replays_sent ⟨start, []⟩ _ sock _ clean replays

/-- A replay that waits for the mutex while a message is being saved. -/
def saveThenReplay : List (Action Call) :=
  [.call 0 (.saveChatToFile (ascii "al") (ascii "hi\n") true), .call 1 (.replay 5 true), .lock 0,
    .access 0, .access 0, .access 0, .access 0, .access 0, .access 0, .access 0, .access 0,
    .access 0, .unlock 0, .lock 1, .access 1, .access 1, .access 1, .access 1, .unlock 1]

theorem replays_send_whole_messages_after_save :
    ∃ state, run (step code) (begin ⟨none, []⟩) saveThenReplay = some state ∧
      state.shared.contents = ascii "al: hi\n" ∧
      bytesTo 5 state.shared.sent = received 5 [] state.served := by
  have observed : ((run (step code) (begin ⟨none, []⟩) saveThenReplay).map fun state =>
      (state.owner, state.shared.contents)) = some (none, ascii "al: hi\n") := by
    decide +kernel
  obtain ⟨state, ran, seen⟩ := Option.map_eq_some_iff.mp observed
  have account := (replays_send_whole_messages none saveThenReplay state ran).1
    (congrArg Prod.fst seen)
  exact ⟨state, ran, congrArg Prod.snd seen, account.2 List.not_mem_nil 5⟩

end LinuxFff.FileMutex
