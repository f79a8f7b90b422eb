import LinuxFff.CString
import LinuxFff.GrowingFile
import LinuxFff.RealTimeOrder
import LinuxFff.Serialization
import LinuxFff.TlsCliServer

/-!
# The chat log without a lock

`server_tls_final.c` and `server_tls.c` save messages to `chatlog.txt` and replay it from any
number of threads with no mutex around the file. A message waits in the buffer of its stream and
is appended by one write when the stream is closed. A replay reads the file block by block while
others append to it. Each read, each write, each `fgets` and each `SSL_write` is a step.
-/

namespace LinuxFff.UnlockedLog

open LinuxFff.CString LinuxFff.EventOrder LinuxFff.GrowingFile
open LinuxFff.RealTimeOrder LinuxFff.StepSystem
open LinuxFff.Serialization (Replays Served replays_snoc)

set_option autoImplicit false

/-- The buffer of a stream. -/
def blockSize : Nat := 4096

/-- A text that reaches the file in one write. -/
structure LogText where
  bytes : Bytes
  fits : bytes.length ≤ blockSize
  deriving DecidableEq

/-- `opens` is whether `fopen` succeeds on a file that it may open. -/
inductive Call where
  | save (text : LogText) (opens : Bool)
  | replay (opens : Bool)
  deriving DecidableEq

theorem cstr_length_le (array : Bytes) : (cstr array).length ≤ array.length :=
  (List.takeWhile_sublist _).length_le

/-- `fputs (message, log)`; the longest array is `char msg[1100]`. -/
def saveChatLog (message : Bytes) (size : message.length ≤ 1100) (opens : Bool) : Call :=
  .save ⟨cstr message, (cstr_length_le message).trans (size.trans (by decide))⟩ opens

theorem saved_text_fits {username buffer : Bytes} (named : username.length ≤ 50)
    (size : buffer.length ≤ 1024) :
    (TlsCliServer.savedText username buffer).length ≤ blockSize := by
  have colon : (ascii ": ").length = 2 := by decide
  have text := cstr_length_le buffer
  rw [TlsCliServer.savedText, List.length_append, List.length_append, colon, blockSize]
  omega

/-- `fprintf (fp, "%s: %s", username, message)` -/
def saveChatToFile (username buffer : Bytes) (named : username.length ≤ 50)
    (size : buffer.length ≤ 1024) (opens : Bool) : Call :=
  .save ⟨TlsCliServer.savedText username buffer, saved_text_fits named size⟩ opens

/-- What a call would do to the file at once, and what a replay would write. -/
def effect : Call → Bytes → Bytes × List Bytes
  | .save text opens, file => (if opens then file ++ text.bytes else file, [])
  | .replay opens, file => (file, if opens then replayWrites file else [])

/-- `sent` is what a replay has written. -/
inductive Phase where
  | opening
  | flushing (text : LogText)
  | reading (reader : Reader) (sent : List Bytes)
  | sending (piece : Bytes) (reader : Reader) (sent : List Bytes)
  | closing (result : List Bytes)
  | returned (result : List Bytes)

structure Running where
  call : Call
  phase : Phase

/-- `order` lists the calls that have taken effect; no step reads it or the history. -/
structure State where
  contents : Option Bytes
  running : Nat → Option Running
  order : List (Served Call (List Bytes))
  history : List (Event Nat)

def State.file (state : State) : Bytes := state.contents.getD []

def start (contents : Option Bytes) : State := ⟨contents, fun _ => none, [], []⟩

inductive Action where
  | call (id : Nat) (call : Call)
  | fopen (id : Nat)
  | write (id : Nat)
  | read (id count : Nat)
  | gets (id : Nat)
  | send (id : Nat)
  | ret (id : Nat)

def Action.id : Action → Nat
  | .call id _ => id
  | .fopen id => id
  | .write id => id
  | .read id _ => id
  | .gets id => id
  | .send id => id
  | .ret id => id

def State.move (state : State) (id : Nat) (call : Call) (phase : Phase) : State :=
  { state with running := Function.update state.running id (some ⟨call, phase⟩) }

def State.note (state : State) (id : Nat) (call : Call) (result : List Bytes) : State :=
  { state with order := state.order ++ [⟨id, call, result⟩] }

/-- A file that is opened for appending is there afterwards. -/
def fopen (state : State) (id : Nat) : Call → State
  | .save text true => { state.move id (.save text true) (.flushing text) with
      contents := some state.file }
  | .save text false =>
      (state.note id (.save text false) []).move id (.save text false) (.closing [])
  | .replay opens =>
      if opens = true ∧ state.contents ≠ none then
        state.move id (.replay opens) (.reading opened [])
      else (state.note id (.replay opens) []).move id (.replay opens) (.closing [])

def step (state : State) : Action → Option State
  | .call id call =>
      match state.running id with
      | none => some { state.move id call .opening with history := state.history ++ [.called id] }
      | some _ => none
  | .fopen id =>
      match state.running id with
      | some ⟨call, .opening⟩ => some (fopen state id call)
      | _ => none
  | .write id =>
      match state.running id with
      | some ⟨call, .flushing text⟩ => some { (state.note id call []).move id call (.closing []) with
          contents := some (state.file ++ text.bytes) }
      | _ => none
  | .read id count =>
      match state.running id with
      | some ⟨call, .reading reader sent⟩ =>
          if reader.Ready 1023 then none
          else match reader.fill state.file count with
            | none => none
            | some after =>
                -- the end of the file has been found
                if after.eof = true then
                  some ((state.note id call (replayWrites state.file)).move id call
                    (.reading after sent))
                else some (state.move id call (.reading after sent))
      | _ => none
  | .gets id =>
      match state.running id with
      | some ⟨call, .reading reader sent⟩ =>
          if reader.Ready 1023 then
            if reader.get 1023 = [] then some (state.move id call (.closing sent))
            else some (state.move id call (.sending (reader.get 1023) (reader.advance 1023) sent))
          else none
      | _ => none
  | .send id =>
      match state.running id with
      | some ⟨call, .sending piece reader sent⟩ =>
          some (state.move id call (.reading reader (sent ++ [cstr piece])))
      | _ => none
  | .ret id =>
      match state.running id with
      | some ⟨call, .closing result⟩ => some { state.move id call (.returned result) with
          history := state.history ++ [.returned id] }
      | _ => none

inductive Effect (state : State) : Action → State → Prop where
  | call (id : Nat) (call : Call) (idle : state.running id = none) :
      Effect state (.call id call)
        { state.move id call .opening with history := state.history ++ [.called id] }
  | fopen (id : Nat) (call : Call) (lookup : state.running id = some ⟨call, .opening⟩) :
      Effect state (.fopen id) (fopen state id call)
  | write (id : Nat) (call : Call) (text : LogText)
      (lookup : state.running id = some ⟨call, .flushing text⟩) :
      Effect state (.write id) { (state.note id call []).move id call (.closing []) with
        contents := some (state.file ++ text.bytes) }
  | read (id count : Nat) (call : Call) (reader after : Reader) (sent : List Bytes)
      (lookup : state.running id = some ⟨call, .reading reader sent⟩)
      (unready : ¬reader.Ready 1023) (filled : reader.fill state.file count = some after)
      (more : after.eof ≠ true) :
      Effect state (.read id count) (state.move id call (.reading after sent))
  | last (id count : Nat) (call : Call) (reader after : Reader) (sent : List Bytes)
      (lookup : state.running id = some ⟨call, .reading reader sent⟩)
      (unready : ¬reader.Ready 1023) (filled : reader.fill state.file count = some after)
      (ended : after.eof = true) :
      Effect state (.read id count)
        ((state.note id call (replayWrites state.file)).move id call (.reading after sent))
  | null (id : Nat) (call : Call) (reader : Reader) (sent : List Bytes)
      (lookup : state.running id = some ⟨call, .reading reader sent⟩)
      (ready : reader.Ready 1023) (null : reader.get 1023 = []) :
      Effect state (.gets id) (state.move id call (.closing sent))
  | gets (id : Nat) (call : Call) (reader : Reader) (sent : List Bytes)
      (lookup : state.running id = some ⟨call, .reading reader sent⟩)
      (ready : reader.Ready 1023) (piece : reader.get 1023 ≠ []) :
      Effect state (.gets id)
        (state.move id call (.sending (reader.get 1023) (reader.advance 1023) sent))
  | send (id : Nat) (call : Call) (piece : Bytes) (reader : Reader) (sent : List Bytes)
      (lookup : state.running id = some ⟨call, .sending piece reader sent⟩) :
      Effect state (.send id) (state.move id call (.reading reader (sent ++ [cstr piece])))
  | ret (id : Nat) (call : Call) (result : List Bytes)
      (lookup : state.running id = some ⟨call, .closing result⟩) :
      Effect state (.ret id) { state.move id call (.returned result) with
        history := state.history ++ [.returned id] }

theorem step_effect {state next : State} {action : Action}
    (stepped : step state action = some next) : Effect state action next := by
  cases action with
  | call id call =>
      simp only [step] at stepped
      split at stepped
      case h_1 idle =>
        cases stepped
        exact Effect.call id call idle
      case h_2 => cases stepped
  | fopen id =>
      simp only [step] at stepped
      split at stepped
      case h_1 call lookup =>
        cases stepped
        exact Effect.fopen id call lookup
      case h_2 => cases stepped
  | write id =>
      simp only [step] at stepped
      split at stepped
      case h_1 call text lookup =>
        cases stepped
        exact Effect.write id call text lookup
      case h_2 => cases stepped
  | read id count =>
      simp only [step] at stepped
      split at stepped
      case h_1 call reader sent lookup =>
        split_ifs at stepped with ready
        split at stepped
        case h_1 => cases stepped
        case h_2 after filled =>
          split_ifs at stepped with ended
          · cases stepped
            exact Effect.last id count call reader after sent lookup ready filled ended
          · cases stepped
            exact Effect.read id count call reader after sent lookup ready filled ended
      case h_2 => cases stepped
  | gets id =>
      simp only [step] at stepped
      split at stepped
      case h_1 call reader sent lookup =>
        split_ifs at stepped with ready null
        · cases stepped
          exact Effect.null id call reader sent lookup ready null
        · cases stepped
          exact Effect.gets id call reader sent lookup ready null
      case h_2 => cases stepped
  | send id =>
      simp only [step] at stepped
      split at stepped
      case h_1 call piece reader sent lookup =>
        cases stepped
        exact Effect.send id call piece reader sent lookup
      case h_2 => cases stepped
  | ret id =>
      simp only [step] at stepped
      split at stepped
      case h_1 call result lookup =>
        cases stepped
        exact Effect.ret id call result lookup
      case h_2 => cases stepped

def ids (order : List (Served Call (List Bytes))) : List Nat := order.map Served.thread

/-- A replay between two pieces: it has not taken effect, or what it writes is settled. -/
inductive Midway (file : Bytes) (order : List (Served Call (List Bytes))) (id : Nat)
    (reader : Reader) (sent : List Bytes) : Prop where
  | early (taken : List Bytes) (unserved : id ∉ ids order) (reads : Reads 1023 file taken reader)
      (written : sent = taken.map cstr)
  | settled (ended : reader.eof = true)
      (served : ⟨id, .replay true, sent ++ (fgetsLoop 1023 reader.buffer).map cstr⟩ ∈ order)

/-- What a call has done so far. -/
def Fits (file : Bytes) (order : List (Served Call (List Bytes))) (id : Nat) (running : Running) :
    Prop :=
  match running.phase with
  | .opening => id ∉ ids order
  | .flushing text => id ∉ ids order ∧ running.call = .save text true
  | .reading reader sent => running.call = .replay true ∧ Midway file order id reader sent
  | .sending piece reader sent =>
      running.call = .replay true ∧ Midway file order id reader (sent ++ [cstr piece])
  | .closing result => ⟨id, running.call, result⟩ ∈ order
  | .returned result => ⟨id, running.call, result⟩ ∈ order

structure Explained (initial : Bytes) (state : State) : Prop where
  replays : Replays effect initial state.order state.file
  linear : Linear state.history (ids state.order)
  called : ∀ id, Event.called id ∈ state.history ↔ state.running id ≠ none
  fits : ∀ id running, state.running id = some running → Fits state.file state.order id running

section Growth

variable {file : Bytes} {order entries : List (Served Call (List Bytes))} {id : Nat}
  {reader after : Reader} {sent : List Bytes}

theorem ids_append : ids (order ++ entries) = ids order ++ ids entries := List.map_append

theorem mem_ids {call : Call} {result : List Bytes} (member : ⟨id, call, result⟩ ∈ order) :
    id ∈ ids order :=
  List.mem_map_of_mem (f := Served.thread) member

theorem not_mem_ids_append (first : id ∉ ids order) (second : id ∉ ids entries) :
    id ∉ ids (order ++ entries) := by
  rw [ids_append, List.mem_append, not_or]
  exact ⟨first, second⟩

theorem Midway.grow (midway : Midway file order id reader sent) (extra : Bytes)
    (apart : id ∉ ids entries) : Midway (file ++ extra) (order ++ entries) id reader sent := by
  cases midway with
  | early taken unserved reads written =>
      exact Midway.early taken (not_mem_ids_append unserved apart) (reads.grow extra) written
  | settled ended served => exact Midway.settled ended (List.mem_append_left _ served)

theorem Fits.grow {running : Running} (fits : Fits file order id running) (extra : Bytes)
    (apart : id ∉ ids entries) : Fits (file ++ extra) (order ++ entries) id running := by
  obtain ⟨call, phase⟩ := running
  cases phase with
  | opening => exact not_mem_ids_append fits apart
  | flushing text => exact ⟨not_mem_ids_append fits.1 apart, fits.2⟩
  | reading reader sent => exact ⟨fits.1, fits.2.grow extra apart⟩
  | sending piece reader sent => exact ⟨fits.1, fits.2.grow extra apart⟩
  | closing result => exact List.mem_append_left _ fits
  | returned result => exact List.mem_append_left _ fits

theorem Midway.fill {count : Nat} (midway : Midway file order id reader sent)
    (unready : ¬reader.Ready 1023) (filled : reader.fill file count = some after)
    (more : after.eof ≠ true) : Midway file order id after sent := by
  cases midway with
  | early taken unserved reads written =>
      have some : file.drop reader.position ≠ [] := by
        intro ended
        exact more (reads.at_end filled ended).1
      exact Midway.early taken unserved (reads.fill filled some) written
  | settled ended served => exact absurd (Or.inl ended) unready

/-- The read that finds the end settles what the replay writes. -/
theorem Midway.at_end {count : Nat} (midway : Midway file order id reader sent)
    (unready : ¬reader.Ready 1023) (filled : reader.fill file count = some after)
    (ended : after.eof = true) :
    id ∉ ids order ∧ replayWrites file = sent ++ (fgetsLoop 1023 after.buffer).map cstr := by
  cases midway with
  | early taken unserved reads written =>
      have none : file.drop reader.position = [] := by
        by_contra more
        have stays := (reads.fill filled more).open_end
        rw [ended] at stays
        cases stays
      refine ⟨unserved, ?_⟩
      rw [replayWrites, (reads.at_end filled none).2.2, List.map_append, written]
  | settled ended served => exact absurd (Or.inl ended) unready

theorem get_ne_nil (some : reader.buffer ≠ []) : reader.get 1023 ≠ [] := by
  rw [Reader.get]
  cases split : reader.buffer with
  | nil => exact absurd split some
  | cons byte rest => exact fgets_cons_ne_nil 1022 byte rest

theorem Midway.null (midway : Midway file order id reader sent) (ready : reader.Ready 1023)
    (null : reader.get 1023 = []) : ⟨id, .replay true, sent⟩ ∈ order := by
  have none : reader.buffer = [] := by
    by_contra some
    exact get_ne_nil some null
  cases midway with
  | early taken unserved reads written =>
      rcases ready with ended | full
      · rw [reads.open_end] at ended
        cases ended
      · rw [none] at full
        exact absurd full (by decide)
  | settled ended served =>
      rw [none] at served
      simpa [fgets_loop_nil] using served

theorem Midway.gets (midway : Midway file order id reader sent) (ready : reader.Ready 1023)
    (piece : reader.get 1023 ≠ []) :
    Midway file order id (reader.advance 1023) (sent ++ [cstr (reader.get 1023)]) := by
  cases midway with
  | early taken unserved reads written =>
      have full : Full 1023 reader.buffer := by
        apply ready.resolve_left
        rw [reads.open_end]
        exact Bool.false_ne_true
      apply Midway.early (taken ++ [reader.get 1023]) unserved (reads.take full)
      rw [List.map_append, written]
      rfl
  | settled ended served =>
      have some : reader.buffer ≠ [] := by
        intro none
        apply piece
        rw [Reader.get, none]
        rfl
      have still : (reader.advance 1023).eof = true := ended
      apply Midway.settled still
      rw [fgets_loop_next some, List.map_cons] at served
      rw [List.append_assoc]
      exact served

end Growth

section Steps

variable {initial : Bytes} {state next : State} {id : Nat} {call : Call} {old phase : Phase}

theorem explained_start (contents : Option Bytes) :
    Explained (contents.getD []) (start contents) where
  replays := rfl
  linear := linear_nil
  called := by
    intro other
    constructor
    · intro impossible
      cases impossible
    · exact fun impossible => absurd rfl impossible
  fits := by
    intro other running impossible
    cases impossible

theorem called_update {running : Nat → Option Running} {now : Running}
    (lookup : running id ≠ none) (other : Nat) :
    Function.update running id (some now) other ≠ none ↔ running other ≠ none := by
  by_cases same : other = id
  · rw [same, Function.update_self]
    exact ⟨fun _ => lookup, fun _ => Option.some_ne_none now⟩
  · rw [Function.update_of_ne same]

theorem Explained.move (explained : Explained initial state)
    (lookup : state.running id = some ⟨call, old⟩)
    (fits : Fits state.file state.order id ⟨call, phase⟩) :
    Explained initial (state.move id call phase) where
  replays := explained.replays
  linear := explained.linear
  called := by
    intro other
    apply (explained.called other).trans
    refine (called_update ?_ other).symm
    rw [lookup]
    exact Option.some_ne_none _
  fits := forall_update explained.fits rfl fits

/-- A call takes effect: what the others have done so far is what it was. -/
theorem Explained.take_effect (explained : Explained initial state) {contents : Option Bytes}
    {extra : Bytes} {result : List Bytes} (lookup : state.running id = some ⟨call, old⟩)
    (unserved : id ∉ ids state.order) (grown : contents.getD [] = state.file ++ extra)
    (runs : effect call state.file = (contents.getD [], result))
    (fits : Fits (contents.getD []) (state.order ++ [⟨id, call, result⟩]) id ⟨call, phase⟩) :
    Explained initial
      { (state.note id call result).move id call phase with contents := contents } where
  replays := replays_snoc explained.replays runs
  linear := by
    have called : Event.called id ∈ state.history := by
      rw [explained.called, lookup]
      exact Option.some_ne_none _
    have order := explained.linear.take_effect called unserved
    change Linear state.history (ids (state.order ++ [⟨id, call, result⟩]))
    rw [ids_append]
    exact order
  called := by
    intro other
    apply (explained.called other).trans
    refine (called_update ?_ other).symm
    rw [lookup]
    exact Option.some_ne_none _
  fits := by
    intro other running found
    change Function.update state.running id (some ⟨call, phase⟩) other = some running at found
    by_cases same : other = id
    · rw [same, Function.update_self] at found
      rw [same, ← Option.some.inj found]
      exact fits
    · rw [Function.update_of_ne same] at found
      have apart : other ∉ ids [(⟨id, call, result⟩ : Served Call (List Bytes))] := by
        intro member
        exact same (List.mem_singleton.mp member)
      have before := (explained.fits other running found).grow extra apart
      rw [← grown] at before
      exact before

theorem Explained.enter (explained : Explained initial state) (idle : state.running id = none) :
    Explained initial { state.move id call .opening with
      history := state.history ++ [.called id] } := by
  have fresh : Event.called id ∉ state.history := by
    rw [explained.called, idle]
    exact fun impossible => impossible rfl
  constructor
  case replays => exact explained.replays
  case linear => exact explained.linear.call fresh
  case called =>
    intro other
    change Event.called other ∈ state.history ++ [Event.called id] ↔
      Function.update state.running id (some ⟨call, .opening⟩) other ≠ none
    rw [List.mem_append, explained.called]
    by_cases same : other = id
    · rw [same, Function.update_self]
      simp
    · rw [Function.update_of_ne same]
      simp [same]
  case fits =>
    apply forall_update explained.fits rfl
    exact fun member => fresh (explained.linear.known id member)

theorem Explained.ret (explained : Explained initial state) {result : List Bytes}
    (lookup : state.running id = some ⟨call, .closing result⟩) :
    Explained initial { state.move id call (.returned result) with
      history := state.history ++ [.returned id] } := by
  have served : ⟨id, call, result⟩ ∈ state.order := explained.fits id _ lookup
  have moved : Explained initial (state.move id call (.returned result)) :=
    explained.move lookup served
  constructor
  case replays => exact moved.replays
  case linear => exact moved.linear.ret (mem_ids served)
  case called =>
    intro other
    rw [← moved.called]
    change Event.called other ∈ state.history ++ [Event.returned id] ↔
      Event.called other ∈ state.history
    simp
  case fits => exact moved.fits

theorem Explained.fopen (explained : Explained initial state)
    (lookup : state.running id = some ⟨call, .opening⟩) :
    Explained initial (fopen state id call) := by
  have unserved : id ∉ ids state.order := explained.fits id _ lookup
  cases call with
  | save text opens =>
      cases opens with
      | true =>
          have created : Explained initial { state with contents := some state.file } :=
            ⟨explained.replays, explained.linear, explained.called, explained.fits⟩
          exact created.move lookup ⟨unserved, rfl⟩
      | false =>
          apply explained.take_effect lookup unserved (List.append_nil _).symm rfl
          exact List.mem_append_right _ (List.mem_singleton_self _)
  | replay opens =>
      rw [UnlockedLog.fopen]
      split
      case isTrue opened =>
        rw [opened.1] at lookup ⊢
        apply explained.move lookup
        exact ⟨rfl, Midway.early [] unserved (reads_opened 1023 state.file) rfl⟩
      case isFalse missing =>
        have none : (if opens = true then replayWrites state.file else []) = [] := by
          split
          case isTrue opens =>
            have absent : state.contents = Option.none := by
              by_contra there
              exact missing ⟨opens, there⟩
            rw [State.file, absent]
            rfl
          case isFalse => rfl
        apply explained.take_effect lookup unserved (List.append_nil _).symm
        · change (state.file, _) = (state.file, _)
          rw [none]
        · exact List.mem_append_right _ (List.mem_singleton_self _)

theorem Explained.write (explained : Explained initial state) {text : LogText}
    (lookup : state.running id = some ⟨call, .flushing text⟩) :
    Explained initial { (state.note id call []).move id call (.closing []) with
      contents := some (state.file ++ text.bytes) } := by
  obtain ⟨unserved, saves⟩ := explained.fits id _ lookup
  apply explained.take_effect lookup unserved rfl
  · change call = .save text true at saves
    rw [saves]
    rfl
  · exact List.mem_append_right _ (List.mem_singleton_self _)

theorem Explained.step (explained : Explained initial state) {action : Action}
    (stepped : step state action = some next) : Explained initial next := by
  cases step_effect stepped with
  | call id call idle => exact explained.enter idle
  | fopen id call lookup => exact explained.fopen lookup
  | write id call text lookup => exact explained.write lookup
  | read id count call reader after sent lookup unready filled more =>
      obtain ⟨replays, midway⟩ := explained.fits id _ lookup
      exact explained.move lookup ⟨replays, midway.fill unready filled more⟩
  | last id count call reader after sent lookup unready filled ended =>
      obtain ⟨replays, midway⟩ := explained.fits id _ lookup
      obtain ⟨unserved, writes⟩ := midway.at_end unready filled ended
      change call = .replay true at replays
      subst replays
      apply explained.take_effect lookup unserved (List.append_nil _).symm rfl
      refine ⟨rfl, Midway.settled ended ?_⟩
      rw [← writes]
      exact List.mem_append_right _ (List.mem_singleton_self _)
  | null id call reader sent lookup ready null =>
      obtain ⟨replays, midway⟩ := explained.fits id _ lookup
      change call = .replay true at replays
      subst replays
      exact explained.move lookup (midway.null ready null)
  | gets id call reader sent lookup ready piece =>
      obtain ⟨replays, midway⟩ := explained.fits id _ lookup
      exact explained.move lookup ⟨replays, midway.gets ready piece⟩
  | send id call piece reader sent lookup =>
      have fits := explained.fits id _ lookup
      exact explained.move lookup fits
  | ret id call result lookup => exact explained.ret lookup

end Steps

section Progress

/-- The steps of its own that a replay has left while nobody appends. -/
def readerLeft (file : Bytes) (reader : Reader) : Nat :=
  if reader.eof = true then 2 * reader.buffer.length + 2
  else 3 * (file.length - reader.position) + 2 * reader.buffer.length + 3

def left (file : Bytes) : Option Phase → Nat
  | none => 3 * file.length + 5
  | some .opening => 3 * file.length + 4
  | some (.flushing _) => 2
  | some (.reading reader _) => readerLeft file reader
  | some (.sending _ reader _) => readerLeft file reader + 1
  | some (.closing _) => 1
  | some (.returned _) => 0

def State.left (state : State) (id : Nat) : Nat :=
  UnlockedLog.left state.file ((state.running id).map Running.phase)

theorem left_append (file extra : Bytes) (phase : Option Phase) :
    left (file ++ extra) phase ≤ left file phase + 3 * extra.length := by
  have reading : ∀ reader : Reader,
      readerLeft (file ++ extra) reader ≤ readerLeft file reader + 3 * extra.length := by
    intro reader
    rw [readerLeft, readerLeft, List.length_append]
    split_ifs <;> omega
  rcases phase with _ | phase
  · simp only [left, List.length_append]
    omega
  · cases phase with
    | opening =>
        simp only [left, List.length_append]
        omega
    | flushing text => exact Nat.le_add_right _ _
    | reading reader sent => exact reading reader
    | sending piece reader sent =>
        have bound := reading reader
        simp only [left]
        omega
    | closing result => exact Nat.le_add_right _ _
    | returned result => exact Nat.le_add_right _ _

theorem two_le_reader_left (file : Bytes) (reader : Reader) : 2 ≤ readerLeft file reader := by
  rw [readerLeft]
  split_ifs <;> omega

theorem reader_left_fill {file : Bytes} {reader after : Reader} {count : Nat}
    (unready : ¬reader.Ready 1023) (filled : reader.fill file count = some after) :
    readerLeft file after + 1 ≤ readerLeft file reader := by
  have before : reader.eof ≠ true := fun ended => unready (Or.inl ended)
  rw [Reader.fill] at filled
  split_ifs at filled with ended bounds
  · cases filled
    rw [readerLeft, readerLeft, if_pos rfl, if_neg before]
    change 2 * reader.buffer.length + 2 + 1 ≤ _
    omega
  · cases filled
    have bound := bounds.2
    rw [List.length_drop] at bound
    rw [readerLeft, readerLeft, if_neg before, if_neg before, List.length_append,
      List.length_take, List.length_drop]
    change 3 * (file.length - (reader.position + count)) + _ + 3 + 1 ≤ _
    omega

theorem reader_left_advance {reader : Reader} (file : Bytes) (piece : reader.get 1023 ≠ []) :
    readerLeft file (reader.advance 1023) + 2 ≤ readerLeft file reader := by
  have split := congrArg List.length (fgets_flatten 1023 reader.buffer)
  rw [List.length_append] at split
  have some : 0 < (fgets 1023 reader.buffer).1.length := List.length_pos_iff.mpr piece
  rw [readerLeft, readerLeft]
  change (if reader.eof = true then 2 * (fgets 1023 reader.buffer).2.length + 2
    else 3 * (file.length - reader.position) + 2 * (fgets 1023 reader.buffer).2.length + 3) + 2 ≤ _
  split_ifs <;> omega

variable {state next : State} {action : Action} {id : Nat}

theorem State.left_of {running : Running} (lookup : state.running id = some running) :
    state.left id = UnlockedLog.left state.file (some running.phase) := by
  rw [State.left, lookup]
  rfl

theorem step_moves (stepped : step state action = some next) :
    ∃ call phase extra,
      next.running = Function.update state.running action.id (some ⟨call, phase⟩) ∧
        next.file = state.file ++ extra ∧
          left next.file (some phase) + 1 ≤ state.left action.id := by
  cases step_effect stepped with
  | call id call idle =>
      refine ⟨call, .opening, [], rfl, (List.append_nil _).symm, ?_⟩
      change _ ≤ state.left id
      rw [State.left, idle]
      exact le_refl _
  | fopen id call lookup =>
      change ∃ _ _ _, _ ∧ _ ∧ _ ≤ state.left id
      rw [State.left_of lookup]
      cases call with
      | save text opens =>
          cases opens with
          | true =>
              refine ⟨_, .flushing text, [], rfl, (List.append_nil _).symm, ?_⟩
              simp only [left]
              omega
          | false =>
              refine ⟨_, .closing [], [], rfl, (List.append_nil _).symm, ?_⟩
              simp only [left]
              omega
      | replay opens =>
          rw [fopen]
          split
          · refine ⟨_, .reading opened [], [], rfl, (List.append_nil _).symm, ?_⟩
            change 3 * (state.file.length - 0) + 2 * 0 + 3 + 1 ≤ _
            simp only [left]
            omega
          · refine ⟨_, .closing [], [], rfl, (List.append_nil _).symm, ?_⟩
            simp only [left]
            omega
  | write id call text lookup =>
      refine ⟨call, .closing [], text.bytes, rfl, rfl, ?_⟩
      change _ ≤ state.left id
      rw [State.left_of lookup]
      exact le_refl _
  | read id count call reader after sent lookup unready filled more =>
      refine ⟨call, .reading after sent, [], rfl, (List.append_nil _).symm, ?_⟩
      change _ ≤ state.left id
      rw [State.left_of lookup]
      exact reader_left_fill unready filled
  | last id count call reader after sent lookup unready filled ended =>
      refine ⟨call, .reading after sent, [], rfl, (List.append_nil _).symm, ?_⟩
      change _ ≤ state.left id
      rw [State.left_of lookup]
      exact reader_left_fill unready filled
  | null id call reader sent lookup ready null =>
      refine ⟨call, .closing sent, [], rfl, (List.append_nil _).symm, ?_⟩
      change _ ≤ state.left id
      rw [State.left_of lookup]
      exact two_le_reader_left state.file reader
  | gets id call reader sent lookup ready piece =>
      refine ⟨call, .sending (reader.get 1023) (reader.advance 1023) sent, [], rfl,
        (List.append_nil _).symm, ?_⟩
      change _ ≤ state.left id
      rw [State.left_of lookup]
      exact reader_left_advance state.file piece
  | send id call piece reader sent lookup =>
      refine ⟨call, .reading reader (sent ++ [cstr piece]), [], rfl, (List.append_nil _).symm, ?_⟩
      change _ ≤ state.left id
      rw [State.left_of lookup]
      exact le_refl _
  | ret id call result lookup =>
      refine ⟨call, .returned result, [], rfl, (List.append_nil _).symm, ?_⟩
      change _ ≤ state.left id
      rw [State.left_of lookup]
      exact le_refl _

theorem step_left (stepped : step state action = some next) (id : Nat) :
    next.left id + 3 * state.file.length + (if (action.id == id) = true then 1 else 0) ≤
      state.left id + 3 * next.file.length := by
  obtain ⟨call, phase, extra, running, grown, lowers⟩ := step_moves stepped
  have longer : next.file.length = state.file.length + extra.length := by
    rw [grown, List.length_append]
  by_cases own : action.id = id
  · rw [own] at running lowers
    have moved : next.running id = some ⟨call, phase⟩ := by
      rw [running]
      exact Function.update_self _ _ _
    rw [State.left_of moved, if_pos (beq_iff_eq.mpr own)]
    change left next.file (some phase) + _ + 1 ≤ _
    omega
  · have same : next.running id = state.running id := by
      rw [running]
      exact Function.update_of_ne (Ne.symm own) _ _
    have bound := left_append state.file extra ((state.running id).map Running.phase)
    rw [if_neg (fun equal => own (beq_iff_eq.mp equal)), State.left, State.left, same, grown]
    rw [List.length_append]
    omega

/-- A call takes no more steps than the file has given it reason to. -/
theorem own_steps_le {contents : Option Bytes} {actions : List Action}
    (ran : run step (start contents) actions = some state) (id : Nat) :
    actions.countP (fun action => action.id == id) + state.left id ≤
      3 * state.file.length + 5 := by
  have kept : ∀ past state action next,
      past.countP (fun action : Action => action.id == id) + State.left state id ≤
        3 * state.file.length + 5 →
      True → step state action = some next →
      (past ++ [action]).countP (fun action : Action => action.id == id) + next.left id ≤
        3 * next.file.length + 5 := by
    intro past state action next holds _ stepped
    have paid := step_left stepped id
    rw [List.countP_append, List.countP_singleton]
    omega
  have begins : ([] : List Action).countP (fun action => action.id == id) +
      (start contents).left id ≤ 3 * (start contents).file.length + 5 := by
    rw [List.countP_nil, Nat.zero_add]
    exact le_refl _
  have all : ∀ action ∈ actions, (fun _ : Action => True) action := fun _ _ => trivial
  exact run_keeps_past kept begins all ran

/-- No call waits for another. -/
theorem call_goes_on {running : Running} (lookup : state.running id = some running)
    (unfinished : ∀ result, running.phase ≠ .returned result) :
    ∃ action : Action, action.id = id ∧ (step state action).isSome = true := by
  obtain ⟨call, phase⟩ := running
  cases phase with
  | opening =>
      refine ⟨.fopen id, rfl, ?_⟩
      simp only [step, lookup, Option.isSome_some]
  | flushing text =>
      refine ⟨.write id, rfl, ?_⟩
      simp only [step, lookup, Option.isSome_some]
  | reading reader sent =>
      by_cases ready : reader.Ready 1023
      · refine ⟨.gets id, rfl, ?_⟩
        simp only [step, lookup, if_pos ready]
        split <;> rfl
      · obtain ⟨after, filled⟩ : ∃ after, reader.fill state.file 1 = some after := by
          rw [Reader.fill]
          split_ifs with ended bounds
          · exact ⟨_, rfl⟩
          · exact ⟨_, rfl⟩
          · have positive := List.length_pos_iff.mpr ended
            exact absurd ⟨Nat.one_pos, positive⟩ bounds
        refine ⟨.read id 1, rfl, ?_⟩
        simp only [step, lookup, if_neg ready, filled]
        split <;> rfl
  | sending piece reader sent =>
      refine ⟨.send id, rfl, ?_⟩
      simp only [step, lookup, Option.isSome_some]
  | closing result =>
      refine ⟨.ret id, rfl, ?_⟩
      simp only [step, lookup, Option.isSome_some]
  | returned result => exact absurd rfl (unfinished result)

end Progress

/-- What the calls return and leave in the file is what they do one after another in some order
that keeps to the times of their calls and returns, and each of them ends by steps of its own. -/
theorem log_is_linearizable (contents : Option Bytes) (actions : List Action) (state : State)
    (ran : run step (start contents) actions = some state) :
    Replays effect (contents.getD []) state.order state.file ∧
      (ids state.order).Nodup ∧
      (∀ id call result, state.running id = some ⟨call, .returned result⟩ →
        ⟨id, call, result⟩ ∈ state.order) ∧
      (∀ first second, Before (.returned first) (.called second) state.history →
        second ∈ ids state.order → Before first second (ids state.order)) ∧
      (∀ id running, state.running id = some running →
        (∀ result, running.phase ≠ .returned result) →
        ∃ action : Action, action.id = id ∧ (step state action).isSome = true) ∧
      ∀ id, actions.countP (fun action => action.id == id) ≤ 3 * state.file.length + 5 := by
  have kept : ∀ state action next, Explained (contents.getD []) state →
      step state action = some next → Explained (contents.getD []) next :=
    fun _ _ _ explained stepped => explained.step stepped
  have explained := run_keeps_always kept (explained_start contents) ran
  refine ⟨explained.replays, explained.linear.distinct, ?_, explained.linear.early, ?_, ?_⟩
  · intro id call result lookup
    exact explained.fits id _ lookup
  · intro id running lookup unfinished
    exact call_goes_on lookup unfinished
  · intro id
    exact (Nat.le_add_right _ _).trans (own_steps_le ran id)

def resultOf : Option Running → Option (List Bytes)
  | some ⟨_, .returned result⟩ => some result
  | _ => none

/-- A message is saved while a replay has read half of a line; another replay follows. -/
def savedMeanwhile : List Action :=
  [.call 0 (.replay true), .fopen 0, .read 0 2,
    .call 1 (saveChatLog (ascii "b: y\n") (by decide) true), .fopen 1, .write 1, .ret 1,
    .read 0 4, .gets 0, .send 0, .read 0 4, .gets 0, .send 0, .read 0 1, .call 2 (.replay false),
    .fopen 2, .gets 0, .ret 0, .ret 2]

theorem log_is_linearizable_saved_meanwhile :
    ∃ state, run step (start (some (ascii "a: x\n"))) savedMeanwhile = some state ∧
      state.file = ascii "a: x\nb: y\n" ∧ ids state.order = [1, 0, 2] ∧
      resultOf (state.running 0) = some [ascii "a: x\n", ascii "b: y\n"] ∧
      Replays effect (ascii "a: x\n") state.order state.file ∧
      Before 1 2 (ids state.order) ∧
      savedMeanwhile.countP (fun action => action.id == 0) ≤ 3 * state.file.length + 5 := by
  have observed : ((run step (start (some (ascii "a: x\n"))) savedMeanwhile).map fun state =>
      (state.file, ids state.order, resultOf (state.running 0),
        decide (Before (.returned 1) (.called 2) state.history))) =
        some (ascii "a: x\nb: y\n", [1, 0, 2], some [ascii "a: x\n", ascii "b: y\n"], true) := by
    decide +kernel
  obtain ⟨state, ran, seen⟩ := Option.map_eq_some_iff.mp observed
  simp only [Prod.mk.injEq] at seen
  obtain ⟨file, order, sent, earlier⟩ := seen
  obtain ⟨replays, _, _, early, _, bound⟩ :=
    log_is_linearizable (some (ascii "a: x\n")) savedMeanwhile state ran
  refine ⟨state, ran, file, order, sent, replays, ?_, bound 0⟩
  apply early 1 2 (of_decide_eq_true earlier)
  rw [order]
  decide

end LinuxFff.UnlockedLog
