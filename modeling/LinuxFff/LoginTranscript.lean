import LinuxFff.Authenticate
import LinuxFff.CString
import LinuxFff.KernelMemory

/-!
# What a session is sent before the chat

`expected` is the documented dialogue, read off what the client has answered so
far. The texts of `authenticate` are written with their `strlen`; the two lines
that `handle_client` adds are literals written with a length counted by hand,
and what follows a literal in memory is written with it.
-/

namespace LinuxFff.LoginTranscript

open LinuxFff.Authenticate LinuxFff.CString LinuxFff.KernelMemory
open LinuxFff.SizeArith LinuxFff.StackArray
open LinuxFff.UsersFile hiding authenticate

set_option autoImplicit false

def failureLine : Bytes := ascii "Authentication failed. Closing connection.\n"
def welcomeLine : Bytes := ascii "Login successful. Welcome\n"

/-- `SSL_write (ssl, literal, length)`: the literal with its terminator lies at
the beginning of this memory. -/
def literalBytes (memory : Memory) (literal : Bytes) (length : Nat) : Bytes :=
  (memory.store 0 (literal ++ [0])).load 0 length

/-- The memory from the two literals on. -/
structure Literals where
  failure : Memory
  welcome : Memory

/-- `handle_client` up to its chat loop, without the broadcasts. `log` is what
`chatlog.txt` holds when `send_chat_log` opens it. -/
def handleLogin (abi : Abi) (locals : Locals) (users : Option Bytes) (literals : Literals)
    (log : Bytes) (fuel : Nat) (session : Session) : Progress Decision :=
  match authenticate abi locals users fuel session with
  | .stops session => .stops session
  | .goes decision session =>
      if decision.auth = 0 then
        .goes decision (session.sslWrite (literalBytes literals.failure failureLine 44))
      else
        let welcomed := session.sslWrite (literalBytes literals.welcome welcomeLine 39)
        .goes decision { welcomed with writes := welcomed.writes ++ replayWrites log }

def promptTexts : List (Option Bytes) → List Bytes
  | [] => [usernamePrompt]
  | _ :: _ => [usernamePrompt, passwordPrompt]

/-- The dialogue with a client that has given these answers. -/
def expected (abi : Abi) (behind : Bytes) : List (Option Bytes) → List Bytes
  | [] => [menuText]
  | answer :: later =>
      if Chosen (menuMode abi behind answer) then menuText :: promptTexts later
      else menuText :: tryAgain :: expected abi behind later

/-- The dialogue of a run, up to the line that ends the login. -/
def dialogue (abi : Abi) (behind : Bytes) : Progress Decision → List Bytes
  | .stops session => expected abi behind session.answers
  | .goes decision session => expected abi behind session.answers ++
      [authDigit decision.auth, if decision.auth = 0 then failureLine else welcomeLine]

def replayed (log : Bytes) : Progress Decision → Bytes
  | .stops _ => []
  | .goes decision _ => if decision.auth = 0 then [] else log

/-- A text sent in full, alone or with its terminator. -/
def SentText (text sent : Bytes) : Prop := sent = text ∨ sent = text ++ [0]

/-- No text is sent with a byte beyond its terminator. -/
def SentWithin (abi : Abi) (behind log : Bytes) (progress : Progress Decision) : Prop :=
  ∃ told replay, progress.session.writes = told ++ replay ∧
    List.Forall₂ SentText (dialogue abi behind progress) told ∧
    replay.flatten = replayed log progress

/-- The bytes are those of the texts and nothing else. -/
def SentExactly (abi : Abi) (behind log : Bytes) (progress : Progress Decision) : Prop :=
  progress.session.writes.flatten =
    (dialogue abi behind progress).flatten ++ replayed log progress

section Menu

variable {abi : Abi} {behind : Bytes} {fuel : Nat} {session after : Session} {mode : Int}

theorem session_read {size : Nat} {answer : Option Bytes}
    (read : session.sslRead size = some (answer, after)) :
    after.answers = session.answers ++ [answer] ∧ after.writes = session.writes := by
  unfold Session.sslRead at read
  cases peer : session.peer.sslRead size with
  | none => simp [peer] at read
  | some result =>
      rcases result with ⟨got, rest⟩
      simp only [peer, Option.some.injEq, Prod.mk.injEq] at read
      obtain ⟨same, equal⟩ := read
      subst same equal
      exact ⟨rfl, rfl⟩

theorem menu_loop_writes (abi : Abi) (behind : Bytes) (fuel : Nat) (session : Session) :
    match menuLoop abi behind fuel session with
    | .stops after => ∃ given, after.answers = session.answers ++ given ∧
        after.writes = session.writes ++ expected abi behind given
    | .goes _ after => ∃ given, after.answers = session.answers ++ given ∧
        ∀ later, after.writes ++ promptTexts later =
          session.writes ++ expected abi behind (given ++ later) := by
  induction fuel generalizing session with
  | zero => exact ⟨[], (List.append_nil _).symm, rfl⟩
  | succ fuel ih =>
      cases read : (session.sslWrite menuText).sslRead 1024 with
      | none =>
          simp only [menuLoop, read]
          exact ⟨[], (List.append_nil _).symm, rfl⟩
      | some result =>
          rcases result with ⟨answer, heard⟩
          obtain ⟨answers, writes⟩ := session_read read
          simp only [menuLoop, read]
          by_cases chosen : Chosen (menuMode abi behind answer)
          case pos =>
            simp only [if_pos chosen]
            refine ⟨[answer], answers, ?_⟩
            intro later
            simp only [Session.look, writes, Session.sslWrite, List.singleton_append, expected,
              if_pos chosen, List.append_assoc]
          case neg =>
            have tail := ih ((heard.look (menuBuffer behind answer).terminated).sslWrite tryAgain)
            simp only [if_neg chosen]
            cases loop : menuLoop abi behind fuel
                ((heard.look (menuBuffer behind answer).terminated).sslWrite tryAgain) with
            | stops after =>
                rw [loop] at tail
                obtain ⟨given, more, said⟩ := tail
                refine ⟨answer :: given, ?_, ?_⟩
                · rw [more]
                  simp [Session.look, Session.sslWrite, answers]
                · rw [said]
                  simp [Session.look, Session.sslWrite, writes, expected, if_neg chosen]
            | goes mode after =>
                rw [loop] at tail
                obtain ⟨given, more, said⟩ := tail
                refine ⟨answer :: given, ?_, ?_⟩
                · rw [more]
                  simp [Session.look, Session.sslWrite, answers]
                · intro later
                  rw [said]
                  simp [Session.look, Session.sslWrite, writes, expected, if_neg chosen]

theorem prompt_writes (text : Bytes) (field : CharArray 50) (session : Session) :
    match prompt text field session with
    | .stops after => after.answers = session.answers ∧ after.writes = session.writes ++ [text]
    | .goes _ after => ∃ answer, after.answers = session.answers ++ [answer] ∧
        after.writes = session.writes ++ [text] := by
  unfold prompt
  cases read : (session.sslWrite text).sslRead 50 with
  | none => exact ⟨rfl, rfl⟩
  | some result =>
      rcases result with ⟨answer, heard⟩
      obtain ⟨answers, writes⟩ := session_read read
      exact ⟨answer, answers, writes⟩

theorem decide_auth_writes (locals : Locals) (mode : Int) (username password : CharArray 50)
    (file : Bytes) (session : Session) :
    ∃ decision told, decideAuth locals mode username password (some file) session =
        .goes decision told ∧ told.answers = session.answers ∧
      told.writes = session.writes ++ [authDigit decision.auth] :=
  ⟨_, _, rfl, rfl, rfl⟩

theorem authenticate_writes (abi : Abi) (locals : Locals) (file : Bytes) (fuel : Nat)
    (peer : Peer) :
    match authenticate abi locals (some file) fuel (Session.start peer) with
    | .stops after => after.writes = expected abi locals.behindBuffer after.answers
    | .goes decision after =>
        after.writes = expected abi locals.behindBuffer after.answers ++
          [authDigit decision.auth] := by
  have menu := menu_loop_writes abi locals.behindBuffer fuel (Session.start peer)
  unfold authenticate
  cases loop : menuLoop abi locals.behindBuffer fuel (Session.start peer) with
  | stops after =>
      rw [loop] at menu
      obtain ⟨given, answers, writes⟩ := menu
      simp only [writes, answers, Session.start, List.nil_append]
  | goes mode chosen =>
      rw [loop] at menu
      obtain ⟨given, answers, writes⟩ := menu
      simp only [Session.start, List.nil_append] at answers writes ⊢
      have first := prompt_writes usernamePrompt locals.username chosen
      cases asked : prompt usernamePrompt locals.username chosen with
      | stops after =>
          rw [asked] at first
          have said := writes []
          rw [List.append_nil] at said
          simp only [first.1, first.2, answers]
          exact said
      | goes username named =>
          rw [asked] at first
          obtain ⟨name, nameAnswers, nameWrites⟩ := first
          have second := prompt_writes passwordPrompt locals.password named
          dsimp only
          cases askedAgain : prompt passwordPrompt locals.password named with
          | stops after =>
              rw [askedAgain] at second
              have said := writes [name]
              simp only [second.1, second.2, nameAnswers, nameWrites, answers,
                List.append_assoc]
              exact said
          | goes password finished =>
              rw [askedAgain] at second
              obtain ⟨word, wordAnswers, wordWrites⟩ := second
              obtain ⟨decision, told, decided, sameAnswers, digit⟩ :=
                decide_auth_writes locals mode username password file finished
              have said := writes [name, word]
              simp only [promptTexts] at said
              simp only [decided, digit, sameAnswers, wordAnswers, wordWrites, nameAnswers,
                nameWrites, answers, List.append_assoc, List.singleton_append] at said ⊢
              rw [← said]
              simp

end Menu

section Literals

/-- The failure line goes out with its terminator. -/
theorem failure_bytes (memory : Memory) :
    literalBytes memory failureLine 44 = failureLine ++ [0] := by
  have size : (failureLine ++ [0]).length = 44 := by decide
  unfold literalBytes
  rw [load_store, List.take_of_length_le (Nat.le_of_eq size),
    List.drop_eq_nil_of_le (by rw [load_length, size]), List.append_nil]

theorem welcome_length (memory : Memory) : (literalBytes memory welcomeLine 39).length = 39 :=
  load_length _ _ _

theorem welcome_not_sent (memory : Memory) :
    ¬SentText welcomeLine (literalBytes memory welcomeLine 39) := by
  have size : welcomeLine.length = 26 := by decide
  have length := welcome_length memory
  rintro (alone | terminated)
  · rw [alone, size] at length
    omega
  · rw [terminated, List.length_append, size, List.length_singleton] at length
    omega

end Literals

/-- What the client supplies is a login that `users.txt` has, or a sign-in under
a name that it does not have. -/
def Accepted (locals : Locals) (file : Bytes) (input : Int × CharArray 50 × CharArray 50) :
    Prop :=
  (input.1 = 1 ∧ loginLoop input.2.1.text input.2.2.text locals.fileUser.text
    locals.filePass.text (fgetsLoop lineRoom file) = true) ∨
  (input.1 = 2 ∧ signInLoop input.2.1.text locals.fileUser.text (fgetsLoop lineRoom file) = false)

instance (locals : Locals) (file : Bytes) (input : Int × CharArray 50 × CharArray 50) :
    Decidable (Accepted locals file input) := inferInstanceAs (Decidable (_ ∨ _))

theorem verdict_auth_iff (locals : Locals) (file : Bytes)
    (input : Int × CharArray 50 × CharArray 50) :
    (verdict locals (some file) input).auth ≠ 0 ↔ Accepted locals file input := by
  unfold verdict UsersFile.authenticate Accepted
  by_cases login : input.1 = 1
  · by_cases found : loginLoop input.2.1.text input.2.2.text locals.fileUser.text
        locals.filePass.text (fgetsLoop lineRoom file) = true <;> simp [login, found]
  · by_cases signs : input.1 = 2
    · by_cases present : signInLoop input.2.1.text locals.fileUser.text
          (fgetsLoop lineRoom file) = true <;> simp [signs, present]
    · simp [login, signs]

section Sessions

variable (abi : Abi) (locals : Locals) (file : Bytes) (literals : Literals) (log : Bytes)
  (fuel : Nat) (peer : Peer)

/-- Everything that has been written to the session. -/
theorem handle_login_writes :
    match supplied abi locals fuel peer with
    | none => ∃ after,
        handleLogin abi locals (some file) literals log fuel (Session.start peer) = .stops after ∧
          after.writes = expected abi locals.behindBuffer after.answers
    | some input => ∃ after,
        handleLogin abi locals (some file) literals log fuel (Session.start peer) =
            .goes (verdict locals (some file) input) after ∧
          after.writes = expected abi locals.behindBuffer after.answers ++
            authDigit (verdict locals (some file) input).auth ::
              if (verdict locals (some file) input).auth = 0 then
                [literalBytes literals.failure failureLine 44]
              else literalBytes literals.welcome welcomeLine 39 :: replayWrites log := by
  have shape := authenticate_supplied abi locals (some file) fuel (Session.start peer)
  have writes := authenticate_writes abi locals file fuel peer
  unfold handleLogin
  cases given : supplied abi locals fuel peer with
  | none =>
      rw [Session.start, given] at shape
      obtain ⟨after, stops⟩ := shape
      rw [Session.start, stops] at writes
      refine ⟨after, ?_, writes⟩
      rw [Session.start, stops]
  | some input =>
      rw [Session.start, given] at shape
      obtain ⟨after, goes⟩ := shape
      rw [Session.start, goes] at writes
      simp only [Session.start, goes] at writes ⊢
      by_cases refused : (verdict locals (some file) input).auth = 0
      · simp only [if_pos refused]
        exact ⟨_, rfl, by simp [Session.sslWrite, writes]⟩
      · simp only [if_neg refused]
        exact ⟨_, rfl, by simp [Session.sslWrite, writes]⟩

/-- The client gets the welcome line. -/
def Welcomed : Prop :=
  ∃ input, supplied abi locals fuel peer = some input ∧ Accepted locals file input

theorem told_to_end (texts : List Bytes) : List.Forall₂ SentText texts texts :=
  List.forall₂_same.mpr fun _ _ => Or.inl rfl

theorem welcomed_iff {input : Int × CharArray 50 × CharArray 50}
    (given : supplied abi locals fuel peer = some input) :
    Welcomed abi locals file fuel peer ↔ (verdict locals (some file) input).auth ≠ 0 := by
  rw [verdict_auth_iff]
  simp [Welcomed, given]

/-- Without the welcome line every text is sent within its terminator. -/
theorem sent_within_iff :
    SentWithin abi locals.behindBuffer log
        (handleLogin abi locals (some file) literals log fuel (Session.start peer)) ↔
      ¬Welcomed abi locals file fuel peer := by
  have shape := handle_login_writes abi locals file literals log fuel peer
  cases given : supplied abi locals fuel peer with
  | none =>
      rw [given] at shape
      obtain ⟨after, stops, writes⟩ := shape
      rw [stops]
      refine iff_of_true ⟨after.writes, [], (List.append_nil _).symm, ?_, rfl⟩ ?_
      · rw [writes]
        exact told_to_end _
      · rintro ⟨input, some, -⟩
        rw [given] at some
        cases some
  | some input =>
      rw [given] at shape
      obtain ⟨after, goes, writes⟩ := shape
      rw [goes, welcomed_iff abi locals file fuel peer given, not_not]
      by_cases refused : (verdict locals (some file) input).auth = 0
      case pos =>
        rw [if_pos refused, failure_bytes] at writes
        refine iff_of_true ⟨after.writes, [], (List.append_nil _).symm, ?_, ?_⟩ refused
        · rw [writes, dialogue, if_pos refused]
          exact List.rel_append (told_to_end _) (.cons (Or.inl rfl) (.cons (Or.inr rfl) .nil))
        · simp [replayed, refused]
      case neg =>
        rw [if_neg refused] at writes
        refine iff_of_false ?_ refused
        rintro ⟨told, replay, split, sent, -⟩
        have shape : after.writes = (expected abi locals.behindBuffer after.answers ++
            [authDigit (verdict locals (some file) input).auth,
              literalBytes literals.welcome welcomeLine 39]) ++ replayWrites log := by
          rw [writes]
          simp
        have lengths := sent.length_eq
        simp only [dialogue, List.length_append, List.length_cons, List.length_nil] at lengths
        rw [Progress.session, shape] at split
        have texts := (List.append_inj split (by simpa using lengths)).1
        rw [← texts] at sent
        -- the last text of the dialogue is the line behind the digit
        have last := List.forall₂_drop
          ((expected abi locals.behindBuffer after.answers).length + 1) sent
        simp only [dialogue, refused, if_false, List.drop_append, Nat.le_add_right,
          List.drop_eq_nil_of_le, Nat.add_sub_cancel_left, List.drop_succ_cons, List.drop_zero,
          List.nil_append, List.forall₂_cons, List.forall₂_nil_left_iff, and_true] at last
        exact welcome_not_sent _ last

/-- The line that ends the login is always longer than its text. -/
theorem sent_exactly_iff (noNul : (0 : Byte) ∉ log) :
    SentExactly abi locals.behindBuffer log
        (handleLogin abi locals (some file) literals log fuel (Session.start peer)) ↔
      supplied abi locals fuel peer = none := by
  have shape := handle_login_writes abi locals file literals log fuel peer
  cases given : supplied abi locals fuel peer with
  | none =>
      rw [given] at shape
      obtain ⟨after, stops, writes⟩ := shape
      rw [stops]
      refine iff_of_true ?_ rfl
      simp [SentExactly, Progress.session, dialogue, replayed, writes]
  | some input =>
      rw [given] at shape
      obtain ⟨after, goes, writes⟩ := shape
      rw [goes]
      refine iff_of_false ?_ (by simp)
      intro same
      have lengths := congrArg List.length same
      by_cases refused : (verdict locals (some file) input).auth = 0
      case pos =>
        rw [if_pos refused, failure_bytes] at writes
        simp [Progress.session, dialogue, replayed, refused, writes] at lengths
      case neg =>
        rw [if_neg refused] at writes
        have size : welcomeLine.length = 26 := by decide
        simp only [Progress.session, dialogue, replayed, refused, writes, if_false,
          List.flatten_append, List.flatten_cons, List.flatten_nil, List.append_nil,
          List.length_append, replay_writes_flatten log noNul, welcome_length, size] at lengths
        omega

/-- Wherever the session has come to: no text is sent with a byte beyond its
terminator exactly as long as the client has not been welcomed, and the bytes
are the texts alone exactly as long as the login has not been decided. -/
theorem session_transcript_iff (noNul : (0 : Byte) ∉ log) :
    (SentWithin abi locals.behindBuffer log
        (handleLogin abi locals (some file) literals log fuel (Session.start peer)) ↔
      ¬Welcomed abi locals file fuel peer) ∧
    (SentExactly abi locals.behindBuffer log
        (handleLogin abi locals (some file) literals log fuel (Session.start peer)) ↔
      supplied abi locals fuel peer = none) :=
  ⟨sent_within_iff abi locals file literals log fuel peer,
    sent_exactly_iff abi locals file literals log fuel peer noNul⟩

end Sessions

def someLiterals : Literals := ⟨fun _ => 120, fun _ => 120⟩

def signIn : Peer :=
  .sent [ascii "hello\n", ascii "2\n", ascii "al\n", ascii "pw\n"] false

/-- The name is taken: the dialogue ends with the failure line. -/
theorem refused_session_within :
    SentWithin .lp64 someLocals.behindBuffer (ascii "al: hi\n")
      (handleLogin .lp64 someLocals (some (ascii "al x\n")) someLiterals (ascii "al: hi\n") 2
        (Session.start signIn)) := by
  refine (session_transcript_iff .lp64 someLocals (ascii "al x\n") someLiterals
    (ascii "al: hi\n") 2 signIn (by decide)).1.mpr ?_
  rw [welcomed_iff .lp64 someLocals (ascii "al x\n") 2 signIn rfl]
  decide

/-- The sign-in succeeds, and the welcome line goes out with 13 bytes too many. -/
theorem welcome_leaks :
    ¬SentWithin .lp64 someLocals.behindBuffer []
      (handleLogin .lp64 someLocals (some []) someLiterals [] 2 (Session.start signIn)) := by
  rw [sent_within_iff .lp64 someLocals [] someLiterals [] 2 signIn, not_not]
  exact ⟨_, rfl, by decide⟩

end LinuxFff.LoginTranscript
