import LinuxFff.TlsHistory

/-!
# The chat log as a history

What a session has to save is its join line, a line for each record that it
has read and, once it has read the end of the connection, its leave line. The
lines of one session in `chatlog.txt` are always the first lines of this
sequence, complete and in this order, so the file is an interleaving of them.
-/

namespace LinuxFff.ChatHistory

open LinuxFff.CString LinuxFff.StepSystem LinuxFff.TlsHistory
open LinuxFff.TlsServer

set_option autoImplicit false

def Notice.line (username : Bytes) : Notice → Bytes
  | .joined => ascii "[SERVER]: " ++ username ++ ascii " joined the chat\n"
  | .said buffer => username ++ ascii ": " ++ cstr buffer
  | .left => ascii "[SERVER]: " ++ username ++ ascii " left the chat\n"

def heard (session : Nat) : Action → Option Bytes
  | .receive other (some record) => if other = session then some record else none
  | _ => none

def closing (session : Nat) : Action → Bool
  | .receive other none => decide (other = session)
  | _ => false

def records (session : Nat) (actions : List Action) : List Bytes :=
  actions.filterMap (heard session)

def closed (session : Nat) (actions : List Action) : Bool := actions.any (closing session)

/-- The lines that a session has to save by now. -/
def sequence (username : Bytes) (records : List Bytes) (closed : Bool) : List Bytes :=
  Notice.line username .joined :: records.map (fun record => Notice.line username (.said record)) ++
    if closed then [Notice.line username .left] else []

def linesOf (session : Nat) (chatlog : List Message) : List Bytes :=
  (chatlog.filter fun message => message.author = session).map Message.text

/-- Usernames of at most 49 bytes, records of at most 1023. -/
def Fits : Action → Prop
  | .authenticate _ (some name) => (cstr name).length ≤ 49
  | .receive _ (some record) => record.length ≤ 1023
  | _ => True

instance (action : Action) : Decidable (Fits action) :=
  match action with
  | .authenticate _ (some _) => inferInstanceAs (Decidable (_ ≤ _))
  | .receive _ (some _) => inferInstanceAs (Decidable (_ ≤ _))
  | .authenticate _ none => isTrue trivial
  | .receive _ none => isTrue trivial
  | .accept _ _ => isTrue trivial
  | .handshake _ _ => isTrue trivial
  | .proceed _ => isTrue trivial

structure Faithful (actions : List Action) (state : State) : Prop where
  noNul : (0 : Byte) ∉ logFile state.chatlog
  once : state.chatlog.Nodup
  authors : ∀ message ∈ state.chatlog, state.sessions message.author ≠ none
  lines : ∀ session found, state.sessions session = some found →
    linesOf session state.chatlog <+:
      sequence found.username (records session actions) (closed session actions)
  replays : (replayWrites (logFile state.chatlog)).flatten = logFile state.chatlog

/-- What the phase says has still to be saved. -/
def Phase.pending (username : Bytes) : Phase → List Bytes
  | .adding => [Notice.joined.text username]
  | .broadcasting notice => [notice.text username]
  | .saving message => [message.text]
  | _ => []

/-- How far a session has come, against the lines written, the records read
and the end of the connection. -/
structure Progress (session : Nat) (found : Session) (written records : List Bytes)
    (closed : Bool) : Prop where
  short : found.username.length ≤ 49
  author : ∀ message, found.phase = .saving message → message.author = session
  early : found.phase.rank ≤ 1 → written = [] ∧ records = [] ∧ closed = false
  going : 2 ≤ found.phase.rank → found.phase.rank ≤ 9 →
    written ++ Phase.pending found.username found.phase =
      sequence found.username records closed ∧ (closed = true ↔ 7 ≤ found.phase.rank)
  ended : 10 ≤ found.phase.rank →
    written = [] ∨ written = sequence found.username records closed

structure History (past : List Action) (state : State) : Prop where
  unborn : ∀ session, state.sessions session = none →
    linesOf session state.chatlog = [] ∧ records session past = [] ∧ closed session past = false
  started : ∀ session found, state.sessions session = some found →
    Progress session found (linesOf session state.chatlog) (records session past)
      (closed session past)

theorem history_initial : History [] initial where
  unborn := fun _ _ => ⟨rfl, rfl, rfl⟩
  started := by
    intro session found lookup
    cases lookup

theorem records_snoc (session : Nat) (past : List Action) (action : Action) :
    records session (past ++ [action]) = records session past ++ (heard session action).toList := by
  cases read : heard session action <;> simp [records, List.filterMap_append, read]

theorem closed_snoc (session : Nat) (past : List Action) (action : Action) :
    closed session (past ++ [action]) = (closed session past || closing session action) := by
  simp [closed]

theorem nothing_heard_elsewhere {session : Nat} {action : Action}
    (apart : action.session ≠ session) :
    heard session action = none ∧ closing session action = false := by
  cases action with
  | receive other record =>
      have different : other ≠ session := apart
      cases record <;> simp [heard, closing, different]
  | _ => exact ⟨rfl, rfl⟩

theorem text_complete {username : Bytes} (short : username.length ≤ 49) (notice : Notice)
    (fits : ∀ record, notice = .said record → record.length ≤ 1023) :
    notice.text username = Notice.line username notice := by
  have server : (ascii "[SERVER]: ").length = 10 := by decide
  have joined : (ascii " joined the chat\n").length = 17 := by decide
  have left : (ascii " left the chat\n").length = 15 := by decide
  have colon : (ascii ": ").length = 2 := by decide
  cases notice with
  | joined =>
      apply List.take_of_length_le
      simp only [List.length_append, server, joined]
      omega
  | said record =>
      have small := fits record rfl
      have shorter : (cstr record).length ≤ record.length := (List.takeWhile_sublist _).length_le
      apply List.take_of_length_le
      simp only [List.length_append, colon]
      omega
  | left =>
      apply List.take_of_length_le
      simp only [List.length_append, server, left]
      omega

theorem Progress.onward {session : Nat} {found : Session} {written later records : List Bytes}
    {closed : Bool} {phase : Phase} {sent : Nat}
    (progress : Progress session found written records closed)
    (from' : 2 ≤ found.phase.rank ∧ found.phase.rank ≤ 9)
    (onto : 2 ≤ phase.rank ∧ phase.rank ≤ 9)
    (leaves : 7 ≤ found.phase.rank ↔ 7 ≤ phase.rank)
    (lines : later ++ Phase.pending found.username phase =
      written ++ Phase.pending found.username found.phase)
    (author : ∀ message, phase = .saving message → message.author = session) :
    Progress session { found with phase, sent } later records closed where
  short := progress.short
  author := author
  early := by
    intro early
    have low := onto.1
    change phase.rank ≤ 1 at early
    omega
  going := by
    obtain ⟨whole, closes⟩ := progress.going from'.1 from'.2
    intro _ _
    exact ⟨lines.trans whole, closes.trans leaves⟩
  ended := by
    intro late
    have high := onto.2
    change 10 ≤ phase.rank at late
    omega

theorem Progress.finished {session : Nat} {found : Session} {written records : List Bytes}
    {closed : Bool} {phase : Phase} (short : found.username.length ≤ 49)
    (late : 10 ≤ phase.rank)
    (done : written = [] ∨ written = sequence found.username records closed) :
    Progress session { found with phase } written records closed where
  short := short
  author := by
    intro message saving
    change phase = .saving message at saving
    subst saving
    rcases message with ⟨author, seq, notice, text, sender⟩
    cases notice <;> simp [Phase.rank] at late
  early := by
    intro early
    change phase.rank ≤ 1 at early
    omega
  going := by
    intro _ high
    change phase.rank ≤ 9 at high
    omega
  ended := fun _ => done

theorem Progress.saved {session : Nat} {found : Session} {written records : List Bytes}
    {closed : Bool} {message : Message} (progress : Progress session found written records closed)
    (saves : found.phase = .saving message) :
    Progress session { found with phase := message.notice.next } (written ++ [message.text])
      records closed := by
  refine progress.onward ?_ ?_ ?_ ?_ ?_
  · rw [saves]
    rcases message with ⟨_, _, notice, _, _⟩
    cases notice <;> simp [Phase.rank]
  · cases message.notice <;> simp [Notice.next, Phase.rank]
  · rw [saves]
    rcases message with ⟨_, _, notice, _, _⟩
    cases notice <;> simp [Notice.next, Phase.rank]
  · cases message.notice <;> simp [saves, Notice.next, Phase.pending]
  · intro other saving
    cases notice : message.notice <;> simp [notice, Notice.next] at saving

section Step

variable {past : List Action} {state next : State} {action : Action} {found moved : Session}

/-- A step of one session, when it leaves the lines of the others alone. -/
theorem History.move (holds : History past state)
    (sessions : next.sessions = Function.update state.sessions action.session (some moved))
    (lines : ∀ other, other ≠ action.session →
      linesOf other next.chatlog = linesOf other state.chatlog)
    (progress : Progress action.session moved (linesOf action.session next.chatlog)
      (records action.session (past ++ [action])) (closed action.session (past ++ [action]))) :
    History (past ++ [action]) next := by
  have others : ∀ other, other ≠ action.session →
      records other (past ++ [action]) = records other past ∧
        closed other (past ++ [action]) = closed other past := by
    intro other apart
    obtain ⟨silent, open'⟩ := nothing_heard_elsewhere (Ne.symm apart)
    rw [records_snoc, closed_snoc, silent, open']
    simp
  constructor
  case unborn =>
    intro other lookup
    have apart : other ≠ action.session := by
      intro same
      rw [sessions, same, Function.update_self] at lookup
      cases lookup
    rw [sessions, Function.update_of_ne apart] at lookup
    rw [lines other apart, (others other apart).1, (others other apart).2]
    exact holds.unborn other lookup
  case started =>
    intro other result lookup
    by_cases same : other = action.session
    · rw [sessions, same, Function.update_self] at lookup
      cases lookup
      rw [same]
      exact progress
    · rw [sessions, Function.update_of_ne same] at lookup
      rw [lines other same, (others other same).1, (others other same).2]
      exact holds.started other result lookup

theorem History.quiet (holds : History past state)
    (sessions : next.sessions = Function.update state.sessions action.session (some moved))
    (chatlog : next.chatlog = state.chatlog) (silent : heard action.session action = none)
    (stays : closing action.session action = false)
    (progress : Progress action.session moved (linesOf action.session state.chatlog)
      (records action.session past) (closed action.session past)) :
    History (past ++ [action]) next := by
  apply holds.move sessions
  · intro other _
    rw [chatlog]
  · rw [records_snoc, closed_snoc, silent, stays, chatlog]
    simpa using progress

theorem History.proceed (holds : History past state) {session : Nat}
    (here : action = .proceed session) (lookup : state.sessions session = some found)
    (stepped : TlsServer.proceed state session found = some next) :
    History (past ++ [action]) next := by
  subst here
  have progress := holds.started session found lookup
  unfold TlsServer.proceed at stepped
  split at stepped
  case h_1 adds =>
    cases stepped
    have moved : Progress session { found with phase := .broadcasting .joined }
        (linesOf session state.chatlog) (records session past) (closed session past) := by
      apply progress.onward <;> simp [adds, Phase.rank, Phase.pending]
    obtain ⟨clients, event, _, same⟩ := add_client_cases state session found
    rw [same]
    exact holds.quiet rfl rfl rfl rfl moved
  case h_2 notice speaks =>
    cases stepped
    refine holds.quiet rfl rfl rfl rfl (progress.onward ?_ ?_ ?_ ?_ ?_)
    · cases notice <;> simp [speaks, Phase.rank]
    · cases notice <;> simp [Session.message, Phase.rank]
    · cases notice <;> simp [speaks, Session.message, Phase.rank]
    · simp [speaks, Phase.pending, Session.message, Action.session]
    · intro message saving
      cases saving
      rfl
  case h_3 message saves =>
    cases stepped
    have author : message.author = session := progress.author message saves
    apply holds.move rfl
    · intro other apart
      have different : ¬message.author = other := fun same => apart (same.symm.trans author)
      simp [linesOf, State.move, State.saveChatLog, List.filter_append, different]
    · have grown : linesOf session (state.chatlog ++ [message]) =
          linesOf session state.chatlog ++ [message.text] := by
        simp [linesOf, List.filter_append, author]
      rw [records_snoc, closed_snoc]
      simp only [heard, closing, Option.toList_none, List.append_nil, Bool.or_false]
      change Progress session _ (linesOf session (state.chatlog ++ [message])) _ _
      rw [grown]
      exact progress.saved saves
  case h_4 replays =>
    cases stepped
    refine holds.quiet rfl rfl rfl rfl (progress.onward ?_ ?_ ?_ ?_ ?_) <;>
      simp [replays, Phase.rank, Phase.pending, Action.session]
  case h_5 removes =>
    cases stepped
    have low : 2 ≤ found.phase.rank ∧ found.phase.rank ≤ 9 := by simp [removes, Phase.rank]
    obtain ⟨whole, _⟩ := progress.going low.1 low.2
    have nothing : Phase.pending found.username found.phase = [] := by
      simp [removes, Phase.pending]
    rw [nothing, List.append_nil] at whole
    exact holds.quiet rfl rfl rfl rfl
      (Progress.finished progress.short (by simp [Phase.rank]) (Or.inr whole))
  case h_6 frees =>
    cases stepped
    have done := progress.ended (by simp [frees, Phase.rank])
    exact holds.quiet rfl rfl rfl rfl (Progress.finished progress.short (by simp [Phase.rank]) done)
  case h_7 => cases stepped

theorem Progress.start {session : Nat} {found : Session} {written records : List Bytes}
    {closed : Bool} (short : found.username.length ≤ 49) (low : found.phase.rank ≤ 1)
    (nothing : written = [] ∧ records = [] ∧ closed = false) :
    Progress session found written records closed where
  short := short
  author := by
    intro message saving
    rw [saving] at low
    rcases message with ⟨author, seq, notice, text, sender⟩
    cases notice <;> simp [Phase.rank] at low
  early := fun _ => nothing
  going := by
    intro high
    omega
  ended := by
    intro late
    omega

theorem Progress.admit {session : Nat} {found : Session} {name : Bytes}
    (short : (cstr name).length ≤ 49) :
    Progress session { found with username := (cstr name).take 50, phase := .adding }
      [] [] false where
  short := (List.length_take_le' _ _).trans short
  author := by simp
  early := by simp [Phase.rank]
  going := by
    have whole : (cstr name).take 50 = cstr name := List.take_of_length_le (by omega)
    intro _ _
    simp only [Phase.pending, whole, text_complete short .joined (by simp)]
    simp [sequence, Phase.rank]
  ended := by simp [Phase.rank]

theorem Progress.reading {session : Nat} {found : Session} {written records : List Bytes}
    {closed : Bool} (progress : Progress session found written records closed)
    (here : found.phase = .reading) :
    closed = false ∧ written = sequence found.username records false := by
  obtain ⟨whole, closes⟩ :=
    progress.going (by simp [here, Phase.rank]) (by simp [here, Phase.rank])
  have open' : closed = false := by
    cases closed with
    | false => rfl
    | true => simp [here, Phase.rank] at closes
  have nothing : Phase.pending found.username found.phase = [] := by simp [here, Phase.pending]
  rw [nothing, List.append_nil, open'] at whole
  exact ⟨open', whole⟩

theorem Progress.hear {session : Nat} {found : Session} {written records : List Bytes}
    {closed : Bool} {record : Bytes} (progress : Progress session found written records closed)
    (here : found.phase = .reading) (fits : record.length ≤ 1023) :
    Progress session { found with phase := .broadcasting (.said record) } written
      (records ++ [record]) closed where
  short := progress.short
  author := by simp
  early := by simp [Phase.rank]
  going := by
    obtain ⟨open', whole⟩ := progress.reading here
    subst open'
    intro _ _
    have complete := text_complete progress.short (.said record) (by simpa using fits)
    simp only [Phase.pending, complete, whole]
    simp [sequence, Phase.rank]
  ended := by simp [Phase.rank]

theorem Progress.close {session : Nat} {found : Session} {written records : List Bytes}
    {closed : Bool} (progress : Progress session found written records closed)
    (here : found.phase = .reading) :
    Progress session { found with phase := .broadcasting .left } written records true where
  short := progress.short
  author := by simp
  early := by simp [Phase.rank]
  going := by
    obtain ⟨open', whole⟩ := progress.reading here
    subst open'
    intro _ _
    simp only [Phase.pending, text_complete progress.short .left (by simp), whole]
    simp [sequence, Phase.rank]
  ended := by simp [Phase.rank]

theorem history_step (holds : History past state) (fits : Fits action)
    (stepped : step state action = some next) : History (past ++ [action]) next := by
  cases action with
  | accept session ssl =>
      obtain ⟨unborn, _, _, same⟩ := accept_cases stepped
      subst same
      exact holds.quiet rfl rfl rfl rfl
        (Progress.start (by simp) (by simp [Phase.rank]) (holds.unborn session unborn))
  | handshake session success =>
      obtain ⟨found, lookup, here, ⟨_, same⟩ | ⟨_, same⟩⟩ := handshake_cases stepped
      · subst same
        have progress := holds.started session found lookup
        have nothing := progress.early (by simp [here, Phase.rank])
        have moved : Progress session { found with phase := .authenticating }
            (linesOf session state.chatlog) (records session past) (closed session past) :=
          Progress.start progress.short (by simp [Phase.rank]) nothing
        exact holds.quiet rfl rfl rfl rfl moved
      · subst same
        have progress := holds.started session found lookup
        have nothing := progress.early (by simp [here, Phase.rank])
        exact holds.quiet rfl rfl rfl rfl
          (Progress.finished progress.short (by simp [Phase.rank]) (Or.inl nothing.1))
  | authenticate session result =>
      obtain ⟨found, lookup, here, outcome⟩ := authenticate_cases stepped
      have progress := holds.started session found lookup
      have nothing := progress.early (by simp [here, Phase.rank])
      rcases outcome with ⟨_, same⟩ | ⟨name, admits, same⟩
      · subst same
        exact holds.quiet rfl rfl rfl rfl
          (Progress.finished progress.short (by simp [Phase.rank]) (Or.inl nothing.1))
      · subst same admits
        have short : (cstr name).length ≤ 49 := fits
        have moved : Progress session
            { found with username := (cstr name).take 50, phase := .adding }
            (linesOf session state.chatlog) (records session past) (closed session past) := by
          rw [nothing.1, nothing.2.1, nothing.2.2]
          exact Progress.admit short
        exact holds.quiet rfl rfl rfl rfl moved
  | receive session record =>
      obtain ⟨found, lookup, here, outcome⟩ := receive_cases stepped
      have progress := holds.started session found lookup
      rcases outcome with ⟨closes, same⟩ | ⟨buffer, reads, same⟩
      · subst same closes
        have moved : Progress session { found with phase := .broadcasting .left }
            (linesOf session state.chatlog) (records session (past ++ [.receive session none]))
            (closed session (past ++ [.receive session none])) := by
          rw [records_snoc, closed_snoc]
          simpa [heard, closing] using progress.close here
        exact holds.move rfl (fun _ _ => rfl) moved
      · subst same reads
        have moved : Progress session { found with phase := .broadcasting (.said buffer) }
            (linesOf session state.chatlog)
            (records session (past ++ [.receive session (some buffer)]))
            (closed session (past ++ [.receive session (some buffer)])) := by
          rw [records_snoc, closed_snoc]
          simpa [heard, closing] using progress.hear here fits
        exact holds.move rfl (fun _ _ => rfl) moved
  | proceed session =>
      obtain ⟨found, lookup, proceeded⟩ := proceed_cases stepped
      exact holds.proceed rfl lookup proceeded

end Step

/-- In every interleaving, the log consists of the first lines that each
session has to save, and a replay writes the log. -/
theorem chat_log_faithful (actions : List Action) (final : State)
    (fits : ∀ action ∈ actions, Fits action) (ran : run step initial actions = some final) :
    Faithful actions final := by
  have recorded : Recorded final := recorded_run ran
  have clean : NulFree final := run_keeps_always
    (fun _ _ _ before stepped => nul_free_step before stepped) nul_free_initial ran
  have history : History ([] ++ actions) final := run_keeps_past
    (fun _ _ _ _ holds allowed stepped => history_step holds allowed stepped)
    history_initial fits ran
  rw [List.nil_append] at history
  constructor
  case noNul =>
    intro member
    obtain ⟨message, saved, inside⟩ := List.mem_flatMap.mp member
    exact clean.log message saved inside
  case once => exact recorded.logOnce
  case authors =>
    intro message saved
    obtain ⟨found, lookup, _⟩ := recorded.accounted _ ((recorded.logged message).mp saved)
    change final.sessions message.author = some found at lookup
    simp [lookup]
  case lines =>
    intro session found lookup
    have progress := history.started session found lookup
    by_cases early : found.phase.rank ≤ 1
    · rw [(progress.early early).1]
      exact List.nil_prefix
    · by_cases going : found.phase.rank ≤ 9
      · rw [← (progress.going (by omega) going).1]
        exact List.prefix_append _ _
      · rcases progress.ended (by omega) with nothing | whole
        · rw [nothing]
          exact List.nil_prefix
        · rw [whole]
  case replays => exact send_chat_log_writes_messages ran

/-- Two sessions whose saves interleave; the first one leaves. -/
def twoSessions : List Action :=
  [.accept 0 1, .handshake 0 true, .authenticate 0 (some (ascii "al")),
    .accept 1 2, .handshake 1 true, .authenticate 1 (some (ascii "bo")),
    .proceed 0, .proceed 1, .proceed 0, .proceed 1, .proceed 1, .proceed 0, .proceed 0,
    .receive 0 (some (ascii "hi")), .proceed 0, .proceed 0, .receive 0 none, .proceed 0, .proceed 0]

theorem chat_log_of_two_sessions :
    ∃ final, run step initial twoSessions = some final ∧
      logFile final.chatlog = ascii ("[SERVER]: bo joined the chat\n" ++
        "[SERVER]: al joined the chat\n" ++ "al: hi" ++ "[SERVER]: al left the chat\n") ∧
      Faithful twoSessions final :=
  ⟨_, rfl, by decide, chat_log_faithful twoSessions _ (by decide) rfl⟩

end LinuxFff.ChatHistory
