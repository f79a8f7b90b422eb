import LinuxFff.StreamOrder

/-!
# Who says what in `server_tls_final.c`

A message is worded with the username of the session that sends it, and only a session that has
come out of `authenticate` with a username sends any, also when broadcasts are under way.
-/

namespace LinuxFff.MessageAuthors

open LinuxFff.BroadcastOrder LinuxFff.ClientTables LinuxFff.EventOrder LinuxFff.Roster
open LinuxFff.StepSystem
open LinuxFff.StreamOrder LinuxFff.TlsHistory LinuxFff.TlsServer

set_option autoImplicit false

/-- The session has a username from `authenticate`. -/
def Entered (found : Session) : Prop :=
  0 < found.sent ∨ 2 ≤ found.phase.rank ∧ found.phase.rank ≤ 9

/-- A message of a session, under the session's name. -/
def Says (found : Session) (message : Message) : Prop :=
  message.text = message.notice.text found.username

structure Worded (state : State) : Prop where
  said : ∀ message, Event.broadcast message ∈ state.history → ∃ found,
    state.sessions message.author = some found ∧ 0 < found.sent ∧ Says found message
  silent : ∀ session found, state.sessions session = some found → found.phase.rank < 3 →
    found.sent = 0

theorem worded_initial : Worded initial where
  said := by
    intro message impossible
    cases impossible
  silent := by
    intro session found impossible
    cases impossible

section Step

variable {state next : State} {session : Nat} {found moved : Session} {action : Action}

theorem Worded.move (worded : Worded state)
    (sessions : next.sessions = Function.update state.sessions session (some moved))
    (fresh : ∀ message ∈ broadcasts next.history, message ∈ broadcasts state.history ∨
      message.author = session ∧ 0 < moved.sent ∧ Says moved message)
    (kept : ∀ found, state.sessions session = some found → 0 < found.sent →
      found.sent ≤ moved.sent ∧ moved.username = found.username)
    (silent : moved.phase.rank < 3 → moved.sent = 0) : Worded next where
  said := by
    intro message member
    rw [sessions]
    rcases fresh message (mem_broadcasts.mpr member) with old | ⟨own, sent, spoken⟩
    · obtain ⟨found, lookup, sent, spoken⟩ := worded.said message (mem_broadcasts.mp old)
      by_cases own : message.author = session
      · rw [own] at lookup
        obtain ⟨more, username⟩ := kept found lookup sent
        refine ⟨moved, by rw [own, Function.update_self], Nat.lt_of_lt_of_le sent more, ?_⟩
        rw [Says, username]
        exact spoken
      · refine ⟨found, ?_, sent, spoken⟩
        rw [Function.update_of_ne own]
        exact lookup
    · exact ⟨moved, by rw [own, Function.update_self], sent, spoken⟩
  silent := forall_update worded.silent sessions silent

theorem keeps_of_lookup (lookup : state.sessions session = some found)
    (sent : found.sent ≤ moved.sent) (username : moved.username = found.username) :
    ∀ other, state.sessions session = some other → 0 < other.sent →
      other.sent ≤ moved.sent ∧ moved.username = other.username := by
  intro other otherLookup _
  rw [lookup] at otherLookup
  cases otherLookup
  exact ⟨sent, username⟩

theorem Worded.advance (worded : Worded state) (phase : Phase)
    (lookup : state.sessions session = some found)
    (sessions : next.sessions = Function.update state.sessions session (some { found with phase }))
    (same : broadcasts next.history = broadcasts state.history)
    (silent : phase.rank < 3 → found.phase.rank < 3) : Worded next := by
  refine worded.move sessions ?_ (keeps_of_lookup lookup (Nat.le_refl _) rfl) ?_
  · intro message member
    rw [same] at member
    exact Or.inl member
  · exact fun early => worded.silent session found lookup (silent early)

theorem worded_broadcast {notice : Notice} (worded : Worded state)
    (lookup : state.sessions session = some found) :
    Worded ((state.broadcast (found.message session notice)).move session
      { found with phase := .saving (found.message session notice), sent := found.sent + 1 }) := by
  refine worded.move rfl ?_ (keeps_of_lookup lookup (Nat.le_succ _) rfl) ?_
  · intro message member
    change message ∈ broadcasts (state.history ++ [.broadcast (found.message session notice)])
      at member
    rw [broadcasts_snoc] at member
    rcases List.mem_append.mp member with old | new
    · exact Or.inl old
    · have same : found.message session notice = message :=
        Option.some.inj (Option.mem_toList.mp new)
      rw [← same]
      exact Or.inr ⟨rfl, Nat.succ_pos _, rfl⟩
  · intro before
    obtain ⟨high, _, more, _⟩ := broadcasting_rank found session notice
    change (Phase.saving (found.message session notice)).rank < 3 at before
    omega

theorem worded_proceed (worded : Worded state) (lookup : state.sessions session = some found)
    (stepped : proceed state session found = some next) : Worded next := by
  unfold proceed at stepped
  split at stepped
  case h_1 here =>
    cases stepped
    obtain ⟨clients, event, kind, same⟩ := add_client_cases state session found
    have silent : Event.announced event = none := by
      rcases kind with rfl | rfl <;> rfl
    rw [same]
    exact worded.advance (.broadcasting .joined) lookup rfl (broadcasts_silent silent)
      (by simp [Phase.rank])
  case h_2 notice here =>
    cases stepped
    exact worded_broadcast worded lookup
  case h_3 message here =>
    cases stepped
    obtain ⟨later, _, high, _, _⟩ := next_rank message
    refine worded.advance message.notice.next lookup rfl (broadcasts_silent rfl) ?_
    omega
  case h_4 here =>
    cases stepped
    exact worded.advance .reading lookup rfl (broadcasts_silent rfl) (by simp [Phase.rank])
  case h_5 here =>
    cases stepped
    exact worded.advance .freeing lookup rfl (broadcasts_silent rfl) (by simp [Phase.rank])
  case h_6 here =>
    cases stepped
    exact worded.advance .ended lookup rfl rfl (by simp [Phase.rank])
  case h_7 => cases stepped

theorem worded_step (worded : Worded state) (stepped : step state action = some next) :
    Worded next := by
  cases action with
  | accept session ssl =>
      obtain ⟨unborn, _, _, rfl⟩ := accept_cases stepped
      refine worded.move rfl (fun _ => Or.inl) ?_ (fun _ => rfl)
      intro found lookup
      rw [unborn] at lookup
      cases lookup
  | handshake session success =>
      obtain ⟨found, lookup, here, ⟨_, rfl⟩ | ⟨_, rfl⟩⟩ := handshake_cases stepped
      · exact worded.advance .authenticating lookup rfl rfl (by simp [here, Phase.rank])
      · exact worded.advance .ended lookup rfl rfl (by simp [Phase.rank])
  | authenticate session result =>
      obtain ⟨found, lookup, here, ⟨_, rfl⟩ | ⟨name, _, rfl⟩⟩ := authenticate_cases stepped
      · exact worded.advance .freeing lookup rfl rfl (by simp [Phase.rank])
      · have none := worded.silent session found lookup (by simp [here, Phase.rank])
        refine worded.move rfl (fun _ => Or.inl) ?_ (fun _ => none)
        intro other otherLookup sent
        rw [lookup] at otherLookup
        cases otherLookup
        omega
  | receive session record =>
      obtain ⟨found, lookup, here, ⟨_, rfl⟩ | ⟨buffer, _, rfl⟩⟩ := receive_cases stepped
      · exact worded.advance (.broadcasting .left) lookup rfl rfl (by simp [Phase.rank])
      · exact worded.advance (.broadcasting (.said buffer)) lookup rfl rfl (by simp [Phase.rank])
  | proceed session =>
      obtain ⟨found, lookup, proceeded⟩ := proceed_cases stepped
      exact worded_proceed worded lookup proceeded

end Step

/-- What somebody gets to read: in the log, in a stream, or in a replay. -/
def Read (state : TlsThreads.State) (message : Message) : Prop :=
  message ∈ state.chatlog ∨
    ∃ reader, message ∈ state.live reader ∨ message ∈ state.replayed reader

/-- Everything that anybody gets to read is a message of a session that has come out of
`authenticate`, worded with the name that it has. -/
theorem said_by_entered {actions : List TlsThreads.Action} {state : TlsThreads.State}
    (ran : run TlsThreads.step TlsThreads.initial actions = some state) {message : Message}
    (read : Read state message) :
    ∃ found, state.sessions message.author = some found ∧ Entered found ∧ Says found message := by
  obtain ⟨chatActions, chat, chatRan, simulates⟩ := TlsThreads.simulated_run ran
  obtain ⟨members, registered⟩ := simulates.registered
  obtain ⟨earlier, writes, pending⟩ := simulates.pending
  have worded : Worded chat :=
    run_keeps_always (fun _ _ _ holds stepped => worded_step holds stepped) worded_initial chatRan
  have sessions : state.sessions = chat.sessions := simulates.agree.sessions
  rw [sessions]
  have sent : Event.broadcast message ∈ chat.history → ∃ found,
      chat.sessions message.author = some found ∧ Entered found ∧ Says found message := by
    intro member
    obtain ⟨found, lookup, sent, spoken⟩ := worded.said message member
    exact ⟨found, lookup, Or.inl sent, spoken⟩
  have saved : Event.saved message ∈ chat.history → ∃ found,
      chat.sessions message.author = some found ∧ Entered found ∧ Says found message :=
    fun member => sent (simulates.recorded.backed message member)
  rcases read with logged | ⟨reader, heard | again⟩
  · have chatlog : state.chatlog = chat.chatlog := simulates.agree.chatlog
    exact saved ((simulates.recorded.logged message).mp (chatlog ▸ logged))
  · have before : message ∈ chat.live reader → Event.broadcast message ∈ chat.history := by
      intro old
      have ordered := ordered_of_registered simulates.recorded registered simulates.numbered
      exact mem_broadcasts.mp ((ordered.heard reader).subset old)
    rw [pending.live] at heard
    rcases partly_sent simulates pending with none |
      ⟨session, found, notice, targets, lookup, here, _, same⟩
    · rw [none] at heard
      exact sent (before heard)
    · rw [same, TlsThreads.deliver_message, write_all_apply] at heard
      rcases List.mem_append.mp heard with old | new
      · exact sent (before old)
      · rw [List.eq_of_mem_replicate new]
        obtain ⟨low, high, _, _⟩ := broadcasting_rank found session notice
        exact ⟨found, lookup, Or.inr ⟨by rw [here]; omega, by rw [here]; omega⟩, rfl⟩
  · have replayed : state.replayed = chat.replayed := simulates.agree.replayed
    rw [replayed, simulates.recorded.replayed] at again
    exact saved again.mem_first

section Names

variable {chat next : TlsThreads.State} {session : Nat} {found : Session}

/-- A session with a name had it before. -/
def Named (sessions after : Nat → Option Session) : Prop :=
  ∀ session found, after session = some found → Entered found →
    ∃ before, sessions session = some before ∧ Entered before ∧ before.username = found.username

theorem named_refl (sessions : Nat → Option Session) : Named sessions sessions :=
  fun _ found lookup entered => ⟨found, lookup, entered, rfl⟩

theorem named_update {sessions after : Nat → Option Session} {moved : Session}
    (same : after = Function.update sessions session (some moved))
    (own : Entered moved → ∃ before, sessions session = some before ∧ Entered before ∧
      before.username = moved.username) : Named sessions after :=
  forall_update (named_refl sessions) same own

theorem named_advance {sessions after : Nat → Option Session} (phase : Phase) (sent : Nat)
    (lookup : sessions session = some found)
    (same : after = Function.update sessions session (some { found with phase, sent }))
    (ranked : 2 ≤ found.phase.rank ∧ found.phase.rank ≤ 9 ∨
      found.sent = sent ∧ (phase.rank < 2 ∨ 9 < phase.rank)) : Named sessions after := by
  apply named_update same
  intro entered
  refine ⟨found, lookup, ?_, rfl⟩
  rcases ranked with inside | ⟨kept, outside⟩
  · exact Or.inr inside
  · rcases entered with some | ⟨low, high⟩
    · exact Or.inl (kept ▸ some)
    · change 2 ≤ phase.rank at low
      change phase.rank ≤ 9 at high
      omega

theorem proceed_named {state after : TlsServer.State} (lookup : state.sessions session = some found)
    (stepped : proceed state session found = some after) : Named state.sessions after.sessions := by
  unfold proceed at stepped
  split at stepped
  case h_1 here =>
    cases stepped
    obtain ⟨clients, event, _, same⟩ := add_client_cases state session found
    rw [same]
    exact named_advance (.broadcasting .joined) found.sent lookup rfl
      (Or.inl (by simp [here, Phase.rank]))
  case h_2 notice here =>
    cases stepped
    obtain ⟨low, high, _, _⟩ := broadcasting_rank found session notice
    exact named_advance (.saving (found.message session notice)) (found.sent + 1) lookup rfl
      (Or.inl (by rw [here]; omega))
  case h_3 message here =>
    cases stepped
    obtain ⟨_, _, low, high, _⟩ := next_rank message
    exact named_advance message.notice.next found.sent lookup rfl (Or.inl (by rw [here]; omega))
  case h_4 here =>
    cases stepped
    exact named_advance .reading found.sent lookup rfl (Or.inl (by simp [here, Phase.rank]))
  case h_5 here =>
    cases stepped
    exact named_advance .freeing found.sent lookup rfl (Or.inr ⟨rfl, by simp [Phase.rank]⟩)
  case h_6 here =>
    cases stepped
    exact named_advance .ended found.sent lookup rfl (Or.inr ⟨rfl, by simp [Phase.rank]⟩)
  case h_7 => cases stepped

theorem step_named {state after : TlsServer.State} {action : Action}
    (other : ∀ session result, action ≠ .authenticate session result)
    (stepped : step state action = some after) : Named state.sessions after.sessions := by
  cases action with
  | accept session ssl =>
      obtain ⟨_, _, _, rfl⟩ := accept_cases stepped
      refine named_update rfl ?_
      rintro (sent | ⟨low, _⟩)
      · cases sent
      · simp [Phase.rank] at low
  | handshake session success =>
      obtain ⟨found, lookup, here, ⟨_, rfl⟩ | ⟨_, rfl⟩⟩ := handshake_cases stepped
      · exact named_advance .authenticating found.sent lookup rfl (Or.inr ⟨rfl, by simp [Phase.rank]⟩)
      · exact named_advance .ended found.sent lookup rfl (Or.inr ⟨rfl, by simp [Phase.rank]⟩)
  | authenticate session result => exact absurd rfl (other session result)
  | receive session record =>
      obtain ⟨found, lookup, here, ⟨_, rfl⟩ | ⟨buffer, _, rfl⟩⟩ := receive_cases stepped
      · exact named_advance (.broadcasting .left) found.sent lookup rfl
          (Or.inl (by simp [here, Phase.rank]))
      · exact named_advance (.broadcasting (.said buffer)) found.sent lookup rfl
          (Or.inl (by simp [here, Phase.rank]))
  | proceed session =>
      obtain ⟨found, lookup, proceeded⟩ := proceed_cases stepped
      exact proceed_named lookup proceeded

theorem threads_named {action : TlsThreads.Action}
    (other : ∀ session result, action ≠ .outside (.authenticate session result))
    (stepped : TlsThreads.step chat action = some next) : Named chat.sessions next.sessions := by
  cases TlsThreads.step_effect stepped with
  | outside chatAction after free chatStepped =>
      have apart : ∀ session result, chatAction ≠ .authenticate session result :=
        fun session result same => other session result (same ▸ rfl)
      exact @step_named chat.view _ _ apart chatStepped
  | unlock session found call result lookup leaves =>
      change Named chat.sessions
        (Function.update chat.sessions session (some (TlsThreads.returned session found)))
      unfold TlsThreads.returned
      split
      case h_1 here =>
        exact named_advance (.broadcasting .joined) found.sent lookup rfl
          (Or.inl (by simp [here, Phase.rank]))
      case h_2 notice here =>
        obtain ⟨low, high, _, _⟩ := broadcasting_rank found session notice
        exact named_advance (.saving (found.message session notice)) (found.sent + 1) lookup rfl
          (Or.inl (by rw [here]; omega))
      case h_3 here =>
        exact named_advance .freeing found.sent lookup rfl (Or.inr ⟨rfl, by simp [Phase.rank]⟩)
      case h_4 => exact named_update rfl fun entered => ⟨found, lookup, entered, rfl⟩
  | _ => exact named_refl chat.sessions

end Names

end LinuxFff.MessageAuthors
