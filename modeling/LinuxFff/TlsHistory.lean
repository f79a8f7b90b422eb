import LinuxFff.TlsServer

/-!
# What the history of `server_tls_final.c` records

Every event of the history is accounted for by the session that caused it: the
thread has passed that point of its program, and it will not come back to it.
So the history has no repetition, the chat log holds what was saved, and a
replay holds what was saved before it.
-/

namespace LinuxFff.TlsHistory

open LinuxFff.CString LinuxFff.ClientTables LinuxFff.EventOrder
open LinuxFff.StepSystem LinuxFff.TlsServer

set_option autoImplicit false

def Event.session : Event → Nat
  | .added session => session
  | .refused session => session
  | .broadcast message => message.author
  | .saved message => message.author
  | .replayed session => session
  | .removed session => session

/-- The thread has passed the point at which it caused the event. -/
def Accounts (found : Session) : Event → Prop
  | .added _ => 3 ≤ found.phase.rank
  | .refused _ => 3 ≤ found.phase.rank
  | .broadcast message => message.seq < found.sent ∧
      message.sender = message.notice.sender found.ssl
  | .saved message => message.seq < found.sent ∧ found.phase ≠ .saving message
  | .replayed _ => 6 ≤ found.phase.rank
  | .removed _ => 10 ≤ found.phase.rank

/-- How a session changes in one step. -/
structure Advance (found next : Session) : Prop where
  rank : found.phase.rank ≤ next.phase.rank
  sent : found.sent ≤ next.sent
  ssl : next.ssl = found.ssl
  fresh : ∀ message, next.phase = .saving message → found.sent ≤ message.seq

theorem accounts_advance {found next : Session} {event : Event}
    (advance : Advance found next) (accounts : Accounts found event) : Accounts next event := by
  have rank := advance.rank
  have sent := advance.sent
  cases event with
  | added session => exact Nat.le_trans accounts rank
  | refused session => exact Nat.le_trans accounts rank
  | replayed session => exact Nat.le_trans accounts rank
  | removed session => exact Nat.le_trans accounts rank
  | broadcast message =>
      constructor
      · exact Nat.lt_of_lt_of_le accounts.1 sent
      · rw [advance.ssl]
        exact accounts.2
  | saved message =>
      constructor
      · exact Nat.lt_of_lt_of_le accounts.1 sent
      · intro saving
        have later := advance.fresh message saving
        have earlier := accounts.1
        omega

structure Placed (history : List Event) (session : Nat) (found : Session) : Prop where
  pending : ∀ message, found.phase = .saving message →
    message.author = session ∧ message.seq < found.sent ∧ Event.broadcast message ∈ history
  entered : found.phase.Active →
    Event.added session ∈ history ∨ Event.refused session ∈ history
  caughtUp : found.phase.Chatting → Event.replayed session ∈ history

theorem Placed.grow {history : List Event} {session : Nat} {found : Session}
    (placed : Placed history session found) (event : Event) :
    Placed (history ++ [event]) session found where
  pending := by
    intro message saving
    obtain ⟨author, seq, member⟩ := placed.pending message saving
    exact ⟨author, seq, List.mem_append_left _ member⟩
  entered := fun active =>
    (placed.entered active).imp (List.mem_append_left _) (List.mem_append_left _)
  caughtUp := fun chatting => List.mem_append_left _ (placed.caughtUp chatting)

structure Recorded (state : State) : Prop where
  distinct : state.history.Nodup
  accounted : ∀ event ∈ state.history, ∃ found,
    state.sessions (Event.session event) = some found ∧ Accounts found event
  placed : ∀ session found, state.sessions session = some found →
    Placed state.history session found
  backed : ∀ message, Event.saved message ∈ state.history →
    Event.broadcast message ∈ state.history
  logged : ∀ message, message ∈ state.chatlog ↔ Event.saved message ∈ state.history
  logOnce : state.chatlog.Nodup
  replayed : ∀ session message, message ∈ state.replayed session ↔
    Before (Event.saved message) (Event.replayed session) state.history
  replayedOnce : ∀ session, (state.replayed session).Nodup

theorem recorded_initial : Recorded initial where
  distinct := List.nodup_nil
  accounted := by
    intro event member
    cases member
  placed := by
    intro session found lookup
    cases lookup
  backed := by
    intro message member
    cases member
  logged := by
    intro message
    simp [initial]
  logOnce := List.nodup_nil
  replayed := by
    intro session message
    simp [initial, not_before_nil]
  replayedOnce := fun _ => List.nodup_nil

section Grow

variable {state next : State} {session : Nat} {found moved : Session}

theorem accounted_update {history : List Event}
    (accounted : ∀ event ∈ history, ∃ found,
      state.sessions (Event.session event) = some found ∧ Accounts found event)
    (lookup : state.sessions session = some found)
    (sessions : next.sessions = Function.update state.sessions session (some moved))
    (advance : Advance found moved) :
    ∀ event ∈ history, ∃ found,
      next.sessions (Event.session event) = some found ∧ Accounts found event := by
  intro event member
  obtain ⟨owner, ownerLookup, accounts⟩ := accounted event member
  rw [sessions]
  by_cases same : Event.session event = session
  · rw [same, lookup] at ownerLookup
    cases ownerLookup
    refine ⟨moved, ?_, accounts_advance advance accounts⟩
    rw [same, Function.update_self]
  · refine ⟨owner, ?_, accounts⟩
    rw [Function.update_of_ne same]
    exact ownerLookup

structure Silent (state next : State) (session : Nat) (moved : Session) : Prop where
  sessions : next.sessions = Function.update state.sessions session (some moved) := by rfl
  history : next.history = state.history := by rfl
  chatlog : next.chatlog = state.chatlog := by rfl
  replays : next.replayed = state.replayed := by rfl

theorem recorded_silent (holds : Recorded state) (moved : Session)
    (silent : Silent state next session moved)
    (accounted : ∀ event ∈ state.history, ∃ found,
      next.sessions (Event.session event) = some found ∧ Accounts found event)
    (placed : Placed state.history session moved) : Recorded next where
  distinct := by
    rw [silent.history]
    exact holds.distinct
  accounted := by
    rw [silent.history]
    exact accounted
  placed := by
    rw [silent.history]
    exact forall_update holds.placed silent.sessions placed
  backed := by
    rw [silent.history]
    exact holds.backed
  logged := by
    rw [silent.history, silent.chatlog]
    exact holds.logged
  logOnce := by
    rw [silent.chatlog]
    exact holds.logOnce
  replayed := by
    rw [silent.history, silent.replays]
    exact holds.replayed
  replayedOnce := by
    rw [silent.replays]
    exact holds.replayedOnce

def Event.saves : Event → List Message
  | .saved message => [message]
  | _ => []

def Event.replays (chatlog : List Message) (replayed : Nat → List Message) :
    Event → Nat → List Message
  | .replayed session => Function.update replayed session chatlog
  | _ => replayed

/-- A step that moves one session and records one new event. -/
structure Records (state next : State) (session : Nat) (found moved : Session) (event : Event) :
    Prop where
  lookup : state.sessions session = some found
  sessions : next.sessions = Function.update state.sessions session (some moved) := by rfl
  history : next.history = state.history ++ [event] := by rfl
  chatlog : next.chatlog = state.chatlog ++ Event.saves event := by
    exact (List.append_nil _).symm
  replays : next.replayed = Event.replays state.chatlog state.replayed event := by rfl
  own : Event.session event = session := by rfl
  fresh : event ∉ state.history
  advance : Advance found moved
  accounts : Accounts moved event
  placed : Placed (state.history ++ [event]) session moved
  backed : ∀ message, event = .saved message →
    Event.broadcast message ∈ state.history := by simp

theorem recorded_event {event : Event} (holds : Recorded state)
    (records : Records state next session found moved event) : Recorded next where
  distinct := by
    rw [records.history, ← List.concat_eq_append]
    exact holds.distinct.concat records.fresh
  accounted := by
    rw [records.history]
    intro other member
    rcases List.mem_append.mp member with old | new
    · exact accounted_update holds.accounted records.lookup records.sessions records.advance
        other old
    · rw [List.mem_singleton.mp new, records.own, records.sessions, Function.update_self]
      exact ⟨moved, rfl, records.accounts⟩
  placed := by
    rw [records.history]
    refine forall_update ?_ records.sessions records.placed
    intro other result otherLookup
    exact (holds.placed other result otherLookup).grow event
  backed := by
    rw [records.history]
    intro message member
    apply List.mem_append_left
    rcases List.mem_append.mp member with old | new
    · exact holds.backed message old
    · exact records.backed message (List.mem_singleton.mp new).symm
  logged := by
    rw [records.history, records.chatlog]
    intro message
    rw [List.mem_append, List.mem_append, holds.logged, List.mem_singleton]
    apply or_congr_right
    cases event <;> simp [Event.saves]
  logOnce := by
    rw [records.chatlog]
    cases event with
    | saved message =>
        rw [Event.saves, ← List.concat_eq_append]
        apply holds.logOnce.concat
        exact fun member => records.fresh ((holds.logged message).mp member)
    | _ => simpa [Event.saves] using holds.logOnce
  replayed := by
    rw [records.history, records.replays]
    intro other message
    rw [before_snoc, ← holds.replayed, ← holds.logged]
    cases event with
    | replayed reader =>
        rw [Event.replays]
        by_cases same : other = reader
        · subst same
          rw [Function.update_self]
          have nothing : message ∉ state.replayed other := by
            intro member
            exact records.fresh ((holds.replayed other message).mp member).mem_second
          simp [nothing]
        · rw [Function.update_of_ne same]
          simp [same]
    | _ => simp [Event.replays]
  replayedOnce := by
    rw [records.replays]
    intro other
    cases event with
    | replayed reader =>
        rw [Event.replays]
        by_cases same : other = reader
        · rw [same, Function.update_self]
          exact holds.logOnce
        · rw [Function.update_of_ne same]
          exact holds.replayedOnce other
    | _ => exact holds.replayedOnce other

end Grow

theorem advance_of_rank {found moved : Session} (rank : found.phase.rank ≤ moved.phase.rank)
    (sent : moved.sent = found.sent) (ssl : moved.ssl = found.ssl)
    (notSaving : ∀ message, moved.phase ≠ .saving message) : Advance found moved where
  rank := rank
  sent := Nat.le_of_eq sent.symm
  ssl := ssl
  fresh := fun message saving => absurd saving (notSaving message)

theorem not_account {state : State} (holds : Recorded state) {session : Nat} {found : Session}
    {event : Event} (lookup : state.sessions session = some found)
    (own : Event.session event = session) (unaccounted : ¬Accounts found event) :
    event ∉ state.history := by
  intro member
  obtain ⟨owner, ownerLookup, accounts⟩ := holds.accounted event member
  rw [own, lookup] at ownerLookup
  cases ownerLookup
  exact unaccounted accounts

theorem quiet_rank {before after : Phase} (moved : Quiet before after) :
    before.rank ≤ after.rank ∧ (∀ message, after ≠ .saving message) ∧
      (after.Active → before.Active) ∧ (after.Chatting → before.Chatting) := by
  cases moved <;> simp [Phase.rank, Phase.Active, Phase.Chatting]

theorem next_rank (message : Message) :
    (Phase.saving message).rank ≤ message.notice.next.rank ∧
      (∀ other, message.notice.next ≠ .saving other) ∧ 3 ≤ (Phase.saving message).rank ∧
      (Phase.saving message).rank ≤ 9 ∧
      (message.notice.next.Chatting → (Phase.saving message).Chatting) := by
  rcases message with ⟨author, seq, notice, text, sender⟩
  cases notice <;> simp [Phase.rank, Notice.next, Phase.Chatting]

theorem broadcasting_rank (found : Session) (session : Nat) (notice : Notice) :
    3 ≤ (Phase.broadcasting notice).rank ∧ (Phase.broadcasting notice).rank ≤ 9 ∧
      (Phase.broadcasting notice).rank ≤ (Phase.saving (found.message session notice)).rank ∧
      ((Phase.saving (found.message session notice)).Chatting →
        (Phase.broadcasting notice).Chatting) := by
  cases notice <;> simp [Phase.rank, Session.message, Phase.Chatting]

theorem effect_sessions {state next : State} {session : Nat}
    (effect : Effect state session next) :
    ∃ moved, next.sessions = Function.update state.sessions session (some moved) ∧
      ∀ found, state.sessions session = some found →
        found.phase.rank ≤ moved.phase.rank ∧ moved.ssl = found.ssl := by
  have only : ∀ {before moved : Session}, state.sessions session = some before →
      before.phase.rank ≤ moved.phase.rank → moved.ssl = before.ssl →
      ∀ found, state.sessions session = some found →
        found.phase.rank ≤ moved.phase.rank ∧ moved.ssl = found.ssl := by
    intro before moved lookup rank ssl found other
    rw [lookup] at other
    cases other
    exact ⟨rank, ssl⟩
  cases effect with
  | accept ssl unborn nonNull unused =>
      refine ⟨_, rfl, ?_⟩
      intro found lookup
      rw [unborn] at lookup
      cases lookup
  | quiet found username phase accepting lookup moves named =>
      exact ⟨_, rfl, only lookup (quiet_rank moves).1 rfl⟩
  | add found lookup here =>
      have rank : found.phase.rank ≤ (Phase.broadcasting .joined).rank := by
        simp [here, Phase.rank]
      obtain ⟨clients, event, _, same⟩ := add_client_cases state session found
      rw [same]
      exact ⟨{ found with phase := .broadcasting .joined }, rfl, only lookup rank rfl⟩
  | broadcast found notice lookup here =>
      exact ⟨_, rfl, only lookup (here ▸ (broadcasting_rank found session notice).2.2.1) rfl⟩
  | save found message lookup here =>
      exact ⟨_, rfl, only lookup (here ▸ (next_rank message).1) rfl⟩
  | replay found lookup here =>
      exact ⟨{ found with phase := .reading }, rfl, only lookup (by simp [here, Phase.rank]) rfl⟩
  | remove found lookup here =>
      exact ⟨{ found with phase := .freeing }, rfl, only lookup (by simp [here, Phase.rank]) rfl⟩
  | free found accepting lookup here =>
      have rank : found.phase.rank ≤ Phase.ended.rank := by
        rcases here with here | here <;> simp [here, Phase.rank]
      exact ⟨{ found with phase := .ended }, rfl, only lookup rank rfl⟩

section Steps

variable {state : State} {session : Nat} {found : Session}

/-- The table plays no part here, so both outcomes of `add_client` are one case. -/
theorem records_add {event : Event} {clients : List Client} (holds : Recorded state)
    (lookup : state.sessions session = some found) (here : found.phase = .adding)
    (entered : event = .added session ∨ event = .refused session) :
    Records state ({ state.note event with clients }.move session
        { found with phase := .broadcasting .joined })
      session found { found with phase := .broadcasting .joined } event where
  lookup := lookup
  chatlog := by
    rcases entered with same | same <;> simp [same, Event.saves, State.note, State.move]
  replays := by
    rcases entered with same | same <;> rw [same] <;> rfl
  own := by
    rcases entered with same | same <;> rw [same] <;> rfl
  fresh := by
    have behind : ¬3 ≤ found.phase.rank := by simp [here, Phase.rank]
    rcases entered with same | same
    · rw [same]
      exact not_account holds lookup rfl behind
    · rw [same]
      exact not_account holds lookup rfl behind
  advance := advance_of_rank (by simp [here, Phase.rank]) rfl rfl (by simp)
  accounts := by
    rcases entered with same | same <;> simp [same, Accounts, Phase.rank]
  placed := by
    constructor
    case pending => simp
    case entered =>
      intro _
      rcases entered with same | same <;> simp [same]
    case caughtUp => simp [Phase.Chatting, Phase.rank]
  backed := by
    rcases entered with same | same <;> simp [same]

theorem records_broadcast {notice : Notice} (holds : Recorded state)
    (lookup : state.sessions session = some found)
    (here : found.phase = .broadcasting notice) :
    Records state ((state.broadcast (found.message session notice)).move session
        { found with phase := .saving (found.message session notice), sent := found.sent + 1 })
      session found
      { found with phase := .saving (found.message session notice), sent := found.sent + 1 }
      (.broadcast (found.message session notice)) where
  lookup := lookup
  fresh := by
    apply not_account holds lookup rfl
    exact fun accounts => Nat.lt_irrefl _ accounts.1
  advance := by
    constructor
    case rank => exact here ▸ (broadcasting_rank found session notice).2.2.1
    case sent => exact Nat.le_succ _
    case ssl => rfl
    case fresh =>
      intro message saving
      cases saving
      exact Nat.le_refl _
  accounts := ⟨Nat.lt_succ_self _, rfl⟩
  placed := by
    obtain ⟨lower, upper, _, chatting⟩ := broadcasting_rank found session notice
    have placed := holds.placed session found lookup
    constructor
    case pending =>
      intro message saving
      cases saving
      exact ⟨rfl, Nat.lt_succ_self _, by simp⟩
    case entered =>
      intro _
      have active : found.phase.Active := here ▸ ⟨lower, upper⟩
      exact (placed.entered active).imp (List.mem_append_left _) (List.mem_append_left _)
    case caughtUp =>
      intro saving
      exact List.mem_append_left _ (placed.caughtUp (here ▸ chatting saving))

theorem records_save {message : Message} (holds : Recorded state)
    (lookup : state.sessions session = some found) (here : found.phase = .saving message) :
    Records state ((state.saveChatLog message).move session
        { found with phase := message.notice.next })
      session found { found with phase := message.notice.next } (.saved message) where
  lookup := lookup
  chatlog := rfl
  own := ((holds.placed session found lookup).pending message here).1
  fresh := by
    have own : Event.session (.saved message) = session :=
      ((holds.placed session found lookup).pending message here).1
    apply not_account holds lookup own
    exact fun accounts => accounts.2 here
  advance := advance_of_rank (here ▸ (next_rank message).1) rfl rfl (next_rank message).2.1
  accounts := ⟨((holds.placed session found lookup).pending message here).2.1,
    (next_rank message).2.1 message⟩
  placed := by
    obtain ⟨_, notSaving, lower, upper, chatting⟩ := next_rank message
    have placed := holds.placed session found lookup
    constructor
    case pending =>
      intro other saving
      exact absurd saving (notSaving other)
    case entered =>
      intro _
      have active : found.phase.Active := here ▸ ⟨lower, upper⟩
      exact (placed.entered active).imp (List.mem_append_left _) (List.mem_append_left _)
    case caughtUp =>
      intro reading
      exact List.mem_append_left _ (placed.caughtUp (here ▸ chatting reading))
  backed := by
    intro other same
    cases same
    exact ((holds.placed session found lookup).pending message here).2.2

theorem records_replay (holds : Recorded state) (lookup : state.sessions session = some found)
    (here : found.phase = .replaying) :
    Records state ((state.sendChatLog session).move session { found with phase := .reading })
      session found { found with phase := .reading } (.replayed session) where
  lookup := lookup
  fresh := not_account holds lookup rfl (by simp [Accounts, here, Phase.rank])
  advance := advance_of_rank (by simp [here, Phase.rank]) rfl rfl (by simp)
  accounts := by simp [Accounts, Phase.rank]
  placed := by
    have active : found.phase.Active := by simp [here, Phase.Active, Phase.rank]
    have entered := (holds.placed session found lookup).entered active
    constructor
    case pending => simp
    case entered => exact fun _ => entered.imp (List.mem_append_left _) (List.mem_append_left _)
    case caughtUp => simp

theorem records_remove (holds : Recorded state) (lookup : state.sessions session = some found)
    (here : found.phase = .removing) :
    Records state ((state.removeClient session found.ssl).move session
        { found with phase := .freeing })
      session found { found with phase := .freeing } (.removed session) where
  lookup := lookup
  fresh := not_account holds lookup rfl (by simp [Accounts, here, Phase.rank])
  advance := advance_of_rank (by simp [here, Phase.rank]) rfl rfl (by simp)
  accounts := by simp [Accounts, Phase.rank]
  placed := by
    constructor
    case pending => simp
    case entered => simp [Phase.Active, Phase.rank]
    case caughtUp => simp [Phase.Chatting, Phase.rank]

end Steps

theorem recorded_step {state next : State} {action : Action} (holds : Recorded state)
    (stepped : step state action = some next) : Recorded next := by
  cases step_effect stepped with
  | accept ssl unborn nonNull unused =>
      apply recorded_silent holds ⟨ssl, [], .handshake, 0⟩ {}
      · intro event member
        obtain ⟨found, lookup, accounts⟩ := holds.accounted event member
        have other : Event.session event ≠ action.session := by
          intro same
          rw [same, unborn] at lookup
          cases lookup
        exact ⟨found, (Function.update_of_ne other _ _).trans lookup, accounts⟩
      · exact ⟨by simp, by simp [Phase.Active, Phase.rank], by simp [Phase.Chatting, Phase.rank]⟩
  | quiet found username phase accepting lookup moved named =>
      obtain ⟨rank, notSaving, active, chatting⟩ := quiet_rank moved
      have placed := holds.placed action.session found lookup
      apply recorded_silent holds { found with username, phase } {}
      · exact accounted_update holds.accounted lookup rfl
          (advance_of_rank rank rfl rfl notSaving)
      · exact ⟨fun message saving => absurd saving (notSaving message),
          fun moved => placed.entered (active moved),
          fun moved => placed.caughtUp (chatting moved)⟩
  | add found lookup here =>
      obtain ⟨clients, event, noted, same⟩ := add_client_cases state _ found
      rw [same]
      exact recorded_event holds (records_add holds lookup here noted)
  | broadcast found notice lookup here =>
      exact recorded_event holds (records_broadcast holds lookup here)
  | save found message lookup here => exact recorded_event holds (records_save holds lookup here)
  | replay found lookup here => exact recorded_event holds (records_replay holds lookup here)
  | remove found lookup here => exact recorded_event holds (records_remove holds lookup here)
  | free found accepting lookup here =>
      apply recorded_silent holds { found with phase := .ended } {}
      · apply accounted_update holds.accounted lookup rfl
        refine advance_of_rank ?_ rfl rfl (by simp)
        rcases here with here | here <;> simp [here, Phase.rank]
      · exact ⟨by simp, by simp [Phase.Active, Phase.rank], by simp [Phase.Chatting, Phase.rank]⟩

theorem recorded_run {actions : List Action} {final : State}
    (ran : run step initial actions = some final) : Recorded final :=
  run_keeps_always (fun _ _ _ holds stepped => recorded_step holds stepped) recorded_initial ran

theorem text_no_nul {username : Bytes} (clean : (0 : Byte) ∉ username) (notice : Notice) :
    (0 : Byte) ∉ notice.text username := by
  have server : (0 : Byte) ∉ ascii "[SERVER]: " := by decide
  have joined : (0 : Byte) ∉ ascii " joined the chat\n" := by decide
  have left : (0 : Byte) ∉ ascii " left the chat\n" := by decide
  have colon : (0 : Byte) ∉ ascii ": " := by decide
  cases notice with
  | joined =>
      apply snprintf_no_nul
      simp [server, clean, joined]
  | said buffer =>
      apply snprintf_no_nul
      simp [clean, colon, cstr_no_nul buffer]
  | left =>
      apply snprintf_no_nul
      simp [server, clean, left]

structure NulFree (state : State) : Prop where
  sessions : ∀ session found, state.sessions session = some found →
    (0 : Byte) ∉ found.username ∧
      ∀ message, found.phase = .saving message → (0 : Byte) ∉ message.text
  log : ∀ message ∈ state.chatlog, (0 : Byte) ∉ message.text

theorem nul_free_initial : NulFree initial where
  sessions := by
    intro session found lookup
    cases lookup
  log := by
    intro message member
    cases member

theorem nul_free_step {state next : State} {action : Action} (holds : NulFree state)
    (stepped : step state action = some next) : NulFree next := by
  cases step_effect stepped with
  | accept ssl unborn nonNull unused =>
      exact ⟨forall_update holds.sessions rfl ⟨by simp, by simp⟩, holds.log⟩
  | quiet found username phase accepting lookup moved named =>
      have clean : (0 : Byte) ∉ username := by
        rcases named with same | ⟨name, copied⟩
        · rw [same]
          exact (holds.sessions _ found lookup).1
        · rw [copied]
          exact copied_no_nul name
      have notSaving := (quiet_rank moved).2.1
      exact ⟨forall_update holds.sessions rfl
        ⟨clean, fun message saving => absurd saving (notSaving message)⟩, holds.log⟩
  | add found lookup here =>
      have clean := (holds.sessions _ found lookup).1
      obtain ⟨clients, event, _, same⟩ := add_client_cases state _ found
      rw [same]
      exact ⟨forall_update holds.sessions rfl ⟨clean, by simp⟩, holds.log⟩
  | broadcast found notice lookup here =>
      have clean := (holds.sessions _ found lookup).1
      refine ⟨forall_update holds.sessions rfl ⟨clean, ?_⟩, holds.log⟩
      intro message saving
      cases saving
      exact text_no_nul clean notice
  | save found message lookup here =>
      obtain ⟨clean, saved⟩ := holds.sessions _ found lookup
      have notSaving := (next_rank message).2.1
      refine ⟨forall_update holds.sessions rfl
        ⟨clean, fun other saving => absurd saving (notSaving other)⟩, ?_⟩
      intro other member
      rcases List.mem_append.mp member with old | new
      · exact holds.log other old
      · rw [List.mem_singleton.mp new]
        exact saved message here
  | replay found lookup here =>
      exact ⟨forall_update holds.sessions rfl
        ⟨(holds.sessions _ found lookup).1, by simp⟩, holds.log⟩
  | remove found lookup here =>
      exact ⟨forall_update holds.sessions rfl
        ⟨(holds.sessions _ found lookup).1, by simp⟩, holds.log⟩
  | free found accepting lookup here =>
      exact ⟨forall_update holds.sessions rfl
        ⟨(holds.sessions _ found lookup).1, by simp⟩, holds.log⟩

/-- At any moment, `send_chat_log` would write exactly the bytes of the
messages saved so far. -/
theorem send_chat_log_writes_messages {actions : List Action} {final : State}
    (ran : run step initial actions = some final) :
    (replayWrites (logFile final.chatlog)).flatten = logFile final.chatlog := by
  have holds : NulFree final := run_keeps_always
    (fun _ _ _ before stepped => nul_free_step before stepped) nul_free_initial ran
  apply replay_writes_flatten
  intro member
  obtain ⟨message, saved, inside⟩ := List.mem_flatMap.mp member
  exact holds.log message saved inside

end LinuxFff.TlsHistory
