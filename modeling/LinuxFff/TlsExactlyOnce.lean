import LinuxFff.TlsDelivery

/-!
# History and live delivery in `server_tls_final.c`

A chat message reaches a session live when its `broadcast` comes after the
session's `add_client`, and with the replay when its `save_chat_log` comes
before the session's `send_chat_log`. The message is broadcast before it is
saved and the session is added before the log is replayed, so the two can both
happen, or neither: exactly when one pair of steps encloses the other.
-/

namespace LinuxFff.TlsExactlyOnce

open LinuxFff.CString LinuxFff.ClientTables LinuxFff.EventOrder LinuxFff.Ownership
open LinuxFff.Roster LinuxFff.StepSystem LinuxFff.TlsServer LinuxFff.TlsHistory
open LinuxFff.TlsDelivery

set_option autoImplicit false

/-- At most 100 sessions are between `add_client` and `remove_client`. -/
def Uncrowded (state : State) : Prop :=
  ∀ sessions : List Nat, sessions.Nodup →
    (∀ session ∈ sessions, ∃ found,
      state.sessions session = some found ∧ found.phase.Active) →
    sessions.length ≤ maxClients

def StaysUncrowded (state : State) (action : Action) : Prop :=
  ∀ next, step state action = some next → Uncrowded next

/-- How often a session has been sent a message, replayed or live. -/
def received (state : State) (reader : Nat) (message : Message) : Nat :=
  (state.replayed reader).count message + (state.live reader).count message

/-- The outer pair of events has the inner pair between them. -/
def Encloses (outerFirst outerLast innerFirst innerLast : Event) (history : List Event) : Prop :=
  Before outerFirst innerFirst history ∧ Before innerLast outerLast history

instance (outerFirst outerLast innerFirst innerLast : Event) (history : List Event) :
    Decidable (Encloses outerFirst outerLast innerFirst innerLast history) :=
  inferInstanceAs (Decidable (_ ∧ _))

theorem ssl_of_effect {state next : State} {session other : Nat} {found : Session}
    (effect : Effect state session next) (lookup : state.sessions other = some found) :
    sslOf next.sessions other = sslOf state.sessions other := by
  obtain ⟨moved, sessions, kept⟩ := effect_sessions effect
  rw [sessions]
  by_cases same : other = session
  · rw [same] at lookup
    rw [sslOf, key_of_move lookup (kept found lookup).2, sslOf]
  · exact key_of_other same

/-- What a step adds to the history; a broadcast is its author's, and a refusal
means that every slot is taken. -/
theorem effect_history {state next : State} {session : Nat} (effect : Effect state session next) :
    next.history = state.history ∨ ∃ event, next.history = state.history ++ [event] ∧
      (∀ message, event = .broadcast message → ∃ found notice,
        state.sessions session = some found ∧ found.phase = .broadcasting notice ∧
          message = found.message session notice) ∧
      ∀ other, event = .refused other → other = session ∧
        (activeSsls state.clients).length = state.clients.length ∧
        (∃ found, state.sessions session = some found ∧ found.phase = .adding) ∧
        ∃ moved, next.sessions session = some moved ∧ moved.phase.Active := by
  cases effect with
  | accept ssl unborn nonNull unused => exact Or.inl rfl
  | quiet found username phase accepting lookup moved named => exact Or.inl rfl
  | add found lookup here =>
      right
      unfold State.addClient
      split
      · exact ⟨_, rfl, by simp, by simp⟩
      · rename_i full
        refine ⟨_, rfl, by simp, ?_⟩
        intro other same
        cases same
        refine ⟨rfl, add_client_none full, ⟨found, lookup, here⟩, _, Function.update_self _ _ _, ?_⟩
        simp [Phase.Active, Phase.rank]
  | broadcast found notice lookup here =>
      refine Or.inr ⟨_, rfl, ?_, by simp⟩
      intro message same
      cases same
      exact ⟨found, notice, lookup, here, rfl⟩
  | save found message lookup here => exact Or.inr ⟨_, rfl, by simp, by simp⟩
  | replay found lookup here => exact Or.inr ⟨_, rfl, by simp, by simp⟩
  | remove found lookup here => exact Or.inr ⟨_, rfl, by simp, by simp⟩
  | free found accepting lookup here => exact Or.inl rfl

theorem no_refusal_step {members : List Nat} {state next : State} {action : Action}
    (holds : Registered members state) (none : ∀ session, Event.refused session ∉ state.history)
    (uncrowded : StaysUncrowded state action) (stepped : step state action = some next) :
    ∀ session, Event.refused session ∉ next.history := by
  intro session member
  have effect := step_effect stepped
  rcases effect_history effect with same | ⟨event, grown, _, refusal⟩
  · rw [same] at member
    exact none session member
  · rw [grown, List.mem_append, List.mem_singleton] at member
    obtain ⟨own, full, ⟨found, lookup, here⟩, moved, movedLookup, active⟩ :=
      refusal session (member.resolve_left (none session)).symm
    obtain ⟨result, sessions, _⟩ := effect_sessions effect
    have outsider : action.session ∉ members := by
      intro inside
      obtain ⟨other, otherLookup, otherActive⟩ := holds.room.active _ inside
      rw [lookup] at otherLookup
      cases otherLookup
      simp [here, Phase.Active, Phase.rank] at otherActive
    have count : (action.session :: members).length ≤ maxClients := by
      apply uncrowded next stepped _ (List.nodup_cons.mpr ⟨outsider, holds.room.lists.distinct⟩)
      intro other inside
      by_cases same : other = action.session
      · exact ⟨moved, same ▸ movedLookup, active⟩
      · rw [sessions, Function.update_of_ne same]
        exact holds.room.active other ((List.mem_cons.mp inside).resolve_left same)
    rw [holds.room.lists.length_eq, holds.room.size] at full
    rw [List.length_cons, full] at count
    omega

/-- Chat messages that a session in the room can have heard came from another
object. -/
def Apart (state : State) : Prop :=
  ∀ session message buffer, InRoom session state.history → message.notice = .said buffer →
    message.author ≠ session →
    Before (.added session) (.broadcast message) state.history →
    message.sender ≠ sslOf state.sessions session

theorem in_room_earlier {session : Nat} {history : List Event} {event : Event}
    (inside : InRoom session (history ++ [event])) (added : Event.added session ∈ history) :
    InRoom session history :=
  ⟨added, fun closed => inside.2 (before_snoc.mpr (Or.inl closed))⟩

theorem apart_step {members : List Nat} {state next : State} {action : Action}
    (holds : Registered members state) (apart : Apart state)
    (stepped : step state action = some next) : Apart next := by
  intro session message buffer inside said other before
  have effect := step_effect stepped
  have earlier : InRoom session state.history → sslOf next.sessions session =
      sslOf state.sessions session := by
    intro inRoom
    obtain ⟨found, lookup, _⟩ := holds.room.active session ((holds.room.inRoom session).mpr inRoom)
    exact ssl_of_effect effect lookup
  rcases effect_history effect with same | ⟨event, grown, broadcast, _⟩
  · rw [same] at inside before
    rw [earlier inside]
    exact apart session message buffer inside said other before
  · rw [grown] at inside before
    rcases before_snoc.mp before with old | ⟨added, now⟩
    · have inRoom := in_room_earlier inside old.mem_first
      rw [earlier inRoom]
      exact apart session message buffer inRoom said other old
    · have inRoom := in_room_earlier inside added
      obtain ⟨found, notice, lookup, here, same⟩ := broadcast message now.symm
      have alive : found.phase ≠ .ended := by simp [here]
      have author : message.author = action.session := by rw [same]; rfl
      have sender : message.sender = found.ssl := by
        rw [same] at said ⊢
        have noticeSaid : notice = .said buffer := said
        rw [noticeSaid]
        rfl
      rw [earlier inRoom, sender]
      intro equal
      have owner := holds.owner ((holds.room.inRoom session).mpr inRoom)
      rw [← equal, holds.owns.held _ found lookup alive] at owner
      exact other (author.trans (Option.some.inj owner))

structure Complete (state : State) : Prop where
  recorded : Recorded state
  registered : ∃ members, Registered members state
  noRefusal : ∀ session, Event.refused session ∉ state.history
  apart : Apart state

theorem complete_initial : Complete initial where
  recorded := recorded_initial
  registered := ⟨[], registered_initial⟩
  noRefusal := by
    intro session member
    cases member
  apart := by
    intro session message buffer inside
    cases inside.1

theorem complete_step {state next : State} {action : Action} (holds : Complete state)
    (uncrowded : StaysUncrowded state action) (stepped : step state action = some next) :
    Complete next := by
  obtain ⟨members, registered⟩ := holds.registered
  constructor
  case recorded => exact recorded_step holds.recorded stepped
  case registered => exact registered_step holds.recorded registered stepped
  case noRefusal => exact no_refusal_step registered holds.noRefusal uncrowded stepped
  case apart => exact apart_step registered holds.apart stepped

theorem live_nodup {members : List Nat} {state : State} (recorded : Recorded state)
    (holds : Registered members state) (reader : Nat) : (state.live reader).Nodup := by
  rw [holds.heard reader, heardBy]
  apply List.Nodup.filterMap _ ((between_sublist _ _ _).nodup recorded.distinct)
  intro left right message leftHeard rightHeard
  have broadcast : ∀ event, message ∈ Event.heardAs (sslOf state.sessions reader) event →
      event = .broadcast message := by
    intro event heard
    cases event with
    | broadcast other =>
        simp only [Event.heardAs] at heard
        split at heard
        · cases heard
        · cases heard
          rfl
    | _ => cases heard
  rw [broadcast left leftHeard, broadcast right rightHeard]

theorem mem_live_iff {members : List Nat} {state : State} (holds : Registered members state)
    (apart : Apart state) {reader : Nat} {message : Message} {buffer : Bytes}
    (inside : InRoom reader state.history) (said : message.notice = .said buffer)
    (other : message.author ≠ reader) :
    message ∈ state.live reader ↔ Before (.added reader) (.broadcast message) state.history := by
  rw [holds.heard reader, heardBy, List.mem_filterMap]
  constructor
  · intro heard
    rcases heard with ⟨event, member, heard⟩
    have before := (mem_between inside.2).mp member
    cases event with
    | broadcast written =>
        simp only [Event.heardAs] at heard
        split at heard
        · cases heard
        · cases heard
          exact before
    | _ => cases heard
  · intro before
    have sender := apart reader message buffer inside said other before
    exact ⟨_, (mem_between inside.2).mpr before, by simp [Event.heardAs, sender]⟩

theorem count_sum_one {left right : List Message} {message : Message} (leftOnce : left.Nodup)
    (rightOnce : right.Nodup) :
    left.count message + right.count message = 1 ↔
      ¬(message ∈ right ∧ message ∈ left) ∧ ¬(message ∉ right ∧ message ∉ left) := by
  rw [leftOnce.count, rightOnce.count]
  by_cases inLeft : message ∈ left
  · by_cases inRight : message ∈ right
    · simp [inLeft, inRight]
    · simp [inLeft, inRight]
  · by_cases inRight : message ∈ right
    · simp [inLeft, inRight]
    · simp [inLeft, inRight]

/-- A message that its author has broadcast and saved has reached another
session exactly once if and only if the author's broadcast and save did not
both run between the session's `add_client` and `send_chat_log` (it is received
twice then), nor these two both between the author's (it is lost then). -/
theorem received_once_iff (actions : List Action) (final : State)
    (uncrowded : Meets step StaysUncrowded initial actions)
    (ran : run step initial actions = some final) (message : Message) (buffer : Bytes)
    (said : message.notice = .said buffer) (finished : Event.saved message ∈ final.history)
    (reader : Nat) (found : Session) (lookup : final.sessions reader = some found)
    (chatting : found.phase.Chatting) (other : message.author ≠ reader) :
    received final reader message = 1 ↔
      ¬Encloses (.added reader) (.replayed reader) (.broadcast message) (.saved message)
          final.history ∧
        ¬Encloses (.broadcast message) (.saved message) (.added reader) (.replayed reader)
          final.history := by
  have complete : Complete final := run_keeps
    (fun _ _ _ holds met stepped => complete_step holds met stepped) complete_initial uncrowded ran
  have recorded := complete.recorded
  obtain ⟨members, holds⟩ := complete.registered
  have placed := recorded.placed reader found lookup
  have rank : found.phase.rank = 6 := chatting
  have active : found.phase.Active := by
    rw [Phase.Active, rank]
    decide
  have added := (placed.entered active).resolve_right (complete.noRefusal reader)
  have replayed := placed.caughtUp chatting
  have broadcast := recorded.backed message finished
  have inside : InRoom reader final.history := by
    refine ⟨added, ?_⟩
    intro closed
    have unaccounted : ¬Accounts found (.removed reader) := by simp [Accounts, rank]
    exact not_account recorded lookup rfl unaccounted closed.mem_second
  have liveOrder := before_iff_not_before recorded.distinct (by simp) added broadcast
  have replayOrder := before_iff_not_before recorded.distinct (by simp) finished replayed
  rw [received, count_sum_one (recorded.replayedOnce reader) (live_nodup recorded holds reader),
    mem_live_iff holds complete.apart inside said other, recorded.replayed]
  unfold Encloses
  rw [liveOrder, replayOrder, not_not, not_not]

theorem uncrowded_of_few {actions : List Action}
    (named : ∀ action ∈ actions, action.session < maxClients) :
    Meets step StaysUncrowded initial actions := by
  let numbered : State → Prop := fun state =>
    ∀ session found, state.sessions session = some found → session < maxClients
  have kept : ∀ action ∈ actions, ∀ state next, numbered state →
      step state action = some next → numbered next := by
    intro action member state next holds stepped
    obtain ⟨moved, sessions, _⟩ := effect_sessions (step_effect stepped)
    exact forall_update holds sessions (named action member)
  have holds : numbered initial := by
    intro session found lookup
    cases lookup
  apply meets_of_kept kept _ holds
  intro action member state holds next stepped sessions distinct active
  have after := kept action member state next holds stepped
  have contained : sessions ⊆ List.range maxClients := by
    intro session present
    obtain ⟨found, lookup, _⟩ := active session present
    exact List.mem_range.mpr (after session found lookup)
  have length := (List.subperm_of_subset distinct contained).length_le
  rwa [List.length_range] at length

/-- The message of the examples: what session 0 says after its join line. -/
def hi : Message := ⟨0, 1, .said (ascii "hi"), ascii "al: hi", 1⟩

theorem received_once_two_sessions :
    ∃ final, run step initial twoSessionsChat = some final ∧
      hi ∈ final.live 1 ∧ received final 1 hi = 1 := by
  refine ⟨_, rfl, by decide, ?_⟩
  apply (received_once_iff twoSessionsChat _ (uncrowded_of_few (by decide)) rfl hi
    (ascii "hi") rfl (by decide) 1 _ rfl rfl (by decide)).mpr
  decide

/-- The log is replayed between the broadcast and the save. -/
def lostMessage : List Action :=
  join 0 1 (ascii "al") ++ [.receive 0 (some (ascii "hi")), .proceed 0] ++
    join 1 2 (ascii "bo") ++ [.proceed 0]

/-- The message is broadcast and saved between `add_client` and `send_chat_log`. -/
def doubledMessage : List Action :=
  join 0 1 (ascii "al") ++
    [.accept 1 2, .handshake 1 true, .authenticate 1 (some (ascii "bo")), .proceed 1,
      .receive 0 (some (ascii "hi")), .proceed 0, .proceed 0, .proceed 1, .proceed 1, .proceed 1]

theorem message_lost_or_doubled :
    (Meets step StaysUncrowded initial lostMessage ∧
      ∃ final found, run step initial lostMessage = some final ∧
        Event.saved hi ∈ final.history ∧ final.sessions 1 = some found ∧
        found.phase.Chatting ∧ received final 1 hi = 0) ∧
      Meets step StaysUncrowded initial doubledMessage ∧
      ∃ final found, run step initial doubledMessage = some final ∧
        Event.saved hi ∈ final.history ∧ final.sessions 1 = some found ∧
        found.phase.Chatting ∧ received final 1 hi = 2 := by
  refine ⟨⟨uncrowded_of_few (by decide), _, _, rfl, by decide, rfl, rfl, by decide⟩,
    uncrowded_of_few (by decide), _, _, rfl, by decide, rfl, rfl, by decide⟩

end LinuxFff.TlsExactlyOnce
