import LinuxFff.Ownership
import LinuxFff.TlsHistory

/-!
# Broadcast delivery in `server_tls_final.c`

The active slots are at all times the objects of the sessions that are between
their `add_client` and their `remove_client`, one slot each; those objects live
and are distinct. So one `broadcast` writes once to each of these sessions
except the sender, and what a session is sent is determined by the broadcasts
between the two calls.
-/

namespace LinuxFff.TlsDelivery

open LinuxFff.CString LinuxFff.ClientTables LinuxFff.EventOrder LinuxFff.Ownership
open LinuxFff.Roster LinuxFff.StepSystem LinuxFff.TlsServer LinuxFff.TlsHistory

set_option autoImplicit false

def Session.Alive (found : Session) : Prop := found.phase ≠ .ended

def sslOf (sessions : Nat → Option Session) : Nat → Ssl := keyOf sessions Session.ssl null

/-- A broadcast whose sender argument is another object. -/
def Event.heardAs (ssl : Ssl) : Event → Option Message
  | .broadcast message => if message.sender = ssl then none else some message
  | _ => none

/-- The broadcasts between a session's `add_client` and its `remove_client`
whose sender argument is not the session's object. -/
def heardBy (session : Nat) (ssl : Ssl) (history : List Event) : List Message :=
  (between (.added session) (.removed session) history).filterMap (Event.heardAs ssl)

def InRoom (session : Nat) (history : List Event) : Prop :=
  Event.added session ∈ history ∧ ¬Before (.added session) (.removed session) history

theorem heard_by_outside {session : Nat} {ssl : Ssl} {history : List Event} {event : Event}
    (outside : ¬InRoom session history) :
    heardBy session ssl (history ++ [event]) = heardBy session ssl history := by
  by_cases added : Event.added session ∈ history
  · have closed : Before (.added session) (.removed session) history := by
      by_contra running
      exact outside ⟨added, running⟩
    rw [heardBy, between_snoc_closed closed, heardBy]
  · have before : heardBy session ssl history = [] := by
      rw [heardBy, between_absent added, List.filterMap_nil]
    rw [before, heardBy]
    by_cases first : event = .added session
    · rw [first, between_snoc_first added, List.filterMap_nil]
    · have absent : Event.added session ∉ history ++ [event] := by
        rw [List.mem_append, List.mem_singleton, not_or]
        exact ⟨added, Ne.symm first⟩
      rw [between_absent absent, List.filterMap_nil]

theorem heard_by_inside {session : Nat} {ssl : Ssl} {history : List Event} {event : Event}
    (inside : InRoom session history) :
    heardBy session ssl (history ++ [event]) =
      heardBy session ssl history ++ (Event.heardAs ssl event).toList := by
  by_cases last : event = .removed session
  · subst last
    rw [heardBy, between_snoc_last (by simp), heardBy]
    exact (List.append_nil _).symm
  · rw [heardBy, between_snoc_open inside.1 inside.2 last, List.filterMap_append, heardBy]
    cases heard : Event.heardAs ssl event <;> simp [heard]

theorem heard_by_silent {session : Nat} {ssl : Ssl} {history : List Event} {event : Event}
    (silent : Event.heardAs ssl event = none) :
    heardBy session ssl (history ++ [event]) = heardBy session ssl history := by
  by_cases inside : InRoom session history
  · rw [heard_by_inside inside, silent]
    exact List.append_nil _
  · exact heard_by_outside inside

theorem in_room_snoc {session : Nat} {history : List Event} {event : Event}
    (notAdded : event ≠ .added session) (notRemoved : event ≠ .removed session) :
    InRoom session (history ++ [event]) ↔ InRoom session history := by
  unfold InRoom
  rw [before_snoc, List.mem_append, List.mem_singleton]
  constructor
  · intro inside
    rcases inside with ⟨added | same, running⟩
    · exact ⟨added, fun closed => running (Or.inl closed)⟩
    · exact absurd same.symm notAdded
  · intro inside
    rcases inside with ⟨added, running⟩
    refine ⟨Or.inl added, ?_⟩
    intro closed
    rcases closed with closed | ⟨_, same⟩
    · exact running closed
    · exact notRemoved same.symm

theorem in_room_added {session other : Nat} {history : List Event}
    (fresh : Event.added session ∉ history) :
    InRoom other (history ++ [.added session]) ↔ other = session ∨ InRoom other history := by
  by_cases same : other = session
  · subst same
    have running : ¬Before (.added other) (.removed other) (history ++ [.added other]) := by
      rw [before_snoc]
      intro closed
      rcases closed with closed | ⟨member, _⟩
      · exact fresh closed.mem_first
      · exact fresh member
    simp [InRoom, running]
  · rw [in_room_snoc (by simpa using Ne.symm same) (by simp)]
    simp [same]

theorem in_room_removed {session other : Nat} {history : List Event} :
    InRoom other (history ++ [.removed session]) ↔ other ≠ session ∧ InRoom other history := by
  by_cases same : other = session
  · subst same
    have closed : ¬InRoom other (history ++ [.removed other]) := by
      intro inside
      rcases inside with ⟨added, running⟩
      rw [List.mem_append, List.mem_singleton] at added
      apply running
      rw [before_snoc]
      exact Or.inr ⟨added.resolve_right (by simp), rfl⟩
    simp [closed]
  · rw [in_room_snoc (by simp) (by simpa using Ne.symm same)]
    simp [same]

/-- The active slots are those of the sessions between their two calls. -/
structure Room (sessions : Nat → Option Session) (clients : List Client)
    (history : List Event) (members : List Nat) : Prop where
  size : clients.length = maxClients
  lists : Lists (sslOf sessions) (activeSsls clients) members
  inRoom : ∀ session, session ∈ members ↔ InRoom session history
  active : ∀ session ∈ members, ∃ found, sessions session = some found ∧ found.phase.Active

/-- What a session has been sent is determined by the history. -/
def Heard (sessions : Nat → Option Session) (live : Nat → List Message)
    (history : List Event) : Prop :=
  ∀ session, live session = heardBy session (sslOf sessions session) history

structure Registered (members : List Nat) (state : State) : Prop where
  owns : Owns state.sessions Session.ssl Session.Alive state.heap
  room : Room state.sessions state.clients state.history members
  heard : Heard state.sessions state.live state.history
  stray : state.stray = []

theorem registered_initial : Registered [] initial where
  owns := owns_nothing
  room := by
    constructor
    case size => rfl
    case lists =>
      have empty : activeSsls initial.clients = [] := active_ssls_empty
      rw [empty]
      exact lists_nil
    case inRoom =>
      intro session
      simp [InRoom, initial]
    case active =>
      intro session member
      cases member
  heard := fun _ => rfl
  stray := rfl

theorem active_not_ended {phase : Phase} (active : phase.Active) : phase ≠ .ended := by
  intro same
  rw [same] at active
  exact absurd active.2 (by decide)

section Components

variable {sessions : Nat → Option Session} {clients : List Client} {live : Nat → List Message}
  {history : List Event} {members : List Nat} {session : Nat} {found moved : Session}
  {event : Event}

theorem Room.active_move (room : Room sessions clients history members)
    (here : session ∈ members → moved.phase.Active) :
    ∀ other ∈ members, ∃ found,
      Function.update sessions session (some moved) other = some found ∧ found.phase.Active := by
  intro other member
  by_cases same : other = session
  · rw [same, Function.update_self]
    exact ⟨moved, rfl, here (same ▸ member)⟩
  · rw [Function.update_of_ne same]
    exact room.active other member

theorem Room.move (room : Room sessions clients history members)
    (lookup : sessions session = some found) (ssl : moved.ssl = found.ssl)
    (active : session ∈ members → moved.phase.Active) :
    Room (Function.update sessions session (some moved)) clients history members where
  size := room.size
  lists := by
    rw [sslOf, key_of_move lookup ssl]
    exact room.lists
  inRoom := room.inRoom
  active := room.active_move active

theorem Room.note (room : Room sessions clients history members)
    (notAdded : ∀ other, event ≠ .added other) (notRemoved : ∀ other, event ≠ .removed other) :
    Room sessions clients (history ++ [event]) members where
  size := room.size
  lists := room.lists
  inRoom := by
    intro other
    rw [in_room_snoc (notAdded other) (notRemoved other)]
    exact room.inRoom other
  active := room.active

theorem Room.active_of_mem (room : Room sessions clients history members)
    (member : session ∈ members) (lookup : sessions session = some found) :
    found.phase.Active := by
  obtain ⟨result, resultLookup, active⟩ := room.active session member
  rw [lookup] at resultLookup
  cases resultLookup
  exact active

theorem Room.accept (room : Room sessions clients history members)
    (unborn : sessions session = none) :
    Room (Function.update sessions session (some moved)) clients history members := by
  have outsider : session ∉ members := by
    intro member
    obtain ⟨found, lookup, _⟩ := room.active session member
    rw [unborn] at lookup
    cases lookup
  constructor
  case size => exact room.size
  case lists =>
    apply room.lists.congr
    intro member present
    exact key_of_other fun same => outsider (same ▸ present)
  case inRoom => exact room.inRoom
  case active => exact room.active_move fun member => absurd member outsider

theorem Room.add {slot : Nat} {table : List Client} (room : Room sessions clients history members)
    (lookup : sessions session = some found) (fresh : Event.added session ∉ history)
    (added : addClient found.ssl found.username clients = some (slot, table))
    (ssl : moved.ssl = found.ssl) (active : moved.phase.Active) :
    Room (Function.update sessions session (some moved)) table (history ++ [.added session])
      (session :: members) := by
  have outsider : session ∉ members := fun member => fresh ((room.inRoom session).mp member).1
  obtain ⟨grown, length⟩ := add_client_some added
  constructor
  case size => exact length.trans room.size
  case lists =>
    rw [sslOf, key_of_move lookup ssl]
    apply room.lists.add outsider
    rw [sslOf, key_of_some lookup]
    exact grown
  case inRoom =>
    intro other
    rw [in_room_added fresh, List.mem_cons, room.inRoom]
  case active =>
    intro other member
    rcases List.mem_cons.mp member with same | old
    · rw [same, Function.update_self]
      exact ⟨moved, rfl, active⟩
    · exact room.active_move (fun _ => active) other old

theorem Room.remove (room : Room sessions clients history members)
    (lookup : sessions session = some found) (ssl : moved.ssl = found.ssl)
    (unlisted : session ∉ members → found.ssl ∉ activeSsls clients) :
    Room (Function.update sessions session (some moved)) (removeClient found.ssl clients)
      (history ++ [.removed session]) (members.erase session) := by
  constructor
  case size => exact (remove_client_length found.ssl clients).trans room.size
  case lists =>
    rw [sslOf, key_of_move lookup ssl, remove_client_active]
    by_cases present : session ∈ members
    · apply room.lists.remove present
      rw [sslOf, key_of_some lookup]
    · rw [List.erase_of_not_mem (unlisted present), List.erase_of_not_mem present]
      exact room.lists
  case inRoom =>
    intro other
    rw [in_room_removed, ← room.inRoom, room.lists.distinct.mem_erase_iff]
  case active =>
    intro other member
    obtain ⟨apart, present⟩ := room.lists.distinct.mem_erase_iff.mp member
    rw [Function.update_of_ne apart]
    exact room.active other present

theorem Heard.move (heard : Heard sessions live history) (lookup : sessions session = some found)
    (ssl : moved.ssl = found.ssl) :
    Heard (Function.update sessions session (some moved)) live history := by
  intro other
  rw [sslOf, key_of_move lookup ssl]
  exact heard other

theorem Heard.note (heard : Heard sessions live history)
    (silent : ∀ ssl, Event.heardAs ssl event = none) :
    Heard sessions live (history ++ [event]) := by
  intro other
  rw [heard_by_silent (silent _)]
  exact heard other

theorem Heard.accept (heard : Heard sessions live history)
    (absent : Event.added session ∉ history) :
    Heard (Function.update sessions session (some moved)) live history := by
  intro other
  rw [heard other]
  by_cases same : other = session
  · rw [heardBy, heardBy, same, between_absent absent]
    rfl
  · rw [sslOf, sslOf, key_of_other same]

end Components

section Steps

variable {members : List Nat} {state : State} {session : Nat} {found moved : Session}

theorem Registered.owner (holds : Registered members state) (member : session ∈ members) :
    state.heap (sslOf state.sessions session) = some session := by
  obtain ⟨found, lookup, active⟩ := holds.room.active session member
  rw [sslOf, key_of_some lookup]
  exact holds.owns.held session found lookup (active_not_ended active)

/-- The writes of one broadcast: one to each member but the sender. -/
theorem copies_of_broadcast (holds : Registered members state) (sender : Ssl) (other : Nat) :
    copies state.heap other (recipients sender state.clients) =
      if other ∈ members ∧ sslOf state.sessions other ≠ sender then 1 else 0 := by
  have only : ∀ member ∈ members,
      (decide (state.heap (sslOf state.sessions member) = some other) &&
        decide (sslOf state.sessions member ≠ sender)) = true → member = other := by
    intro member present passed
    rw [Bool.and_eq_true, decide_eq_true_eq, holds.owner present] at passed
    exact Option.some.inj passed.1
  rw [recipients_filter, holds.room.lists.copies_filter,
    count_one holds.room.lists.distinct other _ only]
  by_cases present : other ∈ members
  · simp [present, holds.owner present]
  · simp [present]

theorem recipients_owned (holds : Registered members state) (sender ssl : Ssl)
    (target : ssl ∈ recipients sender state.clients) : state.heap ssl ≠ none := by
  rw [recipients_filter] at target
  have listed := holds.room.lists.listed.mem_iff.mp (List.mem_of_mem_filter target)
  obtain ⟨member, present, same⟩ := List.mem_map.mp listed
  rw [← same, holds.owner present]
  exact Option.some_ne_none _

theorem heard_broadcast (holds : Registered members state) (message : Message) :
    Heard state.sessions
      (writeAll state.heap message state.live (recipients message.sender state.clients))
      (state.history ++ [.broadcast message]) := by
  intro other
  rw [write_all_apply, copies_of_broadcast holds, holds.heard other]
  by_cases present : other ∈ members
  · rw [heard_by_inside ((holds.room.inRoom other).mp present), Event.heardAs]
    by_cases own : sslOf state.sessions other = message.sender
    · simp [own]
    · simp [present, own, Ne.symm own]
  · rw [heard_by_outside fun inside => present ((holds.room.inRoom other).mpr inside)]
    simp [present]

theorem stray_broadcast (holds : Registered members state) (message : Message) :
    (state.broadcast message).stray = [] := by
  have nowhere : ((recipients message.sender state.clients).filter fun ssl =>
      state.heap ssl = none) = [] := by
    apply List.filter_eq_nil_iff.mpr
    intro ssl target
    simpa using recipients_owned holds message.sender ssl target
  have grown : (state.broadcast message).stray =
      state.stray ++ (recipients message.sender state.clients).filter fun ssl =>
        state.heap ssl = none := rfl
  rw [grown, nowhere, holds.stray, List.append_nil]

theorem unlisted_of_outsider (holds : Registered members state)
    (lookup : state.sessions session = some found) (alive : Session.Alive found)
    (outsider : session ∉ members) : found.ssl ∉ activeSsls state.clients := by
  intro listed
  obtain ⟨other, present, same⟩ := List.mem_map.mp (holds.room.lists.listed.mem_iff.mp listed)
  have owner := holds.owner present
  rw [same, holds.owns.held session found lookup alive] at owner
  exact outsider (Option.some.inj owner ▸ present)

theorem registered_add (recorded : Recorded state) (holds : Registered members state)
    (lookup : state.sessions session = some found) (here : found.phase = .adding) :
    ∃ members, Registered members ((state.addClient session found).move session
      { found with phase := .broadcasting .joined }) := by
  have behind : ¬3 ≤ found.phase.rank := by simp [here, Phase.rank]
  have fresh : Event.added session ∉ state.history := not_account recorded lookup rfl behind
  have active : (Phase.broadcasting .joined).Active := ⟨by decide, by decide⟩
  have owns : Owns (Function.update state.sessions session
      (some { found with phase := .broadcasting .joined })) Session.ssl Session.Alive state.heap :=
    holds.owns.move lookup rfl (by simp [here, Session.Alive])
  unfold State.addClient
  split
  · rename_i added
    exact ⟨session :: members, owns, holds.room.add lookup fresh added rfl active,
      (holds.heard.note fun _ => rfl).move lookup rfl, holds.stray⟩
  · exact ⟨members, owns, (holds.room.note (by simp) (by simp)).move lookup rfl fun _ => active,
      (holds.heard.note fun _ => rfl).move lookup rfl, holds.stray⟩

end Steps

theorem quiet_active {before after : Phase} (moved : Quiet before after) :
    before ≠ .ended ∧ after ≠ .ended ∧ (before.Active → after.Active) := by
  cases moved <;> simp [Phase.Active, Phase.rank]

theorem next_active (notice : Notice) : notice.next.Active := by
  cases notice <;> simp [Notice.next, Phase.Active, Phase.rank]

theorem registered_step {members : List Nat} {state next : State} {action : Action}
    (recorded : Recorded state) (holds : Registered members state)
    (stepped : step state action = some next) : ∃ members, Registered members next := by
  have owns := holds.owns
  have room := holds.room
  have heard := holds.heard
  cases step_effect stepped with
  | accept ssl unborn nonNull unused =>
      have absent : Event.added action.session ∉ state.history := by
        intro member
        obtain ⟨found, lookup, _⟩ := recorded.accounted _ member
        have impossible := unborn.symm.trans lookup
        cases impossible
      refine ⟨members, owns.acquire unborn unused rfl ?_, room.accept unborn,
        heard.accept absent, holds.stray⟩
      simp [Session.Alive]
  | quiet found username phase accepting lookup moved named =>
      obtain ⟨before, after, stays⟩ := quiet_active moved
      refine ⟨members, owns.move lookup rfl (iff_of_true after before),
        room.move lookup rfl ?_, heard.move lookup rfl, holds.stray⟩
      intro member
      exact stays (room.active_of_mem member lookup)
  | add found lookup here => exact registered_add recorded holds lookup here
  | broadcast found notice lookup here =>
      refine ⟨members, owns.move lookup rfl ?_,
        (room.note (by simp) (by simp)).move lookup rfl ?_,
        (heard_broadcast holds _).move lookup rfl, stray_broadcast holds _⟩
      · simp [here, Session.Alive]
      · intro _
        cases notice <;> simp [Session.message, Phase.Active, Phase.rank]
  | save found message lookup here =>
      refine ⟨members, owns.move lookup rfl ?_,
        (room.note (by simp) (by simp)).move lookup rfl fun _ => next_active _,
        (heard.note fun _ => rfl).move lookup rfl, holds.stray⟩
      simp [here, Session.Alive, active_not_ended (next_active message.notice)]
  | replay found lookup here =>
      refine ⟨members, owns.move lookup rfl ?_,
        (room.note (by simp) (by simp)).move lookup rfl ?_,
        (heard.note fun _ => rfl).move lookup rfl, holds.stray⟩
      · simp [here, Session.Alive]
      · simp [Phase.Active, Phase.rank]
  | remove found lookup here =>
      have alive : Session.Alive found := by simp [here, Session.Alive]
      refine ⟨members.erase action.session, owns.move lookup rfl ?_,
        room.remove lookup rfl (unlisted_of_outsider holds lookup alive),
        (heard.note fun _ => rfl).move lookup rfl, holds.stray⟩
      simp [here, Session.Alive]
  | free found accepting lookup here =>
      refine ⟨members, owns.release lookup ?_ ?_, room.move lookup rfl ?_,
        heard.move lookup rfl, holds.stray⟩
      · rcases here with here | here <;> simp [here, Session.Alive]
      · simp [Session.Alive]
      · intro member
        have active := room.active_of_mem member lookup
        rcases here with here | here <;> simp [here, Phase.Active, Phase.rank] at active

theorem registered_run {actions : List Action} {final : State}
    (ran : run step initial actions = some final) : ∃ members, Registered members final := by
  have start : Recorded initial ∧ ∃ members, Registered members initial :=
    ⟨recorded_initial, [], registered_initial⟩
  have kept : ∀ state action next, (Recorded state ∧ ∃ members, Registered members state) →
      step state action = some next → Recorded next ∧ ∃ members, Registered members next := by
    intro state action next start stepped
    rcases start with ⟨recorded, members, holds⟩
    exact ⟨recorded_step recorded stepped, registered_step recorded holds stepped⟩
  exact (run_keeps_always kept start ran).2

theorem mem_heard_by {session : Nat} {ssl : Ssl} {history : List Event} {message : Message}
    (heard : message ∈ heardBy session ssl history) :
    Event.broadcast message ∈ history ∧ message.sender ≠ ssl := by
  obtain ⟨event, member, same⟩ := List.mem_filterMap.mp heard
  have recorded : event ∈ history := (between_sublist _ _ _).subset member
  cases event with
  | broadcast other =>
      simp only [Event.heardAs] at same
      split at same
      · cases same
      · rename_i apart
        cases same
        exact ⟨recorded, apart⟩
  | _ => cases same

/-- In every interleaving, `broadcast` writes to a session exactly the
broadcasts between its `add_client` and its `remove_client` by other senders,
in order and once each, never a session's own chat message, nothing to a
session that got no slot, and never to an address where no object lives. -/
theorem broadcast_delivery (actions : List Action) (final : State)
    (ran : run step initial actions = some final) :
    (∀ session found, final.sessions session = some found →
      final.live session = heardBy session found.ssl final.history) ∧
      (∀ session, Event.added session ∉ final.history → final.live session = []) ∧
      (∀ session message buffer, message ∈ final.live session →
        message.notice = .said buffer → message.author ≠ session) ∧
      final.stray = [] := by
  have recorded := recorded_run ran
  obtain ⟨members, holds⟩ := registered_run ran
  refine ⟨?_, ?_, ?_, holds.stray⟩
  · intro session found lookup
    have own : sslOf final.sessions session = found.ssl := key_of_some lookup
    rw [← own]
    exact holds.heard session
  · intro session absent
    rw [holds.heard session, heardBy, between_absent absent, List.filterMap_nil]
  · intro session message buffer received said own
    rw [holds.heard session] at received
    obtain ⟨broadcast, apart⟩ := mem_heard_by received
    obtain ⟨found, lookup, _, sender⟩ := recorded.accounted _ broadcast
    have lookupHere : final.sessions session = some found := own ▸ lookup
    rw [sslOf, key_of_some lookupHere, sender, said] at apart
    exact apart rfl

/-- A session that authenticates, joins and replays the log. -/
def join (session : Nat) (ssl : Ssl) (username : Bytes) : List Action :=
  [.accept session ssl, .handshake session true, .authenticate session (some username),
    .proceed session, .proceed session, .proceed session, .proceed session]

def twoSessionsChat : List Action :=
  join 0 1 (ascii "al") ++ join 1 2 (ascii "bo") ++
    [.receive 0 (some (ascii "hi")), .proceed 0, .proceed 0]

theorem broadcast_delivery_two_sessions :
    ∃ final, run step initial twoSessionsChat = some final ∧
      (final.live 1).map Message.text = [ascii "[SERVER]: bo joined the chat\n", ascii "al: hi"] ∧
      final.live 1 = heardBy 1 2 final.history ∧ final.stray = [] := by
  refine ⟨_, rfl, by decide, ?_⟩
  have delivery := broadcast_delivery twoSessionsChat _ rfl
  exact ⟨delivery.1 1 _ rfl, delivery.2.2.2⟩

end LinuxFff.TlsDelivery
