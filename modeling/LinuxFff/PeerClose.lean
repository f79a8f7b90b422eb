import LinuxFff.TlsDelivery

/-!
# Clients that close their connection to `server_tls_final.c`

A client may close its connection at any moment. The first write to a closed
connection resets it, and a write to a connection that is reset raises
`SIGPIPE`, which ends the process: no handler is installed. The steps of the
server are taken apart here into their writes; a broadcast writes at most once
to a client, so it stays one step.
-/

namespace LinuxFff.PeerClose

open LinuxFff.CString LinuxFff.ClientTables LinuxFff.Ownership
open LinuxFff.StepSystem LinuxFff.TlsDelivery LinuxFff.TlsHistory LinuxFff.TlsServer

set_option autoImplicit false

inductive Peer where
  | connected
  | closed
  | reset
  deriving DecidableEq

def Peer.write : Peer → Peer
  | .connected => .connected
  | .closed => .reset
  | .reset => .reset

/-- The places of `authenticate` and of the test of its result; a name is that
of the next call. `result` is what `authenticate` gives back. -/
inductive Stage where
  | menu
  | readMode
  | tryAgain
  | askUsername
  | readUsername
  | askPassword
  | readPassword
  | writeAuth (result : Option Bytes)
  | verdict (result : Option Bytes)
  | decided (result : Option Bytes)
  deriving DecidableEq

def Stage.write : Stage → Option Stage
  | .menu => some .readMode
  | .tryAgain => some .menu
  | .askUsername => some .readUsername
  | .askPassword => some .readPassword
  | .writeAuth result => some (.verdict result)
  | .verdict result => some (.decided result)
  | _ => none

/-- What an `SSL_read` of `authenticate` leads to: `mode` is the value of
`atoi`, `file` whether `users.txt` could be opened. Without the file,
`authenticate` returns 0 at once. -/
inductive Reply where
  | mode (mode : Int)
  | username
  | password (file : Bool) (result : Option Bytes)

def Stage.read : Stage → Reply → Option Stage
  | .readMode, .mode mode => some (if mode ≠ 1 ∧ mode ≠ 2 then .tryAgain else .askUsername)
  | .readUsername, .username => some .askPassword
  | .readPassword, .password file result =>
      some (if file then .writeAuth result else .verdict none)
  | _, _ => none

/-- `replayed` counts the writes of `send_chat_log` so far, `shutDown` tells
whether `SSL_shutdown` has been called. -/
structure Connection where
  peer : Peer
  stage : Stage
  replayed : Nat
  shutDown : Bool
  deriving DecidableEq

structure State where
  server : TlsServer.State
  connections : Nat → Connection
  alive : Bool

def initial : State where
  server := TlsServer.initial
  connections := fun _ => ⟨.connected, .menu, 0, false⟩
  alive := true

inductive Action where
  | close (session : Nat)
  | write (session : Nat)
  | read (session : Nat) (reply : Reply)
  | replay (session : Nat)
  | shutdown (session : Nat)
  | call (action : TlsServer.Action)

def State.connect (state : State) (session : Nat) (connection : Connection) : State :=
  { state with connections := Function.update state.connections session connection }

/-- One `SSL_write`, or the `close_notify` of `SSL_shutdown`. -/
def State.write (state : State) (session : Nat) : State :=
  let connection := state.connections session
  { state.connect session { connection with peer := connection.peer.write } with
    alive := state.alive && decide (connection.peer ≠ .reset) }

def State.writeAll (state : State) (sessions : List Nat) : State :=
  sessions.foldl State.write state

def State.goTo (state : State) (session : Nat) (stage : Stage) : State :=
  state.connect session { state.connections session with stage }

def phaseOf (state : State) (session : Nat) : Option Phase :=
  (state.server.sessions session).map Session.phase

def targets (server : TlsServer.State) : TlsServer.Action → List Nat
  | .proceed session =>
      match server.sessions session with
      | some found =>
          match found.phase with
          | .broadcasting notice =>
              (recipients (notice.sender found.ssl) server.clients).filterMap server.heap
          | _ => []
      | none => []
  | .accept _ _ | .handshake _ _ | .authenticate _ _ | .receive _ _ => []

/-- The thread has made the writes that come before the step: `authenticate` is
over, `send_chat_log` is at the end of the file, `SSL_shutdown` has returned. -/
def Ready (state : State) : TlsServer.Action → Prop
  | .authenticate session result => (state.connections session).stage = .decided result
  | .proceed session =>
      (phaseOf state session = some .replaying →
        (replayWrites (logFile state.server.chatlog)).length ≤
          (state.connections session).replayed) ∧
      (phaseOf state session = some .freeing → (state.connections session).shutDown = true)
  | .accept _ _ | .handshake _ _ | .receive _ _ => True

instance (state : State) (call : TlsServer.Action) : Decidable (Ready state call) :=
  match call with
  | .authenticate session result =>
      inferInstanceAs (Decidable ((state.connections session).stage = .decided result))
  | .proceed _ => inferInstanceAs (Decidable (_ ∧ _))
  | .accept _ _ | .handshake _ _ | .receive _ _ => isTrue trivial

/-- The steps of a process that is there. -/
def liveStep (state : State) : Action → Option State
  | .close session =>
      if phaseOf state session ≠ none ∧ (state.connections session).peer = .connected then
        some (state.connect session { state.connections session with peer := .closed })
      else none
  | .write session =>
      if phaseOf state session = some .authenticating then
        (state.connections session).stage.write.map ((state.write session).goTo session)
      else none
  | .read session reply =>
      if phaseOf state session = some .authenticating then
        ((state.connections session).stage.read reply).map (state.goTo session)
      else none
  | .replay session =>
      let connection := state.connections session
      if phaseOf state session = some .replaying ∧
          connection.replayed < (replayWrites (logFile state.server.chatlog)).length then
        let next := state.write session
        some (next.connect session
          { next.connections session with replayed := connection.replayed + 1 })
      else none
  | .shutdown session =>
      if phaseOf state session = some .freeing ∧
          (state.connections session).shutDown = false then
        let next := state.write session
        some (next.connect session { next.connections session with shutDown := true })
      else none
  | .call call =>
      if Ready state call then
        (TlsServer.step state.server call).map fun server =>
          { state with server }.writeAll (targets state.server call)
      else none

def step (state : State) (action : Action) : Option State :=
  if state.alive then liveStep state action else none

/-- The thread has at most its `SSL_shutdown` left to write to its own client. -/
def Finishing (clients : List Client) (stage : Stage) (found : Session) : Prop :=
  found.phase = .handshake ∨ found.phase = .authenticating ∧ stage = .decided none ∨
    6 ≤ found.phase.rank ∧ found.ssl ∉ activeSsls clients ∨ 8 ≤ found.phase.rank

instance (clients : List Client) (stage : Stage) (found : Session) :
    Decidable (Finishing clients stage found) :=
  inferInstanceAs (Decidable (_ ∨ _ ∧ _ ∨ _ ∧ _ ∨ _))

/-- A client closes while its thread has no write but `SSL_shutdown` left, no
broadcast finds a client that has closed after its leave line and still has its
slot, and no handshake succeeds with a client that has closed. -/
def Timely (state : State) : Action → Prop
  | .close session => ∀ found ∈ state.server.sessions session,
      Finishing state.server.clients (state.connections session).stage found
  | .call (.handshake session true) => (state.connections session).peer ≠ .closed
  | .call (.proceed session) => ∀ target ∈ targets state.server (.proceed session),
      ∀ found ∈ state.server.sessions target, 8 ≤ found.phase.rank →
        (state.connections target).peer ≠ .closed
  | _ => True

instance (state : State) (action : Action) : Decidable (Timely state action) :=
  match action with
  | .close session => inferInstanceAs (Decidable (∀ found ∈ state.server.sessions session, _))
  | .call (.handshake _ true) => inferInstanceAs (Decidable (_ ≠ _))
  | .call (.proceed session) => inferInstanceAs (Decidable (∀ target ∈
      targets state.server (.proceed session), ∀ found ∈ state.server.sessions target, _ → _ ≠ _))
  | .call (.handshake _ false) | .call (.accept _ _) | .call (.authenticate _ _)
  | .call (.receive _ _) | .write _ | .read _ _ | .replay _ | .shutdown _ => isTrue trivial

/-- What a connection that is not open says about its session. -/
structure Sound (clients : List Client) (connection : Connection) (found : Session) : Prop where
  closed : connection.peer = .closed → Finishing clients connection.stage found
  reset : connection.peer = .reset → connection.shutDown = true
  shutDown : connection.shutDown = true → 10 ≤ found.phase.rank

structure Safe (state : State) : Prop where
  recorded : Recorded state.server
  registered : ∃ members, Registered members state.server
  alive : state.alive = true
  unborn : ∀ session, state.server.sessions session = none →
    state.connections session = ⟨.connected, .menu, 0, false⟩
  sound : ∀ session found, state.server.sessions session = some found →
    Sound state.server.clients (state.connections session) found

theorem safe_initial : Safe initial where
  recorded := recorded_initial
  registered := ⟨[], registered_initial⟩
  alive := rfl
  unborn := fun _ _ => rfl
  sound := by
    intro session found impossible
    cases impossible

theorem phase_of_some {state : State} {session : Nat} {phase : Phase}
    (here : phaseOf state session = some phase) :
    ∃ found, state.server.sessions session = some found ∧ found.phase = phase :=
  Option.map_eq_some_iff.mp here

section Connections

variable {state : State} {session : Nat} {found : Session} {connection : Connection}

theorem write_connected (connected : (state.connections session).peer = .connected) :
    state.write session = state := by
  have same : { state.connections session with peer := Peer.connected } =
      state.connections session := by rw [← connected]
  simp only [State.write, State.connect, connected, Peer.write, same, Function.update_eq_self]
  simp

theorem write_all_connected {sessions : List Nat}
    (connected : ∀ session ∈ sessions, (state.connections session).peer = .connected) :
    state.writeAll sessions = state := by
  induction sessions with
  | nil => rfl
  | cons session rest ih =>
      have first : state.write session = state := write_connected (connected session (by simp))
      have unfolded : state.writeAll (session :: rest) =
          (state.write session).writeAll rest := rfl
      rw [unfolded, first]
      exact ih fun other member => connected other (by simp [member])

theorem write_connect (notReset : (state.connections session).peer ≠ .reset) :
    (state.write session).connect session connection = state.connect session connection := by
  simp [State.write, State.connect, notReset]

theorem sound_connected {clients : List Client} (connected : connection.peer = .connected)
    (shutDown : connection.shutDown = true → 10 ≤ found.phase.rank) :
    Sound clients connection found where
  closed := by simp [connected]
  reset := by simp [connected]
  shutDown := shutDown

theorem Safe.connected (safe : Safe state) (lookup : state.server.sessions session = some found)
    (busy : ¬Finishing state.server.clients (state.connections session).stage found)
    (early : found.phase.rank < 10) : (state.connections session).peer = .connected := by
  have sound := safe.sound session found lookup
  cases peer : (state.connections session).peer with
  | connected => rfl
  | closed => exact absurd (sound.closed peer) busy
  | reset =>
      have late := sound.shutDown (sound.reset peer)
      omega

theorem Safe.connect (safe : Safe state) (lookup : state.server.sessions session = some found)
    (sound : Sound state.server.clients connection found) :
    Safe (state.connect session connection) where
  recorded := safe.recorded
  registered := safe.registered
  alive := safe.alive
  unborn := by
    intro other unborn
    have apart : other ≠ session := by
      intro same
      rw [same] at unborn
      have impossible := lookup.symm.trans unborn
      cases impossible
    exact (Function.update_of_ne apart _ _).trans (safe.unborn other unborn)
  sound := by
    intro other result otherLookup
    by_cases same : other = session
    · rw [same] at otherLookup
      have equal := lookup.symm.trans otherLookup
      cases equal
      have here : (state.connect session connection).connections session = connection :=
        Function.update_self _ _ _
      rw [same, here]
      exact sound
    · have kept : (state.connect session connection).connections other =
          state.connections other := Function.update_of_ne same _ _
      rw [kept]
      exact safe.sound other result otherLookup

end Connections

section Steps

variable {state next : State} {session : Nat} {found : Session}

theorem safe_close (safe : Safe state) (timely : Timely state (.close session))
    (stepped : liveStep state (.close session) = some next) : Safe next := by
  simp only [liveStep, Option.ite_none_right_eq_some, Option.some.injEq] at stepped
  obtain ⟨⟨started, _⟩, same⟩ := stepped
  subst same
  cases lookup : state.server.sessions session with
  | none => simp [phaseOf, lookup] at started
  | some found =>
      apply safe.connect lookup
      constructor
      case closed => exact fun _ => timely found lookup
      case reset => simp
      case shutDown => exact (safe.sound session found lookup).shutDown

/-- While it authenticates and has not been rejected, a session's connection is open. -/
theorem connected_authenticating (safe : Safe state)
    (lookup : state.server.sessions session = some found) (here : found.phase = .authenticating)
    (undecided : (state.connections session).stage ≠ .decided none) :
    (state.connections session).peer = .connected := by
  apply safe.connected lookup
  · simp [Finishing, here, Phase.rank, undecided]
  · simp [here, Phase.rank]

theorem safe_write (safe : Safe state)
    (stepped : liveStep state (.write session) = some next) : Safe next := by
  simp only [liveStep, Option.ite_none_right_eq_some, Option.map_eq_some_iff] at stepped
  obtain ⟨here, stage, written, same⟩ := stepped
  obtain ⟨found, lookup, phase⟩ := phase_of_some here
  have undecided : (state.connections session).stage ≠ .decided none := by
    intro decided
    simp [decided, Stage.write] at written
  have connected := connected_authenticating safe lookup phase undecided
  rw [write_connected connected] at same
  subst same
  apply safe.connect lookup
  exact sound_connected connected (safe.sound session found lookup).shutDown

theorem safe_read (safe : Safe state) {reply : Reply}
    (stepped : liveStep state (.read session reply) = some next) : Safe next := by
  simp only [liveStep, Option.ite_none_right_eq_some, Option.map_eq_some_iff] at stepped
  obtain ⟨here, stage, read, same⟩ := stepped
  subst same
  obtain ⟨found, lookup, phase⟩ := phase_of_some here
  have undecided : (state.connections session).stage ≠ .decided none := by
    intro decided
    simp [decided, Stage.read] at read
  have connected := connected_authenticating safe lookup phase undecided
  apply safe.connect lookup
  exact sound_connected connected (safe.sound session found lookup).shutDown

theorem safe_replay (safe : Safe state)
    (stepped : liveStep state (.replay session) = some next) : Safe next := by
  simp only [liveStep, Option.ite_none_right_eq_some, Option.some.injEq] at stepped
  obtain ⟨⟨here, _⟩, same⟩ := stepped
  obtain ⟨found, lookup, phase⟩ := phase_of_some here
  have connected : (state.connections session).peer = .connected := by
    apply safe.connected lookup
    · simp [Finishing, phase, Phase.rank]
    · simp [phase, Phase.rank]
  rw [write_connected connected] at same
  subst same
  apply safe.connect lookup
  exact sound_connected connected (safe.sound session found lookup).shutDown

/-- The one write that may reset the connection, as nothing is written after it. -/
theorem safe_shutdown (safe : Safe state)
    (stepped : liveStep state (.shutdown session) = some next) : Safe next := by
  simp only [liveStep, Option.ite_none_right_eq_some, Option.some.injEq] at stepped
  obtain ⟨⟨here, first⟩, same⟩ := stepped
  obtain ⟨found, lookup, phase⟩ := phase_of_some here
  have notReset : (state.connections session).peer ≠ .reset := by
    intro reset
    have shutDown := (safe.sound session found lookup).reset reset
    rw [first] at shutDown
    cases shutDown
  rw [write_connect notReset] at same
  subst same
  apply safe.connect lookup
  constructor
  case closed => simp [Finishing, phase, Phase.rank]
  case reset => exact fun _ => rfl
  case shutDown => simp [phase, Phase.rank]

end Steps

section Calls

variable {server next : TlsServer.State} {session : Nat} {found : Session}

theorem effect_unlisted (effect : Effect server session next) {other : Nat}
    (owns : Owns server.sessions Session.ssl Session.Alive server.heap)
    (lookup : server.sessions other = some found) (alive : Session.Alive found)
    (late : 6 ≤ found.phase.rank) (unlisted : found.ssl ∉ activeSsls server.clients) :
    found.ssl ∉ activeSsls next.clients := by
  cases effect with
  | add result known here =>
      have apart : found.ssl ≠ result.ssl := by
        intro same
        have resultAlive : Session.Alive result := by simp [Session.Alive, here]
        have owner := owns.held other found lookup alive
        rw [same, owns.held session result known resultAlive] at owner
        cases owner
        rw [known] at lookup
        cases lookup
        simp [here, Phase.rank] at late
      unfold TlsServer.State.addClient
      split
      · rename_i slot table added
        intro listed
        rcases List.mem_cons.mp ((add_client_some added).1.mem_iff.mp listed) with same | old
        · exact apart same
        · exact unlisted old
      · exact unlisted
  | remove result known here =>
      intro listed
      have shrunk : found.ssl ∈ activeSsls (removeClient result.ssl server.clients) := listed
      rw [remove_client_active] at shrunk
      exact unlisted (List.mem_of_mem_erase shrunk)
  | accept ssl unborn nonNull unused => exact unlisted
  | quiet result username phase accepting known moves named => exact unlisted
  | broadcast result notice known here => exact unlisted
  | save result message known here => exact unlisted
  | replay result known here => exact unlisted
  | free result accepting known here => exact unlisted

end Calls

section Server

variable {state next : State} {server : TlsServer.State} {call : TlsServer.Action}

theorem target_listed (safe : Safe state) {target : Nat}
    (member : target ∈ targets state.server call) :
    ∃ found, state.server.sessions target = some found ∧ found.phase.Active ∧
      found.ssl ∈ activeSsls state.server.clients := by
  obtain ⟨members, registered⟩ := safe.registered
  cases call with
  | proceed session =>
      simp only [targets] at member
      split at member
      · split at member
        · obtain ⟨ssl, isRecipient, owner⟩ := List.mem_filterMap.mp member
          rw [recipients_filter] at isRecipient
          have listed := List.mem_of_mem_filter isRecipient
          obtain ⟨found, lookup, same, alive⟩ := registered.owns.owned ssl target owner
          rw [← same] at listed
          have present : target ∈ members := by
            by_contra outsider
            exact unlisted_of_outsider registered lookup alive outsider listed
          exact ⟨found, lookup, registered.room.active_of_mem present lookup, listed⟩
        · cases member
      · cases member
  | _ => cases member

theorem targets_connected (safe : Safe state) (timely : Timely state (.call call)) :
    ∀ target ∈ targets state.server call, (state.connections target).peer = .connected := by
  intro target member
  obtain ⟨found, lookup, active, listed⟩ := target_listed safe member
  have sound := safe.sound target found lookup
  cases peer : (state.connections target).peer with
  | connected => rfl
  | reset =>
      have late := sound.shutDown (sound.reset peer)
      have early := active.2
      omega
  | closed =>
      cases call with
      | proceed session =>
          rcases sound.closed peer with here | ⟨here, _⟩ | ⟨_, unlisted⟩ | last
          · simp [here, Phase.Active, Phase.rank] at active
          · simp [here, Phase.Active, Phase.rank] at active
          · exact absurd listed unlisted
          · exact absurd peer (timely target member found lookup last)
      | _ => cases member

theorem early_call (stepped : TlsServer.step state.server call = some server) {found : Session}
    (lookup : state.server.sessions call.session = some found) :
    (found.phase = .handshake → ∃ success, call = .handshake call.session success) ∧
      (found.phase = .authenticating → ∃ result, call = .authenticate call.session result) := by
  cases call with
  | accept session ssl =>
      have impossible := lookup.symm.trans (accept_cases stepped).1
      cases impossible
  | handshake session success =>
      obtain ⟨result, known, here, _⟩ := handshake_cases stepped
      cases lookup.symm.trans known
      exact ⟨fun _ => ⟨success, rfl⟩, by simp [here]⟩
  | authenticate session result =>
      obtain ⟨result, known, here, _⟩ := authenticate_cases stepped
      cases lookup.symm.trans known
      exact ⟨by simp [here], fun _ => ⟨_, rfl⟩⟩
  | receive session record =>
      obtain ⟨result, known, here, _⟩ := receive_cases stepped
      cases lookup.symm.trans known
      exact ⟨by simp [here], by simp [here]⟩
  | proceed session =>
      obtain ⟨result, known, proceeded⟩ := proceed_cases stepped
      cases lookup.symm.trans known
      constructor
      · intro here
        simp [proceed, here] at proceeded
      · intro here
        simp [proceed, here] at proceeded

theorem slotless_call (safe : Safe state)
    (stepped : TlsServer.step state.server call = some server) {other : Nat} {found : Session}
    (lookup : state.server.sessions other = some found) (late : 6 ≤ found.phase.rank)
    (unlisted : found.ssl ∉ activeSsls state.server.clients) :
    8 ≤ found.phase.rank ∨ found.ssl ∉ activeSsls server.clients := by
  obtain ⟨members, registered⟩ := safe.registered
  by_cases last : 8 ≤ found.phase.rank
  · exact Or.inl last
  · have alive : Session.Alive found := by
      intro same
      simp [same, Phase.rank] at last
    exact Or.inr
      (effect_unlisted (step_effect stepped) registered.owns lookup alive late unlisted)

theorem finishing_call (safe : Safe state) (timely : Timely state (.call call))
    (ready : Ready state call) (stepped : TlsServer.step state.server call = some server)
    {found moved : Session} (lookup : state.server.sessions call.session = some found)
    (after : server.sessions call.session = some moved)
    (rank : found.phase.rank ≤ moved.phase.rank) (ssl : moved.ssl = found.ssl)
    (closed : (state.connections call.session).peer = .closed) :
    Finishing server.clients (state.connections call.session).stage moved := by
  have early := early_call stepped lookup
  rcases (safe.sound _ found lookup).closed closed with here | ⟨here, decided⟩ |
      ⟨late, unlisted⟩ | last
  · obtain ⟨success, handshake⟩ := early.1 here
    rw [handshake] at timely stepped
    obtain ⟨result, _, _, ⟨succeeds, _⟩ | ⟨_, same⟩⟩ := handshake_cases stepped
    · rw [succeeds] at timely
      exact absurd closed timely
    · subst same
      cases (Function.update_self _ _ _).symm.trans after
      simp [Finishing, Phase.rank]
  · obtain ⟨result, authenticate⟩ := early.2 here
    rw [authenticate] at ready stepped
    have rejected : none = result := Stage.decided.inj (decided.symm.trans ready)
    obtain ⟨reached, _, _, ⟨_, same⟩ | ⟨name, admitted, _⟩⟩ := authenticate_cases stepped
    · subst same
      cases (Function.update_self _ _ _).symm.trans after
      simp [Finishing, Phase.rank]
    · rw [admitted] at rejected
      cases rejected
  · rcases slotless_call safe stepped lookup late unlisted with last | still
    · exact Or.inr (Or.inr (Or.inr (Nat.le_trans last rank)))
    · exact Or.inr (Or.inr (Or.inl ⟨Nat.le_trans late rank, ssl ▸ still⟩))
  · exact Or.inr (Or.inr (Or.inr (Nat.le_trans last rank)))

theorem finishing_other (safe : Safe state)
    (stepped : TlsServer.step state.server call = some server) {other : Nat} {found : Session}
    {stage : Stage} (lookup : state.server.sessions other = some found)
    (finishing : Finishing state.server.clients stage found) :
    Finishing server.clients stage found := by
  rcases finishing with here | decided | ⟨late, unlisted⟩ | last
  · exact Or.inl here
  · exact Or.inr (Or.inl decided)
  · rcases slotless_call safe stepped lookup late unlisted with last | still
    · exact Or.inr (Or.inr (Or.inr last))
    · exact Or.inr (Or.inr (Or.inl ⟨late, still⟩))
  · exact Or.inr (Or.inr (Or.inr last))

theorem safe_call (safe : Safe state) (timely : Timely state (.call call))
    (stepped : liveStep state (.call call) = some next) : Safe next := by
  simp only [liveStep, Option.ite_none_right_eq_some, Option.map_eq_some_iff] at stepped
  obtain ⟨ready, server, called, same⟩ := stepped
  obtain ⟨moved, sessions, kept⟩ := effect_sessions (step_effect called)
  have quiet : { state with server }.writeAll (targets state.server call) =
      { state with server } := write_all_connected (targets_connected safe timely)
  rw [quiet] at same
  subst same
  obtain ⟨members, registered⟩ := safe.registered
  constructor
  case recorded => exact recorded_step safe.recorded called
  case registered => exact registered_step safe.recorded registered called
  case alive => exact safe.alive
  case unborn =>
    intro other unborn
    apply safe.unborn other
    by_cases own : other = call.session
    · simp [sessions, own] at unborn
    · simpa [sessions, Function.update_of_ne own] using unborn
  case sound =>
    have after : server.sessions call.session = some moved := by
      rw [sessions, Function.update_self]
    refine forall_update ?_ sessions ?_
    · intro other found lookup
      have before := safe.sound other found lookup
      exact ⟨fun closed => finishing_other safe called lookup (before.closed closed),
        before.reset, before.shutDown⟩
    · cases lookup : state.server.sessions call.session with
      | none =>
          have fresh := safe.unborn call.session lookup
          apply sound_connected
          · simp [fresh]
          · simp [fresh]
      | some found =>
          have before := safe.sound call.session found lookup
          obtain ⟨rank, ssl⟩ := kept found lookup
          constructor
          case closed => exact finishing_call safe timely ready called lookup after rank ssl
          case reset => exact before.reset
          case shutDown => exact fun shutDown => Nat.le_trans (before.shutDown shutDown) rank

theorem safe_step {action : Action} (safe : Safe state) (timely : Timely state action)
    (stepped : step state action = some next) : Safe next := by
  simp only [step, safe.alive, if_true] at stepped
  cases action with
  | close session => exact safe_close safe timely stepped
  | write session => exact safe_write safe stepped
  | read session reply => exact safe_read safe stepped
  | replay session => exact safe_replay safe stepped
  | shutdown session => exact safe_shutdown safe stepped
  | call call => exact safe_call safe timely stepped

end Server

section Others

variable {state next : State} {session other : Nat}

theorem write_keeps_connected (connected : (state.connections other).peer = .connected) :
    ((state.write session).connections other).peer = .connected := by
  by_cases same : other = session
  · rw [same] at connected
    rw [same, write_connected connected]
    exact connected
  · have kept : (state.write session).connections other = state.connections other :=
      Function.update_of_ne same _ _
    rw [kept]
    exact connected

theorem write_all_keeps_connected {sessions : List Nat}
    (connected : (state.connections other).peer = .connected) :
    ((state.writeAll sessions).connections other).peer = .connected := by
  induction sessions generalizing state with
  | nil => exact connected
  | cons session rest ih => exact ih (write_keeps_connected connected)

theorem connect_keeps_connected {connection : Connection}
    (connected : (state.connections other).peer = .connected)
    (kept : other = session → connection.peer = .connected) :
    ((state.connect session connection).connections other).peer = .connected := by
  by_cases same : other = session
  · rw [same]
    exact (congrArg Connection.peer (Function.update_self _ _ _)).trans (kept same)
  · exact (congrArg Connection.peer (Function.update_of_ne same _ _)).trans connected

theorem connected_step {action : Action} (connected : (state.connections other).peer = .connected)
    (stays : action ≠ .close other) (stepped : step state action = some next) :
    (next.connections other).peer = .connected := by
  have written : ∀ session, ((state.write session).connections other).peer = .connected :=
    fun _ => write_keeps_connected connected
  simp only [step, Option.ite_none_right_eq_some] at stepped
  replace stepped := stepped.2
  cases action with
  | close session =>
      simp only [liveStep, Option.ite_none_right_eq_some, Option.some.injEq] at stepped
      rw [← stepped.2]
      exact connect_keeps_connected connected fun same => absurd (same ▸ rfl) stays
  | write session =>
      simp only [liveStep, Option.ite_none_right_eq_some, Option.map_eq_some_iff] at stepped
      obtain ⟨_, stage, _, same⟩ := stepped
      rw [← same]
      exact connect_keeps_connected (written session) fun own => own ▸ written session
  | read session reply =>
      simp only [liveStep, Option.ite_none_right_eq_some, Option.map_eq_some_iff] at stepped
      obtain ⟨_, stage, _, same⟩ := stepped
      rw [← same]
      exact connect_keeps_connected connected fun own => own ▸ connected
  | replay session =>
      simp only [liveStep, Option.ite_none_right_eq_some, Option.some.injEq] at stepped
      rw [← stepped.2]
      exact connect_keeps_connected (written session) fun own => own ▸ written session
  | shutdown session =>
      simp only [liveStep, Option.ite_none_right_eq_some, Option.some.injEq] at stepped
      rw [← stepped.2]
      exact connect_keeps_connected (written session) fun own => own ▸ written session
  | call call =>
      simp only [liveStep, Option.ite_none_right_eq_some, Option.map_eq_some_iff] at stepped
      obtain ⟨_, server, _, same⟩ := stepped
      rw [← same]
      exact write_all_keeps_connected connected

end Others

/-- When clients close in time, no write finds a reset connection and the
process goes on; the clients that did not close stay connected. -/
theorem server_survives (actions : List Action) (final : State)
    (timely : Meets step Timely initial actions)
    (ran : run step initial actions = some final) :
    final.alive = true ∧ ∀ session, Action.close session ∉ actions →
      (final.connections session).peer = .connected := by
  constructor
  · have safe : Safe final := run_keeps
      (fun _ _ _ safe timely stepped => safe_step safe timely stepped) safe_initial timely ran
    exact safe.alive
  · intro session stays
    have others : Meets step (fun _ action => action ≠ .close session) initial actions := by
      apply meets_of_actions
      intro action member state same
      exact stays (same ▸ member)
    have start : (initial.connections session).peer = .connected := rfl
    have kept : ∀ state action next, (state.connections session).peer = .connected →
        action ≠ .close session → step state action = some next →
        (next.connections session).peer = .connected :=
      fun _ _ _ connected stays stepped => connected_step connected stays stepped
    exact run_keeps kept start others ran

/-- A login up to the last write of the thread about it. -/
def logIn (session : Nat) (ssl : Ssl) (result : Option Bytes) : List Action :=
  [.call (.accept session ssl), .call (.handshake session true), .write session,
    .read session (.mode 1), .write session, .read session .username, .write session,
    .read session (.password true result), .write session, .write session,
    .call (.authenticate session result)]

/-- From `add_client` to the end of the replay of the one line of the log. -/
def enter (session : Nat) : List Action :=
  [.call (.proceed session), .call (.proceed session), .call (.proceed session),
    .replay session, .call (.proceed session)]

/-- The client of a rejected login closes before `SSL_shutdown`. -/
def rejectedCloses : List Action :=
  logIn 0 1 none ++ [.close 0, .shutdown 0, .call (.proceed 0)]

theorem server_survives_rejected_close :
    ∃ final, run step initial rejectedCloses = some final ∧
      (final.connections 0).peer = .reset ∧ final.alive = true := by
  refine ⟨_, rfl, by decide, ?_⟩
  exact (server_survives rejectedCloses _ (by decide) rfl).1

/-- The client closes while it chats: the leave line resets its connection, and
`SSL_shutdown` writes to it again. -/
def chattingCloses : List Action :=
  logIn 0 1 (some (ascii "al")) ++ enter 0 ++ logIn 1 2 (some (ascii "bo")) ++
    [.close 0, .call (.receive 0 none), .call (.proceed 0), .call (.proceed 0),
      .call (.proceed 0), .shutdown 0]

theorem leaving_client_stops_server :
    ∃ final, run step initial chattingCloses = some final ∧
      (final.connections 0).peer = .reset ∧ (final.connections 1).peer = .connected ∧
      final.alive = false := by
  exact ⟨_, rfl, by decide, by decide, by decide⟩

end LinuxFff.PeerClose
