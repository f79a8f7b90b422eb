import LinuxFff.CString
import LinuxFff.ClientTables
import LinuxFff.EventOrder
import LinuxFff.Roster
import LinuxFff.StepSystem

/-!
# The chat of `server_tls_final.c`

`main` accepts a connection, makes an `SSL` object for it and starts a
`handle_client` thread once `SSL_accept` has succeeded. A thread authenticates,
calls `add_client`, broadcasts and saves its join line, replays `chatlog.txt`,
broadcasts and saves every record that it reads, broadcasts and saves its leave
line, calls `remove_client` and frees its object. A step of the model is one
critical section or one file operation of one thread, so a list of actions is
an interleaving of the threads.

`history` lists the critical sections and file operations in the order in which
they ran, and messages carry their author and a number: neither is part of the
program, and no step reads them. What `authenticate` decides is left open here,
and so is every address that `SSL_new` may return among those not in use.
-/

namespace LinuxFff.TlsServer

open LinuxFff.CString LinuxFff.ClientTables LinuxFff.EventOrder LinuxFff.Roster
open LinuxFff.StepSystem

set_option autoImplicit false

/-- What a thread broadcasts and then saves; `buffer` is the memory that starts
with the record read. -/
inductive Notice where
  | joined
  | said (buffer : Bytes)
  | left
  deriving DecidableEq

/-- `join_msg`, `msg` and `leave_msg`. -/
def Notice.text (username : Bytes) : Notice → Bytes
  | .joined => snprintf 150 (ascii "[SERVER]: " ++ username ++ ascii " joined the chat\n")
  | .said buffer => snprintf 1100 (username ++ ascii ": " ++ cstr buffer)
  | .left => snprintf 150 (ascii "[SERVER]: " ++ username ++ ascii " left the chat\n")

/-- The second argument of the `broadcast` call. -/
def Notice.sender (ssl : Ssl) : Notice → Ssl
  | .joined => null
  | .said _ => ssl
  | .left => null

structure Message where
  author : Nat
  seq : Nat
  notice : Notice
  text : Bytes
  sender : Ssl
  deriving DecidableEq

def logFile (chatlog : List Message) : Bytes := chatlog.flatMap Message.text

inductive Phase where
  | handshake
  | authenticating
  | adding
  | broadcasting (notice : Notice)
  | saving (message : Message)
  | replaying
  | reading
  | removing
  | freeing
  | ended
  deriving DecidableEq

def Notice.next : Notice → Phase
  | .joined => .replaying
  | .said _ => .reading
  | .left => .removing

structure Session where
  ssl : Ssl
  username : Bytes
  phase : Phase
  sent : Nat
  deriving DecidableEq

def Session.message (found : Session) (session : Nat) (notice : Notice) : Message :=
  ⟨session, found.sent, notice, notice.text found.username, notice.sender found.ssl⟩

inductive Event where
  | added (session : Nat)
  | refused (session : Nat)
  | broadcast (message : Message)
  | saved (message : Message)
  | replayed (session : Nat)
  | removed (session : Nat)
  deriving DecidableEq

/-- `heap` gives the session that a live `SSL` object belongs to; `live` is
what `broadcast` has written to a session's object, `stray` lists the addresses
that it has written to while no object lived there, `replayed` is what
`send_chat_log` has written. -/
structure State where
  sessions : Nat → Option Session
  accepting : Option Nat
  heap : Ssl → Option Nat
  clients : List Client
  live : Nat → List Message
  stray : List Ssl
  chatlog : List Message
  replayed : Nat → List Message
  history : List Event

def initial : State where
  sessions := fun _ => none
  accepting := none
  heap := fun _ => none
  clients := emptyClients
  live := fun _ => []
  stray := []
  chatlog := []
  replayed := fun _ => []
  history := []

inductive Action where
  | accept (session : Nat) (ssl : Ssl)
  | handshake (session : Nat) (success : Bool)
  | authenticate (session : Nat) (result : Option Bytes)
  | receive (session : Nat) (record : Option Bytes)
  | proceed (session : Nat)

def Action.session : Action → Nat
  | .accept session _ => session
  | .handshake session _ => session
  | .authenticate session _ => session
  | .receive session _ => session
  | .proceed session => session

def State.move (state : State) (session : Nat) (found : Session) : State :=
  { state with sessions := Function.update state.sessions session (some found) }

def State.note (state : State) (event : Event) : State :=
  { state with history := state.history ++ [event] }

def State.broadcast (state : State) (message : Message) : State :=
  let targets := recipients message.sender state.clients
  { state.note (.broadcast message) with
    live := writeAll state.heap message state.live targets
    stray := state.stray ++ targets.filter fun ssl => state.heap ssl = none }

def State.saveChatLog (state : State) (message : Message) : State :=
  { state.note (.saved message) with chatlog := state.chatlog ++ [message] }

def State.sendChatLog (state : State) (session : Nat) : State :=
  { state.note (.replayed session) with
    replayed := Function.update state.replayed session state.chatlog }

/-- The slot that `add_client` returns is not used by `handle_client`. -/
def State.addClient (state : State) (session : Nat) (found : Session) : State :=
  match ClientTables.addClient found.ssl found.username state.clients with
  | some (_, table) => { state.note (.added session) with clients := table }
  | none => state.note (.refused session)

theorem add_client_cases (state : State) (session : Nat) (found : Session) :
    ∃ clients event, (event = .added session ∨ event = .refused session) ∧
      state.addClient session found = { state.note event with clients } := by
  unfold State.addClient
  split
  · exact ⟨_, .added session, Or.inl rfl, rfl⟩
  · exact ⟨state.clients, .refused session, Or.inr rfl, rfl⟩

def State.removeClient (state : State) (session : Nat) (ssl : Ssl) : State :=
  { state.note (.removed session) with clients := ClientTables.removeClient ssl state.clients }

def State.sslFree (state : State) (ssl : Ssl) : State :=
  { state with heap := Function.update state.heap ssl none }

/-- The steps of `handle_client` that read nothing from the client. -/
def proceed (state : State) (session : Nat) (found : Session) : Option State :=
  match found.phase with
  | .adding => some ((state.addClient session found).move session
      { found with phase := .broadcasting .joined })
  | .broadcasting notice => some ((state.broadcast (found.message session notice)).move session
      { found with phase := .saving (found.message session notice), sent := found.sent + 1 })
  | .saving message => some ((state.saveChatLog message).move session
      { found with phase := message.notice.next })
  | .replaying => some ((state.sendChatLog session).move session { found with phase := .reading })
  | .removing => some ((state.removeClient session found.ssl).move session
      { found with phase := .freeing })
  | .freeing => some ((state.sslFree found.ssl).move session { found with phase := .ended })
  | _ => none

def step (state : State) : Action → Option State
  | .accept session ssl =>
      if state.sessions session = none ∧ state.accepting = none ∧ ssl ≠ null ∧
          state.heap ssl = none then
        some { state.move session ⟨ssl, [], .handshake, 0⟩ with
          accepting := some session
          heap := Function.update state.heap ssl (some session) }
      else none
  | .handshake session success =>
      match state.sessions session with
      | none => none
      | some found =>
          if found.phase = .handshake then
            if success then
              some { state.move session { found with phase := .authenticating } with
                accepting := none }
            else some { (state.sslFree found.ssl).move session { found with phase := .ended } with
                accepting := none }
          else none
  | .authenticate session result =>
      match state.sessions session with
      | none => none
      | some found =>
          if found.phase = .authenticating then
            match result with
            | none => some (state.move session { found with phase := .freeing })
            | some username => some (state.move session
                { found with username := (cstr username).take 50, phase := .adding })
          else none
  | .receive session record =>
      match state.sessions session with
      | none => none
      | some found =>
          if found.phase = .reading then
            match record with
            | none => some (state.move session { found with phase := .broadcasting .left })
            | some buffer => some (state.move session
                { found with phase := .broadcasting (.said buffer) })
          else none
  | .proceed session =>
      match state.sessions session with
      | none => none
      | some found => proceed state session found

def Phase.rank : Phase → Nat
  | .handshake => 0
  | .authenticating => 1
  | .adding => 2
  | .broadcasting .joined => 3
  | .saving ⟨_, _, .joined, _, _⟩ => 4
  | .replaying => 5
  | .reading => 6
  | .broadcasting (.said _) => 6
  | .saving ⟨_, _, .said _, _, _⟩ => 6
  | .broadcasting .left => 7
  | .saving ⟨_, _, .left, _, _⟩ => 8
  | .removing => 9
  | .freeing => 10
  | .ended => 11

/-- Between `add_client` and `remove_client`. -/
def Phase.Active (phase : Phase) : Prop := 3 ≤ phase.rank ∧ phase.rank ≤ 9

/-- After `send_chat_log` and before the leave line. -/
def Phase.Chatting (phase : Phase) : Prop := phase.rank = 6

inductive Quiet : Phase → Phase → Prop where
  | handshaken : Quiet .handshake .authenticating
  | admitted : Quiet .authenticating .adding
  | rejected : Quiet .authenticating .freeing
  | heard (buffer : Bytes) : Quiet .reading (.broadcasting (.said buffer))
  | closed : Quiet .reading (.broadcasting .left)

inductive Effect (state : State) (session : Nat) : State → Prop where
  | accept (ssl : Ssl) (unborn : state.sessions session = none) (nonNull : ssl ≠ null)
      (unused : state.heap ssl = none) :
      Effect state session { state.move session ⟨ssl, [], .handshake, 0⟩ with
        accepting := some session
        heap := Function.update state.heap ssl (some session) }
  | quiet (found : Session) (username : Bytes) (phase : Phase) (accepting : Option Nat)
      (lookup : state.sessions session = some found) (moved : Quiet found.phase phase)
      (named : username = found.username ∨ ∃ name, username = (cstr name).take 50) :
      Effect state session { state.move session { found with username, phase } with accepting }
  | add (found : Session) (lookup : state.sessions session = some found)
      (here : found.phase = .adding) :
      Effect state session ((state.addClient session found).move session
        { found with phase := .broadcasting .joined })
  | broadcast (found : Session) (notice : Notice) (lookup : state.sessions session = some found)
      (here : found.phase = .broadcasting notice) :
      Effect state session ((state.broadcast (found.message session notice)).move session
        { found with phase := .saving (found.message session notice), sent := found.sent + 1 })
  | save (found : Session) (message : Message) (lookup : state.sessions session = some found)
      (here : found.phase = .saving message) :
      Effect state session ((state.saveChatLog message).move session
        { found with phase := message.notice.next })
  | replay (found : Session) (lookup : state.sessions session = some found)
      (here : found.phase = .replaying) :
      Effect state session ((state.sendChatLog session).move session
        { found with phase := .reading })
  | remove (found : Session) (lookup : state.sessions session = some found)
      (here : found.phase = .removing) :
      Effect state session ((state.removeClient session found.ssl).move session
        { found with phase := .freeing })
  | free (found : Session) (accepting : Option Nat)
      (lookup : state.sessions session = some found)
      (here : found.phase = .handshake ∨ found.phase = .freeing) :
      Effect state session { (state.sslFree found.ssl).move session
        { found with phase := .ended } with accepting }

theorem proceed_effect {state next : State} {session : Nat} {found : Session}
    (lookup : state.sessions session = some found)
    (stepped : proceed state session found = some next) : Effect state session next := by
  unfold proceed at stepped
  split at stepped
  case h_1 here =>
    cases stepped
    exact Effect.add found lookup here
  case h_2 notice here =>
    cases stepped
    exact Effect.broadcast found notice lookup here
  case h_3 message here =>
    cases stepped
    exact Effect.save found message lookup here
  case h_4 here =>
    cases stepped
    exact Effect.replay found lookup here
  case h_5 here =>
    cases stepped
    exact Effect.remove found lookup here
  case h_6 here =>
    cases stepped
    exact Effect.free found state.accepting lookup (Or.inr here)
  case h_7 => cases stepped

section Inversion

variable {state next : State} {session : Nat}

theorem accept_cases {ssl : Ssl} (stepped : step state (.accept session ssl) = some next) :
    state.sessions session = none ∧ ssl ≠ null ∧ state.heap ssl = none ∧
      next = { state.move session ⟨ssl, [], .handshake, 0⟩ with
        accepting := some session
        heap := Function.update state.heap ssl (some session) } := by
  simp only [step, Option.ite_none_right_eq_some, Option.some.injEq] at stepped
  obtain ⟨⟨unborn, _, nonNull, unused⟩, same⟩ := stepped
  exact ⟨unborn, nonNull, unused, same.symm⟩

theorem handshake_cases {success : Bool}
    (stepped : step state (.handshake session success) = some next) :
    ∃ found, state.sessions session = some found ∧ found.phase = .handshake ∧
      (success = true ∧ next = { state.move session { found with phase := .authenticating } with
          accepting := none } ∨
        success = false ∧ next = { (state.sslFree found.ssl).move session
          { found with phase := .ended } with accepting := none }) := by
  simp only [step] at stepped
  split at stepped
  · cases stepped
  · rename_i found lookup
    simp only [Option.ite_none_right_eq_some] at stepped
    refine ⟨found, lookup, stepped.1, ?_⟩
    cases success with
    | true => exact Or.inl ⟨rfl, (Option.some.inj stepped.2).symm⟩
    | false => exact Or.inr ⟨rfl, (Option.some.inj stepped.2).symm⟩

theorem authenticate_cases {result : Option Bytes}
    (stepped : step state (.authenticate session result) = some next) :
    ∃ found, state.sessions session = some found ∧ found.phase = .authenticating ∧
      (result = none ∧ next = state.move session { found with phase := .freeing } ∨
        ∃ name, result = some name ∧ next = state.move session
          { found with username := (cstr name).take 50, phase := .adding }) := by
  simp only [step] at stepped
  split at stepped
  · cases stepped
  · rename_i found lookup
    simp only [Option.ite_none_right_eq_some] at stepped
    refine ⟨found, lookup, stepped.1, ?_⟩
    cases result with
    | none => exact Or.inl ⟨rfl, (Option.some.inj stepped.2).symm⟩
    | some name => exact Or.inr ⟨name, rfl, (Option.some.inj stepped.2).symm⟩

theorem receive_cases {record : Option Bytes}
    (stepped : step state (.receive session record) = some next) :
    ∃ found, state.sessions session = some found ∧ found.phase = .reading ∧
      (record = none ∧ next = state.move session { found with phase := .broadcasting .left } ∨
        ∃ buffer, record = some buffer ∧ next = state.move session
          { found with phase := .broadcasting (.said buffer) }) := by
  simp only [step] at stepped
  split at stepped
  · cases stepped
  · rename_i found lookup
    simp only [Option.ite_none_right_eq_some] at stepped
    refine ⟨found, lookup, stepped.1, ?_⟩
    cases record with
    | none => exact Or.inl ⟨rfl, (Option.some.inj stepped.2).symm⟩
    | some buffer => exact Or.inr ⟨buffer, rfl, (Option.some.inj stepped.2).symm⟩

theorem proceed_cases (stepped : step state (.proceed session) = some next) :
    ∃ found, state.sessions session = some found ∧ proceed state session found = some next := by
  simp only [step] at stepped
  split at stepped
  · cases stepped
  · rename_i found lookup
    exact ⟨found, lookup, stepped⟩

end Inversion

theorem step_effect {state next : State} {action : Action}
    (stepped : step state action = some next) : Effect state action.session next := by
  cases action with
  | accept session ssl =>
      obtain ⟨unborn, nonNull, unused, same⟩ := accept_cases stepped
      subst same
      exact Effect.accept ssl unborn nonNull unused
  | handshake session success =>
      obtain ⟨found, lookup, here, ⟨_, same⟩ | ⟨_, same⟩⟩ := handshake_cases stepped
      · subst same
        exact Effect.quiet found found.username .authenticating none lookup
          (here ▸ Quiet.handshaken) (Or.inl rfl)
      · subst same
        exact Effect.free found none lookup (Or.inl here)
  | authenticate session result =>
      obtain ⟨found, lookup, here, ⟨_, same⟩ | ⟨name, _, same⟩⟩ := authenticate_cases stepped
      · subst same
        exact Effect.quiet found found.username .freeing state.accepting lookup
          (here ▸ Quiet.rejected) (Or.inl rfl)
      · subst same
        exact Effect.quiet found _ .adding state.accepting lookup (here ▸ Quiet.admitted)
          (Or.inr ⟨name, rfl⟩)
  | receive session record =>
      obtain ⟨found, lookup, here, ⟨_, same⟩ | ⟨buffer, _, same⟩⟩ := receive_cases stepped
      · subst same
        exact Effect.quiet found found.username _ state.accepting lookup
          (here ▸ Quiet.closed) (Or.inl rfl)
      · subst same
        exact Effect.quiet found found.username _ state.accepting lookup
          (here ▸ Quiet.heard buffer) (Or.inl rfl)
  | proceed session =>
      obtain ⟨found, lookup, proceeded⟩ := proceed_cases stepped
      exact proceed_effect lookup proceeded

end LinuxFff.TlsServer
