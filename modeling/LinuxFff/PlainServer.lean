import LinuxFff.CString
import LinuxFff.ClientTables
import LinuxFff.EventOrder
import LinuxFff.Roster
import LinuxFff.StepSystem

/-!
# The chat of `server.c`

`main` accepts a connection, reads mode, username and password, answers, and
registers the connection in `clients[]` before it starts the thread. The thread
replays `chatlog.txt`, broadcasts its join line, saves and then broadcasts what
it receives, broadcasts its leave line, closes its descriptor and, in a later
critical section, removes its entry. A step of the model is one critical
section or one system call, so a list of actions is an interleaving.

Descriptor numbers are given out by `accept` and are free again after `close`:
any number that is not open may come next, the lowest one for instance. What
`send` writes goes to the connection that the number is open for, and to nobody
when it is closed. What `check_user` and `register_user` decide is left open.
-/

namespace LinuxFff.PlainServer

open LinuxFff.CString LinuxFff.ClientTables LinuxFff.EventOrder LinuxFff.Roster
open LinuxFff.StepSystem

set_option autoImplicit false

/-- `buffer` is the memory that starts with the bytes received. -/
inductive Notice where
  | joined
  | said (buffer : Bytes)
  | left
  deriving DecidableEq

def savedText (username buffer : Bytes) : Bytes := username ++ ascii ": " ++ cstr buffer

/-- `full_msg`, an array of 1024 bytes. -/
def Notice.text (username : Bytes) : Notice → Bytes
  | .joined => snprintf 1024 (ascii "[SERVER]: " ++ username ++ ascii " has joined\n")
  | .said buffer => snprintf 1024 (savedText username buffer)
  | .left => snprintf 1024 (ascii "[SERVER]: " ++ username ++ ascii " has leaved\n")

structure Message where
  author : Nat
  seq : Nat
  notice : Notice
  username : Bytes
  deriving DecidableEq

/-- What `save_chat_to_file` appends for the message; only what was said is saved. -/
def Message.savedText (message : Message) : Bytes :=
  match message.notice with
  | .said buffer => PlainServer.savedText message.username buffer
  | _ => []

def logFile (chatlog : List Message) : Bytes := chatlog.flatMap Message.savedText

/-- What a broadcast sends of the message. -/
def Message.text (message : Message) : Bytes := message.notice.text message.username

inductive Phase where
  | handshake
  | registering
  | replaying
  | broadcasting (notice : Notice)
  | reading
  | saving (buffer : Bytes)
  | closing
  | removing
  | ended
  deriving DecidableEq

def Notice.next : Notice → Phase
  | .joined => .reading
  | .said _ => .reading
  | .left => .closing

structure Conn where
  sock : Nat
  username : Bytes
  phase : Phase
  sent : Nat
  deriving DecidableEq

def Conn.message (found : Conn) (conn : Nat) (notice : Notice) : Message :=
  ⟨conn, found.sent, notice, found.username⟩

inductive Event where
  | registered (conn : Nat)
  | replayed (conn : Nat)
  | saved (message : Message)
  | broadcast (message : Message)
  | closed (conn : Nat)
  | removed (conn : Nat)
  deriving DecidableEq

/-- `current` is the connection that `main` is busy with, `descriptors` gives
the connection that a number is open for, `live` is what broadcasts have sent
to a connection, `replayed` what its thread has sent to it from the log, and
`history` the order of the critical sections. -/
structure State where
  conns : Nat → Option Conn
  current : Option Nat
  descriptors : Nat → Option Nat
  clients : List Entry
  live : Nat → List Message
  chatlog : List Message
  replayed : Nat → List Message
  history : List Event

def initial : State where
  conns := fun _ => none
  current := none
  descriptors := fun _ => none
  clients := []
  live := fun _ => []
  chatlog := []
  replayed := fun _ => []
  history := []

inductive Action where
  | accept (conn number : Nat)
  | login (conn : Nat) (result : Option Bytes)
  | register (conn : Nat)
  | receive (conn : Nat) (chunk : Option Bytes)
  | proceed (conn : Nat)
  deriving DecidableEq

def Action.conn : Action → Nat
  | .accept conn _ => conn
  | .login conn _ => conn
  | .register conn => conn
  | .receive conn _ => conn
  | .proceed conn => conn

/-- The standard streams and `server_sock` are open all the time. -/
def firstFree : Nat := 4

def State.move (state : State) (conn : Nat) (found : Conn) : State :=
  { state with conns := Function.update state.conns conn (some found) }

def State.note (state : State) (event : Event) : State :=
  { state with history := state.history ++ [event] }

def State.close (state : State) (number : Nat) : State :=
  { state with descriptors := Function.update state.descriptors number none }

def State.saveChatToFile (state : State) (message : Message) : State :=
  { state.note (.saved message) with chatlog := state.chatlog ++ [message] }

def State.broadcast (state : State) (message : Message) (sock : Nat) : State :=
  { state.note (.broadcast message) with
    live := writeAll state.descriptors message state.live (sendTargets sock state.clients) }

def State.replay (state : State) (conn : Nat) : State :=
  { state.note (.replayed conn) with
    replayed := Function.update state.replayed conn state.chatlog }

/-- The steps of `handle_client` that receive nothing. -/
def proceed (state : State) (conn : Nat) (found : Conn) : Option State :=
  match found.phase with
  | .replaying => some ((state.replay conn).move conn { found with phase := .broadcasting .joined })
  | .broadcasting notice =>
      some ((state.broadcast (found.message conn notice) found.sock).move conn
        { found with phase := notice.next, sent := found.sent + 1 })
  | .saving buffer => some ((state.saveChatToFile (found.message conn (.said buffer))).move conn
      { found with phase := .broadcasting (.said buffer) })
  | .closing => some (((state.close found.sock).note (.closed conn)).move conn
      { found with phase := .removing })
  | .removing => some { (state.note (.removed conn)).move conn { found with phase := .ended } with
      clients := removeEntry found.sock state.clients }
  | _ => none

def step (state : State) : Action → Option State
  | .accept conn number =>
      if state.conns conn = none ∧ state.current = none ∧ firstFree ≤ number ∧
          state.descriptors number = none then
        some { state.move conn ⟨number, [], .handshake, 0⟩ with
          current := some conn
          descriptors := Function.update state.descriptors number (some conn) }
      else none
  | .login conn result =>
      match state.conns conn with
      | none => none
      | some found =>
          if found.phase = .handshake then
            match result with
            | none => some { (state.close found.sock).move conn { found with phase := .ended } with
                current := none }
            | some username => some (state.move conn
                { found with username := (cstr username).take 50, phase := .registering })
          else none
  | .register conn =>
      match state.conns conn with
      | none => none
      | some found =>
          if found.phase = .registering then
            if state.clients.length < maxClients then
              some { (state.note (.registered conn)).move conn { found with phase := .replaying } with
                current := none
                clients := state.clients ++ [⟨found.sock, found.username⟩] }
            else some { (state.close found.sock).move conn { found with phase := .ended } with
              current := none }
          else none
  | .receive conn chunk =>
      match state.conns conn with
      | none => none
      | some found =>
          if found.phase = .reading then
            match chunk with
            | none => some (state.move conn { found with phase := .broadcasting .left })
            | some buffer => some (state.move conn { found with phase := .saving buffer })
          else none
  | .proceed conn =>
      match state.conns conn with
      | none => none
      | some found => proceed state conn found

def Phase.rank : Phase → Nat
  | .handshake => 0
  | .registering => 1
  | .replaying => 2
  | .broadcasting .joined => 3
  | .reading => 4
  | .saving _ => 4
  | .broadcasting (.said _) => 4
  | .broadcasting .left => 5
  | .closing => 6
  | .removing => 7
  | .ended => 8

/-- Registered, and the descriptor not closed yet. -/
def Phase.InChat (phase : Phase) : Prop := 2 ≤ phase.rank ∧ phase.rank ≤ 6

/-- Between the registration and the removal of the entry. -/
def Phase.Listed (phase : Phase) : Prop := 2 ≤ phase.rank ∧ phase.rank ≤ 7

instance (phase : Phase) : Decidable phase.InChat := inferInstanceAs (Decidable (_ ∧ _))

inductive Quiet : Phase → Phase → Prop where
  | authenticated : Quiet .handshake .registering
  | heard (buffer : Bytes) : Quiet .reading (.saving buffer)
  | hungUp : Quiet .reading (.broadcasting .left)

inductive Effect (state : State) (conn : Nat) : State → Prop where
  | accept (number : Nat) (unborn : state.conns conn = none)
      (unused : state.descriptors number = none) :
      Effect state conn { state.move conn ⟨number, [], .handshake, 0⟩ with
        current := some conn
        descriptors := Function.update state.descriptors number (some conn) }
  | quiet (found : Conn) (username : Bytes) (phase : Phase)
      (lookup : state.conns conn = some found) (moved : Quiet found.phase phase)
      (named : username = found.username ∨ ∃ name, username = (cstr name).take 50) :
      Effect state conn (state.move conn { found with username, phase })
  | turnAway (found : Conn) (lookup : state.conns conn = some found)
      (here : found.phase = .handshake ∨ found.phase = .registering) :
      Effect state conn { (state.close found.sock).move conn { found with phase := .ended } with
        current := none }
  | register (found : Conn) (lookup : state.conns conn = some found)
      (here : found.phase = .registering) (room : state.clients.length < maxClients) :
      Effect state conn { (state.note (.registered conn)).move conn
          { found with phase := .replaying } with
        current := none
        clients := state.clients ++ [⟨found.sock, found.username⟩] }
  | replay (found : Conn) (lookup : state.conns conn = some found)
      (here : found.phase = .replaying) :
      Effect state conn ((state.replay conn).move conn
        { found with phase := .broadcasting .joined })
  | broadcast (found : Conn) (notice : Notice) (lookup : state.conns conn = some found)
      (here : found.phase = .broadcasting notice) :
      Effect state conn ((state.broadcast (found.message conn notice) found.sock).move conn
        { found with phase := notice.next, sent := found.sent + 1 })
  | save (found : Conn) (buffer : Bytes) (lookup : state.conns conn = some found)
      (here : found.phase = .saving buffer) :
      Effect state conn ((state.saveChatToFile (found.message conn (.said buffer))).move conn
        { found with phase := .broadcasting (.said buffer) })
  | close (found : Conn) (lookup : state.conns conn = some found)
      (here : found.phase = .closing) :
      Effect state conn (((state.close found.sock).note (.closed conn)).move conn
        { found with phase := .removing })
  | remove (found : Conn) (lookup : state.conns conn = some found)
      (here : found.phase = .removing) :
      Effect state conn { (state.note (.removed conn)).move conn { found with phase := .ended } with
        clients := removeEntry found.sock state.clients }

theorem proceed_effect {state next : State} {conn : Nat} {found : Conn}
    (lookup : state.conns conn = some found)
    (stepped : proceed state conn found = some next) : Effect state conn next := by
  unfold proceed at stepped
  split at stepped
  case h_1 here =>
    cases stepped
    exact Effect.replay found lookup here
  case h_2 notice here =>
    cases stepped
    exact Effect.broadcast found notice lookup here
  case h_3 buffer here =>
    cases stepped
    exact Effect.save found buffer lookup here
  case h_4 here =>
    cases stepped
    exact Effect.close found lookup here
  case h_5 here =>
    cases stepped
    exact Effect.remove found lookup here
  case h_6 => cases stepped

theorem step_effect {state next : State} {action : Action}
    (stepped : step state action = some next) : Effect state action.conn next := by
  cases action with
  | accept conn number =>
      simp only [step] at stepped
      split at stepped
      · rename_i guards
        cases stepped
        exact Effect.accept number guards.1 guards.2.2.2
      · cases stepped
  | login conn result =>
      simp only [step] at stepped
      split at stepped
      · cases stepped
      · rename_i found lookup
        split at stepped
        · rename_i here
          split at stepped
          · cases stepped
            exact Effect.turnAway found lookup (Or.inl here)
          · cases stepped
            exact Effect.quiet found _ .registering lookup (here ▸ Quiet.authenticated)
              (Or.inr ⟨_, rfl⟩)
        · cases stepped
  | register conn =>
      simp only [step] at stepped
      split at stepped
      · cases stepped
      · rename_i found lookup
        split at stepped
        · rename_i here
          split at stepped
          · rename_i room
            cases stepped
            exact Effect.register found lookup here room
          · cases stepped
            exact Effect.turnAway found lookup (Or.inr here)
        · cases stepped
  | receive conn chunk =>
      simp only [step] at stepped
      split at stepped
      · cases stepped
      · rename_i found lookup
        split at stepped
        · rename_i here
          split at stepped
          · cases stepped
            exact Effect.quiet found found.username _ lookup (here ▸ Quiet.hungUp) (Or.inl rfl)
          · rename_i buffer
            cases stepped
            exact Effect.quiet found found.username _ lookup (here ▸ Quiet.heard buffer)
              (Or.inl rfl)
        · cases stepped
  | proceed conn =>
      simp only [step] at stepped
      split at stepped
      · cases stepped
      · rename_i found lookup
        exact proceed_effect lookup stepped

end LinuxFff.PlainServer
