import LinuxFff.CString
import LinuxFff.ClientTables
import LinuxFff.Ownership
import LinuxFff.StepSystem

/-!
# The connections of `server_tls.c`

A connection has a descriptor from `accept`, an `SSL` object from `SSL_new` and
a `client_t` from `malloc`, and each of the three is known by a number that may
be given out again after its release. `main` sets a connection up and starts
`handle_client`; the thread closes the descriptor, shuts the `SSL` object down
and frees it, and only then takes its `client_t` out of `clients[]` and frees
that. A step of the model is one call or one critical section.

A use of something that has been released is noted in `faults`, and no step
reads that list.
-/

namespace LinuxFff.TlsCliServer

open LinuxFff.ClientTables LinuxFff.CString LinuxFff.Ownership
open LinuxFff.StepSystem

set_option autoImplicit false

/-- Where `main` or the thread is with a connection. -/
inductive Phase where
  | accepted
  | handshake
  | refusing
  | discarding
  | credentials
  | allocating
  | registering
  | replaying
  | reading
  | saving (buffer : Bytes)
  | broadcasting (buffer : Bytes)
  | closing
  | shuttingDown
  | freeingSsl
  | removing
  | freeing
  | ended
  deriving DecidableEq

/-- `sock`, `ssl` and `username` are the fields of the `client_t` at `cli`. -/
structure Session where
  sock : Nat
  ssl : Ssl
  cli : Nat
  username : Bytes
  phase : Phase
  deriving DecidableEq

inductive Fault where
  | freedSsl (ssl : Ssl)
  | closedSock (sock : Nat)
  | freedCli (cli : Nat)
  deriving DecidableEq

/-- `socks`, `ssls` and `clis` give the session that a number belongs to now,
`written` is what has been written to a session's peer. -/
structure State where
  sessions : Nat → Option Session
  busy : Option Nat
  socks : Nat → Option Nat
  ssls : Ssl → Option Nat
  clis : Nat → Option Nat
  clients : List Nat
  chatlog : Bytes
  written : Nat → List Bytes
  faults : List Fault

def initial : State where
  sessions := fun _ => none
  busy := none
  socks := fun _ => none
  ssls := fun _ => none
  clis := fun _ => none
  clients := []
  chatlog := []
  written := fun _ => []
  faults := []

inductive Action where
  | accept (session sock : Nat)
  | sslNew (session : Nat) (ssl : Ssl)
  | handshake (session : Nat) (success : Bool)
  | credentials (session : Nat) (username : Bytes)
  | malloc (session cli : Nat)
  | receive (session : Nat) (record : Option Bytes)
  | proceed (session : Nat)
  deriving DecidableEq

def State.move (state : State) (session : Nat) (moved : Session) : State :=
  { state with sessions := Function.update state.sessions session (some moved) }

def State.fault (state : State) (fault : Fault) : State :=
  { state with faults := state.faults ++ [fault] }

/-- `SSL_write` on the object of a session, which writes to the descriptor that
`SSL_set_fd` gave it. -/
def State.sslWrite (state : State) (session : Nat) (text : Bytes) : State :=
  match state.sessions session with
  | none => state
  | some found =>
      if state.ssls found.ssl ≠ some session then state.fault (.freedSsl found.ssl)
      else if state.socks found.sock ≠ some session then state.fault (.closedSock found.sock)
      else { state with
        written := Function.update state.written session (state.written session ++ [text]) }

/-- A write through the `client_t` at an address. -/
def State.writeCli (text : Bytes) (state : State) (cli : Nat) : State :=
  match state.clis cli with
  | none => state.fault (.freedCli cli)
  | some session => state.sslWrite session text

/-- A read of a field of the thread's own `client_t`. -/
def State.useCli (state : State) (session : Nat) (found : Session) : State :=
  if state.clis found.cli = some session then state else state.fault (.freedCli found.cli)

def savedText (username buffer : Bytes) : Bytes := username ++ ascii ": " ++ cstr buffer

/-- `full_msg`, an array of 1080 bytes. -/
def fullMsg (username buffer : Bytes) : Bytes := snprintf 1080 (savedText username buffer)

def State.replay (state : State) (session : Nat) : State :=
  (replayWrites state.chatlog).foldl (fun state text => state.sslWrite session text) state

def State.broadcast (state : State) (found : Session) (buffer : Bytes) : State :=
  (cliTargets found.cli state.clients).foldl
    (State.writeCli (fullMsg found.username buffer)) state

def State.saveChatToFile (state : State) (found : Session) (buffer : Bytes) : State :=
  { state with chatlog := state.chatlog ++ savedText found.username buffer }

def State.close (state : State) (sock : Nat) : State :=
  { state with socks := Function.update state.socks sock none }

def State.sslFree (state : State) (ssl : Ssl) : State :=
  { state with ssls := Function.update state.ssls ssl none }

def State.free (state : State) (cli : Nat) : State :=
  { state with clis := Function.update state.clis cli none }

/-- The steps that wait for nothing. `SSL_shutdown` writes its alert, which is
no text. -/
def proceed (state : State) (session : Nat) (found : Session) : Option State :=
  match found.phase with
  | .refusing => some ((state.close found.sock).move session { found with phase := .discarding })
  | .discarding =>
      some { (state.sslFree found.ssl).move session { found with phase := .ended } with
        busy := none }
  | .registering => (registerCli found.cli state.clients).map fun clients =>
      { state.move session { found with phase := .replaying } with clients, busy := none }
  | .replaying => some (((state.useCli session found).replay session).move session
      { found with phase := .reading })
  | .saving buffer => some (((state.useCli session found).saveChatToFile found buffer).move session
      { found with phase := .broadcasting buffer })
  | .broadcasting buffer => some (((state.useCli session found).broadcast found buffer).move session
      { found with phase := .reading })
  | .closing => some (((state.useCli session found).close found.sock).move session
      { found with phase := .shuttingDown })
  | .shuttingDown => some (((state.useCli session found).sslWrite session []).move session
      { found with phase := .freeingSsl })
  | .freeingSsl => some (((state.useCli session found).sslFree found.ssl).move session
      { found with phase := .removing })
  | .removing => some { state.move session { found with phase := .freeing } with
      clients := removeCli found.cli state.clients }
  | .freeing => some ((state.free found.cli).move session { found with phase := .ended })
  | _ => none

def step (state : State) : Action → Option State
  | .accept session sock =>
      if state.sessions session = none ∧ state.busy = none ∧ state.socks sock = none then
        some { state.move session ⟨sock, null, 0, [], .accepted⟩ with
          busy := some session
          socks := Function.update state.socks sock (some session) }
      else none
  | .sslNew session ssl =>
      match state.sessions session with
      | none => none
      | some found =>
          if found.phase = .accepted ∧ ssl ≠ null ∧ state.ssls ssl = none then
            some { state.move session { found with ssl, phase := .handshake } with
              ssls := Function.update state.ssls ssl (some session) }
          else none
  | .handshake session success =>
      match state.sessions session with
      | none => none
      | some found =>
          if found.phase = .handshake then
            some ((state.sslWrite session []).move session
              { found with phase := if success then .credentials else .refusing })
          else none
  | .credentials session username =>
      match state.sessions session with
      | none => none
      | some found =>
          if found.phase = .credentials then
            some ((state.sslWrite session [1, 0, 0, 0]).move session
              { found with username := (cstr username).take 50, phase := .allocating })
          else none
  | .malloc session cli =>
      match state.sessions session with
      | none => none
      | some found =>
          if found.phase = .allocating ∧ state.clis cli = none then
            some { state.move session { found with cli, phase := .registering } with
              clis := Function.update state.clis cli (some session) }
          else none
  | .receive session record =>
      match state.sessions session with
      | none => none
      | some found =>
          if found.phase = .reading then
            some ((state.useCli session found).move session
              { found with phase := match record with
                | none => .closing
                | some buffer => .saving buffer })
          else none
  | .proceed session =>
      match state.sessions session with
      | none => none
      | some found => proceed state session found

end LinuxFff.TlsCliServer
