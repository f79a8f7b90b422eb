import LinuxFff.RecordStream
import LinuxFff.SizeArith
import LinuxFff.StackArray
import LinuxFff.UsersFile

/-!
# `authenticate` of `server_tls_final.c`, prompts included

A client has sent records, and either keeps the connection open behind them or
closes it; from then on every `SSL_read` returns at most 0 and leaves its
buffer alone. A session notes what its reads returned, what it has written, and
whether every string function so far found the end of its string inside its
array. A run is followed up to a read that has nothing to return yet, up to the
return of the function, or for as many menu rounds as there is fuel.
-/

namespace LinuxFff.Authenticate

open LinuxFff.CString LinuxFff.SizeArith LinuxFff.StackArray LinuxFff.UsersFile

set_option autoImplicit false

def isdigit (byte : Byte) : Bool := 48 ≤ byte && byte ≤ 57

def digitsValue (digits : Bytes) : Nat :=
  digits.foldl (fun value digit => 10 * value + (digit.toNat - 48)) 0

/-- `strtol (text, NULL, 10)` for a `long` of so many bits. -/
def strtol (bits : Nat) (text : Bytes) : Int :=
  let body := text.dropWhile isspace
  let negative := body.head? = some 45
  let digits := (if body.head? = some 43 ∨ negative then body.drop 1 else body).takeWhile isdigit
  let value : Int := if negative then -digitsValue digits else digitsValue digits
  max (-2 ^ (bits - 1)) (min value (2 ^ (bits - 1) - 1))

/-- `atoi` converts the `long` to an `int`; a `long` is as wide as a `size_t`. -/
def atoi (abi : Abi) (text : Bytes) : Int :=
  Int.bmod (strtol (8 * abi.sizeBytes) text) (2 ^ 32)

structure Peer where
  records : List Bytes
  closed : Bool
  deriving DecidableEq

/-- A client that has sent these records; empty ones carry nothing to read. -/
def Peer.sent (records : List Bytes) (closed : Bool) : Peer :=
  ⟨records.filter fun record => !record.isEmpty, closed⟩

/-- `SSL_read`: the bytes it stores, or nothing when it returns at most 0; it
waits while the connection is open and there is no record. -/
def Peer.sslRead (size : Nat) (peer : Peer) : Option (Option Bytes × Peer) :=
  match RecordStream.read size peer.records with
  | some (piece, rest) => some (some piece, { peer with records := rest })
  | none => if peer.closed then some (none, peer) else none

structure Session where
  peer : Peer
  answers : List (Option Bytes)
  writes : List Bytes
  inside : Bool
  deriving DecidableEq

def Session.start (peer : Peer) : Session := ⟨peer, [], [], true⟩

def Session.sslWrite (session : Session) (text : Bytes) : Session :=
  { session with writes := session.writes ++ [text] }

def Session.sslRead (size : Nat) (session : Session) : Option (Option Bytes × Session) :=
  match session.peer.sslRead size with
  | none => none
  | some (answer, peer) =>
      some (answer, { session with peer, answers := session.answers ++ [answer] })

def Session.look (session : Session) (inside : Bool) : Session :=
  { session with inside := session.inside && inside }

/-- How far a run has come: in front of a read, or to a result. -/
inductive Progress (Value : Type) where
  | stops (session : Session)
  | goes (value : Value) (session : Session)

def Progress.session {Value : Type} : Progress Value → Session
  | .stops session => session
  | .goes _ session => session

def menuText : Bytes := ascii "1. login\n2. sign in\n"
def tryAgain : Bytes := ascii "try again\n"
def usernamePrompt : Bytes := ascii "Username: "
def passwordPrompt : Bytes := ascii "Password: "

/-- `buffer` after `memset` and `SSL_read`. -/
def menuBuffer (behind : Bytes) (answer : Option Bytes) : CharArray 1024 :=
  (CharArray.zeroed 1024 behind).fill (answer.getD [])

def menuMode (abi : Abi) (behind : Bytes) (answer : Option Bytes) : Int :=
  atoi abi (menuBuffer behind answer).text

def Chosen (mode : Int) : Prop := mode = 1 ∨ mode = 2

instance (mode : Int) : Decidable (Chosen mode) :=
  inferInstanceAs (Decidable (mode = 1 ∨ mode = 2))

def menuLoop (abi : Abi) (behind : Bytes) : Nat → Session → Progress Int
  | 0, session => .stops (session.sslWrite menuText)
  | fuel + 1, session =>
      match (session.sslWrite menuText).sslRead 1024 with
      | none => .stops (session.sslWrite menuText)
      | some (answer, session) =>
          let mode := menuMode abi behind answer
          let session := session.look (menuBuffer behind answer).terminated
          if Chosen mode then .goes mode session
          else menuLoop abi behind fuel (session.sslWrite tryAgain)

/-- A prompt, the read into an array of 50 bytes, and the line end cut off. -/
def prompt (text : Bytes) (field : CharArray 50) (session : Session) :
    Progress (CharArray 50) :=
  match (session.sslWrite text).sslRead 50 with
  | none => .stops (session.sslWrite text)
  | some (answer, session) =>
      let filled := field.fill (answer.getD [])
      .goes filled.cut (session.look filled.endsLine)

/-- The words that `sscanf (line, "%s %s", ...)` stores. -/
def scanned (line : Bytes) : Option Bytes × Option Bytes :=
  match scanWord (cstr line) with
  | none => (none, none)
  | some (word, rest) => (some word, (scanWord rest).map Prod.fst)

/-- A conversion that fails leaves the array alone. -/
def store (field : CharArray 50) : Option Bytes → CharArray 50
  | none => field
  | some word => field.fill (word ++ [0])

def fits : Option Bytes → Bool
  | none => true
  | some word => word.length < 50

/-- Whether the string functions of the login loop stay inside their arrays;
`strcmp` of the passwords is called only if the usernames are equal. -/
def loginInside (username password : CharArray 50) :
    CharArray 50 → CharArray 50 → List Bytes → Bool
  | _, _, [] => true
  | fileUser, filePass, line :: rest =>
      let user := store fileUser (scanned line).1
      let pass := store filePass (scanned line).2
      fits (scanned line).1 && fits (scanned line).2 && user.terminated && username.terminated &&
        if user.text = username.text then
          pass.terminated && password.terminated &&
            (pass.text = password.text || loginInside username password user pass rest)
        else loginInside username password user pass rest

/-- The same for the sign-in loop and the `fprintf` behind it. -/
def signInInside (username password : CharArray 50) : CharArray 50 → List Bytes → Bool
  | _, [] => username.terminated && password.terminated
  | fileUser, line :: rest =>
      let user := store fileUser (scanned line).1
      fits (scanned line).1 && user.terminated && username.terminated &&
        (user.text = username.text || signInInside username password user rest)

/-- What the arrays of `authenticate` hold before they are used, and what lies
behind them. -/
structure Locals where
  behindBuffer : Bytes
  username : CharArray 50
  password : CharArray 50
  fileUser : CharArray 50
  filePass : CharArray 50

/-- A stack on which there are no zeros. -/
def someLocals : Locals where
  behindBuffer := [120]
  username := ⟨List.replicate 50 120, [120], List.length_replicate⟩
  password := ⟨List.replicate 50 120, [120], List.length_replicate⟩
  fileUser := ⟨List.replicate 50 120, [120], List.length_replicate⟩
  filePass := ⟨List.replicate 50 120, [120], List.length_replicate⟩

/-- What `authenticate` has decided on when it returns. -/
structure Decision where
  mode : Int
  username : Bytes
  password : Bytes
  auth : Nat
  users : Option Bytes
  deriving DecidableEq

/-- `sprintf (buffer, "%d", auth)`. -/
def authDigit (auth : Nat) : Bytes := [UInt8.ofNat (48 + auth)]

def Locals.fileInside (locals : Locals) (mode : Int) (username password : CharArray 50)
    (users : Bytes) : Bool :=
  if mode = 1 then
    loginInside username password locals.fileUser locals.filePass (fgetsLoop lineRoom users)
  else signInInside username password locals.fileUser (fgetsLoop lineRoom users)

/-- The part behind the prompts. `users.txt` is not opened when there is none. -/
def decideAuth (locals : Locals) (mode : Int) (username password : CharArray 50)
    (users : Option Bytes) (session : Session) : Progress Decision :=
  match users with
  | none => .goes ⟨mode, username.text, password.text, 0, none⟩ session
  | some file =>
      let result := UsersFile.authenticate (locals.fileUser.text, locals.filePass.text) mode
        username.text password.text file
      .goes ⟨mode, username.text, password.text, result.1, some result.2⟩
        ((session.look (locals.fileInside mode username password file)).sslWrite
          (authDigit result.1))

def authenticate (abi : Abi) (locals : Locals) (users : Option Bytes) (fuel : Nat)
    (session : Session) : Progress Decision :=
  match menuLoop abi locals.behindBuffer fuel session with
  | .stops session => .stops session
  | .goes mode session =>
      match prompt usernamePrompt locals.username session with
      | .stops session => .stops session
      | .goes username session =>
          match prompt passwordPrompt locals.password session with
          | .stops session => .stops session
          | .goes password session => decideAuth locals mode username password users session

def chooseMode (abi : Abi) (behind : Bytes) : Nat → Peer → Option (Int × Peer)
  | 0, _ => none
  | fuel + 1, peer =>
      match peer.sslRead 1024 with
      | none => none
      | some (answer, peer) =>
          if Chosen (menuMode abi behind answer) then some (menuMode abi behind answer, peer)
          else chooseMode abi behind fuel peer

def supplied (abi : Abi) (locals : Locals) (fuel : Nat) (peer : Peer) :
    Option (Int × CharArray 50 × CharArray 50) :=
  match chooseMode abi locals.behindBuffer fuel peer with
  | none => none
  | some (mode, peer) =>
      match peer.sslRead 50 with
      | none => none
      | some (name, peer) =>
          match peer.sslRead 50 with
          | none => none
          | some (word, _) =>
              some (mode, (locals.username.fill (name.getD [])).cut,
                (locals.password.fill (word.getD [])).cut)

section Runs

variable {abi : Abi} {locals : Locals} {fuel : Nat} {session : Session}

theorem ssl_read_some {size : Nat} {answer : Option Bytes} {peer : Peer}
    (read : session.peer.sslRead size = some (answer, peer)) :
    session.sslRead size =
      some (answer, { session with peer, answers := session.answers ++ [answer] }) := by
  simp only [Session.sslRead, read]

theorem ssl_read_none {size : Nat} (read : session.peer.sslRead size = none) :
    session.sslRead size = none := by
  simp only [Session.sslRead, read]

theorem menu_loop_chooses (abi : Abi) (behind : Bytes) (fuel : Nat) (session : Session) :
    match chooseMode abi behind fuel session.peer with
    | none => ∃ after, menuLoop abi behind fuel session = .stops after
    | some (mode, peer) =>
        ∃ after, menuLoop abi behind fuel session = .goes mode after ∧ after.peer = peer := by
  induction fuel generalizing session with
  | zero => exact ⟨_, rfl⟩
  | succ fuel ih =>
      cases read : session.peer.sslRead 1024 with
      | none =>
          simp only [chooseMode, menuLoop, read,
            @ssl_read_none (session.sslWrite menuText) _ read]
          exact ⟨_, rfl⟩
      | some result =>
          rcases result with ⟨answer, peer⟩
          simp only [chooseMode, menuLoop, read,
            @ssl_read_some (session.sslWrite menuText) _ _ _ read]
          by_cases chosen : Chosen (menuMode abi behind answer)
          · simp only [if_pos chosen]
            exact ⟨_, rfl, rfl⟩
          · simp only [if_neg chosen]
            exact ih ((Session.look { session.sslWrite menuText with
              peer, answers := session.answers ++ [answer] } _).sslWrite tryAgain)

theorem prompt_stops {text : Bytes} (field : CharArray 50) (read : session.peer.sslRead 50 = none) :
    prompt text field session = .stops (session.sslWrite text) := by
  unfold prompt
  rw [@ssl_read_none (session.sslWrite text) _ read]

theorem prompt_goes {text : Bytes} (field : CharArray 50) {answer : Option Bytes} {peer : Peer}
    (read : session.peer.sslRead 50 = some (answer, peer)) :
    prompt text field session = .goes (field.fill (answer.getD [])).cut
      ({ session.sslWrite text with peer, answers := session.answers ++ [answer] }.look
        (field.fill (answer.getD [])).endsLine) := by
  unfold prompt
  rw [@ssl_read_some (session.sslWrite text) _ _ _ read]
  rfl

def verdict (locals : Locals) (users : Option Bytes) (input : Int × CharArray 50 × CharArray 50) :
    Decision :=
  match users with
  | none => ⟨input.1, input.2.1.text, input.2.2.text, 0, none⟩
  | some file =>
      let result := UsersFile.authenticate (locals.fileUser.text, locals.filePass.text) input.1
        input.2.1.text input.2.2.text file
      ⟨input.1, input.2.1.text, input.2.2.text, result.1, some result.2⟩

theorem decide_auth_goes (locals : Locals) (mode : Int) (username password : CharArray 50)
    (users : Option Bytes) (session : Session) :
    ∃ after, decideAuth locals mode username password users session =
      .goes (verdict locals users (mode, username, password)) after := by
  cases users with
  | none => exact ⟨_, rfl⟩
  | some file => exact ⟨_, rfl⟩

/-- The function returns when the client has supplied everything it asks for,
and stops in front of a read otherwise. -/
theorem authenticate_supplied (abi : Abi) (locals : Locals) (users : Option Bytes) (fuel : Nat)
    (session : Session) :
    match supplied abi locals fuel session.peer with
    | none => ∃ after, authenticate abi locals users fuel session = .stops after
    | some input => ∃ after, authenticate abi locals users fuel session =
        .goes (verdict locals users input) after := by
  have menu := menu_loop_chooses abi locals.behindBuffer fuel session
  unfold supplied authenticate
  cases chosen : chooseMode abi locals.behindBuffer fuel session.peer with
  | none =>
      rw [chosen] at menu
      obtain ⟨after, stops⟩ := menu
      exact ⟨after, by rw [stops]⟩
  | some result =>
      rcases result with ⟨mode, peer⟩
      rw [chosen] at menu
      obtain ⟨after, goes, same⟩ := menu
      subst same
      simp only [goes]
      cases firstRead : after.peer.sslRead 50 with
      | none =>
          simp only [prompt_stops locals.username firstRead]
          exact ⟨_, rfl⟩
      | some result =>
          rcases result with ⟨name, peer⟩
          simp only [prompt_goes locals.username firstRead]
          cases secondRead : peer.sslRead 50 with
          | none =>
              rw [prompt_stops locals.password secondRead]
              exact ⟨_, rfl⟩
          | some result =>
              rcases result with ⟨word, peer⟩
              rw [prompt_goes locals.password secondRead]
              exact decide_auth_goes locals mode _ _ users _

end Runs

end LinuxFff.Authenticate
