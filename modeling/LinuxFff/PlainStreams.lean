import LinuxFff.GrowingFile
import LinuxFff.PlainNoLoss

/-!
# The chat of `client.c` and `server.c` byte by byte

The chat of `PlainServer` with the programs at its ends. A copy of `client.c` reads lines from its
keyboard and sends them, TCP cuts the bytes up as it likes, and each `recv` of `handle_client`
takes some of them. What the server sends goes the same way to the `recv_msg` of the reader. A
replay reads and sends piece by piece under `file_mutex`, with live messages in between. At the
end of its input `client.c` sends the last line again and again.

No `recv` fills its buffer: the programs would write or read behind it.
-/

namespace LinuxFff.PlainStreams

open LinuxFff.CString LinuxFff.ClientTables LinuxFff.PlainNoLoss
open LinuxFff.PlainServer LinuxFff.Roster LinuxFff.StepSystem

set_option autoImplicit false

/-- What one `send` writes to a connection. -/
inductive Sending where
  | replay (text : Bytes)
  | live (message : Message)
  deriving DecidableEq

def Sending.text : Sending → Bytes
  | .replay text => text
  | .live message => message.text

def stream (sendings : List Sending) : Bytes := sendings.flatMap Sending.text

/-- `client.c` behind its login. `stdin` is what `fgets` has not read, `message` the string in its
array and `upstream` what is sent and not received; `heard` counts the bytes that `recv_msg` has
received and `shown` is what it has printed. No step reads `repeats`, which counts the lines sent
after the end of the input. -/
structure Terminal where
  stdin : Bytes
  message : Bytes
  repeats : Nat
  upstream : Bytes
  heard : Nat
  shown : Bytes

/-- `replaying` is the thread that holds `file_mutex` for its replay, with the rest of the log. -/
structure Chat where
  server : State
  terminals : Nat → Terminal
  replaying : Option (Nat × Bytes)
  sendings : Nat → List Sending

/-- `fgets (message, sizeof(message), stdin); send (sock, message, strlen(message), 0)`. At the end
of the input `fgets` leaves the array as it is. -/
def Terminal.sendLine (terminal : Terminal) : Terminal :=
  if terminal.stdin = [] then
    { terminal with
      repeats := terminal.repeats + 1
      upstream := terminal.upstream ++ terminal.message }
  else
    { terminal with
      stdin := (CString.fgets 1023 terminal.stdin).2
      message := cstr (CString.fgets 1023 terminal.stdin).1
      upstream := terminal.upstream ++ cstr (CString.fgets 1023 terminal.stdin).1 }

/-- `left` is what the arrays `message` hold before they are used. -/
def start (typed left : Nat → Bytes) : Chat :=
  ⟨initial, fun conn => ⟨typed conn, cstr (left conn), 0, [], 0, []⟩, none, fun _ => []⟩

/-- `stale` is what `buffer` holds behind the bytes received and the NUL. -/
inductive Action where
  | fgets (conn : Nat)
  | recv (conn count : Nat) (stale : Bytes)
  | fopen (conn : Nat)
  | replay (conn : Nat)
  | serve (action : PlainServer.Action)
  | print (conn count : Nat)

def Chat.setTerminal (chat : Chat) (conn : Nat) (terminal : Terminal) : Chat :=
  { chat with terminals := Function.update chat.terminals conn terminal }

/-- A save waits for `file_mutex`, and a replay has come to the end of the log. What is received
is read off the network. -/
def Chat.serves (chat : Chat) : PlainServer.Action → Bool
  | .receive _ (some _) => false
  | .proceed conn =>
      match (chat.server.conns conn).map Conn.phase with
      | some .replaying => decide (chat.replaying = some (conn, []))
      | some (.saving _) => decide (chat.replaying = none)
      | _ => true
  | _ => true

/-- The broadcast of `PlainServer`, as `send` calls. -/
def Chat.sendingsAfter (chat : Chat) : PlainServer.Action → Nat → List Sending
  | .proceed conn =>
      match chat.server.conns conn with
      | some ⟨sock, username, .broadcasting notice, sent⟩ =>
          writeAll chat.server.descriptors (.live ⟨conn, sent, notice, username⟩) chat.sendings
            (sendTargets sock chat.server.clients)
      | _ => chat.sendings
  | _ => chat.sendings

def Chat.replayingAfter (chat : Chat) : PlainServer.Action → Option (Nat × Bytes)
  | .proceed conn =>
      match (chat.server.conns conn).map Conn.phase with
      | some .replaying => none
      | _ => chat.replaying
  | _ => chat.replaying

def step (chat : Chat) : Action → Option Chat
  | .fgets conn =>
      match chat.server.conns conn with
      | none => none
      | some found =>
          if found.phase = .handshake then none
          else some (chat.setTerminal conn (chat.terminals conn).sendLine)
  | .recv conn count stale =>
      let terminal := chat.terminals conn
      if 0 < count ∧ count ≤ terminal.upstream.length ∧ count + stale.length = 1023 then
        (PlainServer.step chat.server
          (.receive conn (some (terminal.upstream.take count ++ 0 :: stale)))).map fun server =>
            { chat.setTerminal conn { terminal with upstream := terminal.upstream.drop count } with
              server }
      else none
  | .fopen conn =>
      if (chat.server.conns conn).map Conn.phase = some .replaying ∧ chat.replaying = none then
        some { chat with replaying := some (conn, logFile chat.server.chatlog) }
      else none
  | .replay conn =>
      match chat.replaying with
      | none => none
      | some (holder, rest) =>
          if holder = conn ∧ rest ≠ [] then
            some { chat with
              replaying := some (conn, (CString.fgets 1023 rest).2)
              sendings := Function.update chat.sendings conn
                (chat.sendings conn ++ [.replay (cstr (CString.fgets 1023 rest).1)]) }
          else none
  | .serve action =>
      if chat.serves action = true then
        (PlainServer.step chat.server action).map fun server =>
          { chat with
            server
            replaying := chat.replayingAfter action
            sendings := chat.sendingsAfter action }
      else none
  | .print conn count =>
      let terminal := chat.terminals conn
      let unread := (stream (chat.sendings conn)).drop terminal.heard
      if 0 < count ∧ count ≤ 1023 ∧ count ≤ unread.length then
        some (chat.setTerminal conn { terminal with
          heard := terminal.heard + count
          shown := terminal.shown ++ cstr (unread.take count ++ List.replicate (1024 - count) 0) })
      else none

def Notice.body : Notice → Bytes
  | .said buffer => cstr buffer
  | _ => []

def unsaved : Phase → Bytes
  | .saving buffer => cstr buffer
  | _ => []

def unsent : Phase → Bytes
  | .saving buffer => cstr buffer
  | .broadcasting notice => Notice.body notice
  | _ => []

def heldBy (hold : Phase → Bytes) (state : State) (conn : Nat) : Bytes :=
  match state.conns conn with
  | some found => hold found.phase
  | none => []

/-- What has been received for a message. -/
def received (message : Message) : Bytes := Notice.body message.notice

/-- What the text of a broadcast has of it. -/
def told (message : Message) : Bytes :=
  match message.notice with
  | .said _ => message.text.drop (message.username.length + 2)
  | _ => []

/-- The array `full_msg` of 1024 bytes has room for the whole message. -/
def Uncut (message : Message) : Prop :=
  (received message).length ≤ 1021 - message.username.length

instance (message : Message) : Decidable (Uncut message) := inferInstanceAs (Decidable (_ ≤ _))

/-- What the messages of one connection say, in their order. -/
def saidBy (body : Message → Bytes) (conn : Nat) (messages : List Message) : Bytes :=
  (messages.filter fun message => message.author = conn).flatMap body

def announcements (history : List Event) : List Message :=
  history.filterMap fun event => match event with
    | .broadcast message => some message
    | _ => none

/-- What has been sent after the end of the input. -/
def Terminal.repeated (terminal : Terminal) : Bytes :=
  (List.replicate terminal.repeats terminal.message).flatten

/-- Everything typed, and then repeated, is in these messages, with the thread, in the network or
at the keyboard. -/
def Carried (typed : Nat → Bytes) (chat : Chat) (body : Message → Bytes) (messages : List Message)
    (hold : Phase → Bytes) : Prop :=
  ∀ conn, typed conn ++ (chat.terminals conn).repeated =
    saidBy body conn messages ++ (heldBy hold chat.server conn ++
      ((chat.terminals conn).upstream ++ (chat.terminals conn).stdin))

/-- Repetitions begin at the end of the input, and are of its last line. -/
structure Keyboard (typed left : Bytes) (terminal : Terminal) : Prop where
  clean : (0 : Byte) ∉ terminal.message
  ended : terminal.repeats ≠ 0 → terminal.stdin = []
  taken : ∃ taken, fgetsLoop 1023 typed = taken ++ fgetsLoop 1023 terminal.stdin ∧
    terminal.message = cstr (taken.getLastD left)

def liveOf (sendings : List Sending) : List Message :=
  sendings.filterMap fun sending => match sending with
    | .live message => some message
    | .replay _ => none

def replayOf (sendings : List Sending) : Bytes :=
  sendings.flatMap fun sending => match sending with
    | .replay text => text
    | .live _ => []

/-- What has been sent to a connection of the log. -/
structure Replayed (chat : Chat) : Prop where
  reading : ∀ conn rest, chat.replaying = some (conn, rest) →
    (chat.server.conns conn).map Conn.phase = some .replaying ∧
      replayOf (chat.sendings conn) ++ rest = logFile chat.server.chatlog
  silent : ∀ conn, Event.replayed conn ∉ chat.server.history →
    (∀ rest, chat.replaying ≠ some (conn, rest)) → replayOf (chat.sendings conn) = []
  done : ∀ conn, Event.replayed conn ∈ chat.server.history →
    replayOf (chat.sendings conn) = logFile (chat.server.replayed conn) ∧
      ∃ later, chat.server.chatlog = chat.server.replayed conn ++ later

structure Shown (chat : Chat) : Prop where
  clean : ∀ conn, ∀ sending ∈ chat.sendings conn, (0 : Byte) ∉ sending.text
  within : ∀ conn, (chat.terminals conn).heard ≤ (stream (chat.sendings conn)).length
  shown : ∀ conn, (chat.terminals conn).shown =
    (stream (chat.sendings conn)).take (chat.terminals conn).heard

inductive Served (chat : Chat) (action : PlainServer.Action) (server : State) : Prop where
  | quiet (conn : Nat) (moved : Conn)
      (conns : server.conns = Function.update chat.server.conns conn (some moved))
      (before : heldBy unsent chat.server conn = []) (after : unsent moved.phase = [])
      (elsewhere : (chat.server.conns conn).map Conn.phase ≠ some .replaying)
      (chatlog : server.chatlog = chat.server.chatlog) (live : server.live = chat.server.live)
      (replayed : server.replayed = chat.server.replayed)
      (announced : announcements server.history = announcements chat.server.history)
      (replays : ∀ other, Event.replayed other ∈ server.history ↔
        Event.replayed other ∈ chat.server.history)
      (sendings : chat.sendingsAfter action = chat.sendings)
      (replaying : chat.replayingAfter action = chat.replaying)
  | replayed (conn : Nat) (found : Conn) (lookup : chat.server.conns conn = some found)
      (here : found.phase = .replaying) (ended : chat.replaying = some (conn, []))
      (same : server = (chat.server.replay conn).move conn
        { found with phase := .broadcasting .joined })
      (sendings : chat.sendingsAfter action = chat.sendings)
      (replaying : chat.replayingAfter action = none)
  | saved (conn : Nat) (found : Conn) (buffer : Bytes)
      (lookup : chat.server.conns conn = some found) (here : found.phase = .saving buffer)
      (free : chat.replaying = none)
      (same : server = (chat.server.saveChatToFile (found.message conn (.said buffer))).move conn
        { found with phase := .broadcasting (.said buffer) })
      (sendings : chat.sendingsAfter action = chat.sendings)
      (replaying : chat.replayingAfter action = none)
  | broadcast (conn : Nat) (found : Conn) (notice : Notice)
      (lookup : chat.server.conns conn = some found) (here : found.phase = .broadcasting notice)
      (same : server = (chat.server.broadcast (found.message conn notice) found.sock).move conn
        { found with phase := notice.next, sent := found.sent + 1 })
      (sendings : chat.sendingsAfter action = writeAll chat.server.descriptors
        (.live (found.message conn notice)) chat.sendings
        (sendTargets found.sock chat.server.clients))
      (replaying : chat.replayingAfter action = chat.replaying)

section Served

variable {chat : Chat} {server : State} {conn : Nat} {found moved : Conn}

theorem held_of_lookup {hold : Phase → Bytes} (lookup : chat.server.conns conn = some found) :
    heldBy hold chat.server conn = hold found.phase := by
  simp only [heldBy, lookup]

theorem held_nothing {hold : Phase → Bytes} {phase : Phase}
    (lookup : chat.server.conns conn = some found) (here : found.phase = phase)
    (nothing : hold phase = []) : heldBy hold chat.server conn = [] := by
  rw [held_of_lookup lookup, here, nothing]

theorem proceed_served (lookup : chat.server.conns conn = some found)
    (serves : chat.serves (.proceed conn) = true)
    (stepped : proceed chat.server conn found = some server) :
    Served chat (.proceed conn) server := by
  obtain ⟨sock, username, phase, sent⟩ := found
  cases phase with
  | replaying =>
      cases stepped
      simp only [Chat.serves, lookup, Option.map_some, decide_eq_true_eq] at serves
      refine Served.replayed conn _ lookup rfl serves rfl ?_ ?_
      · simp only [Chat.sendingsAfter, lookup]
      · simp only [Chat.replayingAfter, lookup, Option.map_some]
  | broadcasting notice =>
      cases stepped
      refine Served.broadcast conn _ notice lookup rfl rfl ?_ ?_
      · simp only [Chat.sendingsAfter, lookup]
        rfl
      · simp only [Chat.replayingAfter, lookup, Option.map_some]
  | saving buffer =>
      cases stepped
      simp only [Chat.serves, lookup, Option.map_some, decide_eq_true_eq] at serves
      refine Served.saved conn _ buffer lookup rfl serves rfl ?_ ?_
      · simp only [Chat.sendingsAfter, lookup]
      · simp only [Chat.replayingAfter, lookup, Option.map_some]
        exact serves
  | closing =>
      cases stepped
      refine Served.quiet conn _ rfl (held_of_lookup lookup) rfl (by simp [lookup]) rfl rfl rfl
        ?_ ?_ ?_ ?_
      · simp [State.note, State.move, State.close, announcements]
      · simp [State.note, State.move, State.close]
      · simp only [Chat.sendingsAfter, lookup]
      · simp only [Chat.replayingAfter, lookup, Option.map_some]
  | removing =>
      cases stepped
      refine Served.quiet conn _ rfl (held_of_lookup lookup) rfl (by simp [lookup]) rfl rfl rfl
        ?_ ?_ ?_ ?_
      · simp [State.note, State.move, announcements]
      · simp [State.note, State.move]
      · simp only [Chat.sendingsAfter, lookup]
      · simp only [Chat.replayingAfter, lookup, Option.map_some]
  | handshake => cases stepped
  | registering => cases stepped
  | reading => cases stepped
  | ended => cases stepped

theorem step_served {action : PlainServer.Action} (serves : chat.serves action = true)
    (stepped : PlainServer.step chat.server action = some server) : Served chat action server := by
  cases action with
  | accept conn number =>
      simp only [PlainServer.step] at stepped
      split at stepped
      case isTrue guards =>
        cases stepped
        exact Served.quiet conn _ rfl (by simp only [heldBy, guards.1]) rfl (by simp [guards.1])
          rfl rfl rfl rfl (fun _ => Iff.rfl) rfl rfl
      case isFalse => cases stepped
  | login conn result =>
      cases lookup : chat.server.conns conn with
      | none => simp [PlainServer.step, lookup] at stepped
      | some found =>
          simp only [PlainServer.step, lookup] at stepped
          split at stepped
          case isTrue here =>
            have before : heldBy unsent chat.server conn = [] := held_nothing lookup here rfl
            cases result with
            | none =>
                cases stepped
                exact Served.quiet conn _ rfl before rfl (by simp [lookup, here])
                  rfl rfl rfl rfl (fun _ => Iff.rfl) rfl rfl
            | some username =>
                cases stepped
                exact Served.quiet conn _ rfl before rfl (by simp [lookup, here])
                  rfl rfl rfl rfl (fun _ => Iff.rfl) rfl rfl
          case isFalse => cases stepped
  | register conn =>
      cases lookup : chat.server.conns conn with
      | none => simp [PlainServer.step, lookup] at stepped
      | some found =>
          simp only [PlainServer.step, lookup] at stepped
          split at stepped
          case isTrue here =>
            have before : heldBy unsent chat.server conn = [] := held_nothing lookup here rfl
            split at stepped
            · cases stepped
              refine Served.quiet conn _ rfl before rfl (by simp [lookup, here]) rfl rfl rfl
                ?_ ?_ rfl rfl
              · simp [State.note, State.move, announcements]
              · simp [State.note, State.move]
            · cases stepped
              exact Served.quiet conn _ rfl before rfl (by simp [lookup, here])
                rfl rfl rfl rfl (fun _ => Iff.rfl) rfl rfl
          case isFalse => cases stepped
  | receive conn chunk =>
      cases chunk with
      | some buffer => cases serves
      | none =>
          cases lookup : chat.server.conns conn with
          | none => simp [PlainServer.step, lookup] at stepped
          | some found =>
              simp only [PlainServer.step, lookup] at stepped
              split at stepped
              case isTrue here =>
                cases stepped
                have before : heldBy unsent chat.server conn = [] := held_nothing lookup here rfl
                exact Served.quiet conn _ rfl before rfl (by simp [lookup, here])
                  rfl rfl rfl rfl (fun _ => Iff.rfl) rfl rfl
              case isFalse => cases stepped
  | proceed conn =>
      cases lookup : chat.server.conns conn with
      | none => simp [PlainServer.step, lookup] at stepped
      | some found =>
          simp only [PlainServer.step, lookup] at stepped
          exact proceed_served lookup serves stepped

end Served

section Upward

variable {typed : Nat → Bytes} {chat next : Chat} {server : State} {conn : Nat}
  {found moved : Conn} {body : Message → Bytes} {messages after : List Message}
  {hold : Phase → Bytes}

theorem said_snoc (conn : Nat) (messages : List Message) (message : Message) :
    saidBy body conn (messages ++ [message]) = saidBy body conn messages ++
      if message.author = conn then body message else [] := by
  rw [saidBy, saidBy, List.filter_append, List.flatMap_append, List.filter_singleton]
  by_cases own : message.author = conn
  · simp [own]
  · simp [own]

theorem held_move (conns : server.conns = Function.update chat.server.conns conn (some moved))
    (other : Nat) : heldBy hold server other =
      if other = conn then hold moved.phase else heldBy hold chat.server other := by
  unfold heldBy
  rw [conns]
  by_cases same : other = conn
  · rw [same, Function.update_self, if_pos rfl]
  · rw [Function.update_of_ne same, if_neg same]

theorem unsaved_of_unsent {phase : Phase} (nothing : unsent phase = []) : unsaved phase = [] := by
  cases phase with
  | saving buffer => exact nothing
  | _ => rfl

theorem held_unsaved (nothing : heldBy unsent server conn = []) :
    heldBy unsaved server conn = [] := by
  unfold heldBy at nothing ⊢
  split
  case h_1 found lookup =>
    rw [lookup] at nothing
    exact unsaved_of_unsent nothing
  case h_2 => rfl

theorem held_said (conns : server.conns = Function.update chat.server.conns conn (some moved))
    (others : ∀ other, other ≠ conn → saidBy body other after = saidBy body other messages)
    (own : saidBy body conn after ++ hold moved.phase =
      saidBy body conn messages ++ heldBy hold chat.server conn) (other : Nat) :
    saidBy body other after ++ heldBy hold server other =
      saidBy body other messages ++ heldBy hold chat.server other := by
  rw [held_move conns]
  by_cases same : other = conn
  · rw [if_pos same, same]
    exact own
  · rw [if_neg same, others other same]

theorem said_other {other : Nat} (notice : Notice) (apart : other ≠ conn) :
    saidBy body other (messages ++ [found.message conn notice]) = saidBy body other messages := by
  have foreign : (found.message conn notice).author ≠ other := Ne.symm apart
  rw [said_snoc, if_neg foreign, List.append_nil]

theorem said_own (notice : Notice) :
    saidBy received conn (messages ++ [found.message conn notice]) =
      saidBy received conn messages ++ Notice.body notice := by
  rw [said_snoc]
  exact congrArg (saidBy received conn messages ++ ·) (if_pos rfl)

theorem served_logged {action : PlainServer.Action} (served : Served chat action server)
    (other : Nat) : saidBy received other server.chatlog ++ heldBy unsaved server other =
      saidBy received other chat.server.chatlog ++ heldBy unsaved chat.server other := by
  cases served with
  | quiet conn moved conns before after elsewhere chatlog =>
      rw [chatlog]
      refine held_said conns (fun _ _ => rfl) ?_ other
      rw [held_unsaved before, unsaved_of_unsent after]
  | replayed conn found lookup here ended same =>
      rw [same]
      refine held_said rfl (fun _ _ => rfl) ?_ other
      rw [held_nothing lookup here rfl]
      rfl
  | saved conn found buffer lookup here free same =>
      rw [same]
      refine @held_said _ _ conn _ _ _ _ _ rfl (fun _ apart => said_other _ apart) ?_ other
      rw [held_of_lookup lookup, here]
      change saidBy received conn
        (chat.server.chatlog ++ [found.message conn (.said buffer)]) ++ [] = _
      rw [said_own, List.append_nil]
      rfl
  | broadcast conn found notice lookup here same =>
      rw [same]
      refine held_said rfl (fun _ _ => rfl) ?_ other
      have next : unsaved notice.next = [] := by
        cases notice <;> rfl
      rw [held_nothing lookup here rfl]
      exact congrArg (saidBy received conn chat.server.chatlog ++ ·) next

theorem announcements_snoc (history : List Event) (event : Event) :
    announcements (history ++ [event]) = announcements history ++ announcements [event] := by
  rw [announcements, announcements, announcements, List.filterMap_append]

theorem served_announced {action : PlainServer.Action} (served : Served chat action server)
    (other : Nat) :
    saidBy received other (announcements server.history) ++ heldBy unsent server other =
      saidBy received other (announcements chat.server.history) ++
        heldBy unsent chat.server other := by
  cases served with
  | quiet conn moved conns before after elsewhere chatlog live replayed announced =>
      rw [announced]
      refine held_said conns (fun _ _ => rfl) ?_ other
      rw [before, after]
  | replayed conn found lookup here ended same =>
      have announced : announcements server.history = announcements chat.server.history := by
        rw [same]
        exact (announcements_snoc _ _).trans (List.append_nil _)
      rw [announced, same]
      refine held_said rfl (fun _ _ => rfl) ?_ other
      rw [held_nothing lookup here rfl]
      rfl
  | saved conn found buffer lookup here free same =>
      have announced : announcements server.history = announcements chat.server.history := by
        rw [same]
        exact (announcements_snoc _ _).trans (List.append_nil _)
      rw [announced, same]
      refine held_said rfl (fun _ _ => rfl) ?_ other
      rw [held_of_lookup lookup, here]
      rfl
  | broadcast conn found notice lookup here same =>
      have announced : announcements server.history =
          announcements chat.server.history ++ [found.message conn notice] := by
        rw [same]
        exact announcements_snoc _ _
      rw [announced, same]
      refine @held_said _ _ conn _ _ _ _ _ rfl (fun _ apart => said_other _ apart) ?_ other
      have next : unsent notice.next = [] := by
        cases notice <;> rfl
      rw [held_of_lookup lookup, here]
      change _ ++ unsent notice.next = _
      rw [next, said_own, List.append_nil]
      rfl

theorem Carried.serve (carried : Carried typed chat body messages hold)
    (terminals : next.terminals = chat.terminals)
    (same : ∀ conn, saidBy body conn after ++ heldBy hold next.server conn =
      saidBy body conn messages ++ heldBy hold chat.server conn) :
    Carried typed next body after hold := by
  intro conn
  rw [terminals, ← List.append_assoc, same, List.append_assoc]
  exact carried conn

theorem Carried.terminal {terminal : Terminal} {again : Bytes}
    (carried : Carried typed chat body messages hold)
    (terminals : next.terminals = Function.update chat.terminals conn terminal)
    (others : ∀ other, other ≠ conn → heldBy hold next.server other = heldBy hold chat.server other)
    (repeated : terminal.repeated = (chat.terminals conn).repeated ++ again)
    (own : heldBy hold next.server conn ++ (terminal.upstream ++ terminal.stdin) =
      heldBy hold chat.server conn ++
        ((chat.terminals conn).upstream ++ (chat.terminals conn).stdin) ++ again) :
    Carried typed next body messages hold := by
  intro other
  rw [terminals]
  by_cases same : other = conn
  · rw [same, Function.update_self, own, repeated, ← List.append_assoc, carried conn,
      List.append_assoc]
  · rw [Function.update_of_ne same, others other same]
    exact carried other

theorem repeated_no_nul {left : Bytes} {terminal : Terminal} {line : Bytes}
    (keyboard : Keyboard line left terminal) : (0 : Byte) ∉ terminal.repeated := by
  intro member
  obtain ⟨piece, copied, inside⟩ := List.mem_flatten.mp member
  rw [List.eq_of_mem_replicate copied] at inside
  exact keyboard.clean inside

theorem Carried.clean (carried : Carried typed chat body messages hold)
    (noNul : (0 : Byte) ∉ typed conn) (repeated : (0 : Byte) ∉ (chat.terminals conn).repeated) :
    (0 : Byte) ∉ (chat.terminals conn).upstream ∧ (0 : Byte) ∉ (chat.terminals conn).stdin := by
  have whole : (0 : Byte) ∉ typed conn ++ (chat.terminals conn).repeated := by
    rw [List.mem_append, not_or]
    exact ⟨noNul, repeated⟩
  rw [carried conn] at whole
  simp only [List.mem_append, not_or] at whole
  exact whole.2.2

end Upward

section Downward

variable {chat next : Chat} {server : State} {conn : Nat} {found : Conn}
  {first second : List Sending}

theorem stream_append (first second : List Sending) :
    stream (first ++ second) = stream first ++ stream second := List.flatMap_append

theorem live_of_append (first second : List Sending) :
    liveOf (first ++ second) = liveOf first ++ liveOf second := List.filterMap_append

theorem replay_of_append (first second : List Sending) :
    replayOf (first ++ second) = replayOf first ++ replayOf second := List.flatMap_append

theorem live_copies (count : Nat) (message : Message) :
    liveOf (List.replicate count (.live message)) = List.replicate count message ∧
      replayOf (List.replicate count (.live message)) = [] := by
  induction count with
  | zero => exact ⟨rfl, rfl⟩
  | succ count ih =>
      rw [List.replicate_succ, List.replicate_succ]
      exact ⟨congrArg (message :: ·) ih.1, ih.2⟩

structure Sends (chat : Chat) (server : State) (after : Nat → List Sending) : Prop where
  live : (∀ conn, liveOf (chat.sendings conn) = chat.server.live conn) →
    ∀ conn, liveOf (after conn) = server.live conn
  replay : ∀ conn, replayOf (after conn) = replayOf (chat.sendings conn)
  grown : NulFree chat.server → ∀ conn, ∃ more, after conn = chat.sendings conn ++ more ∧
    ∀ sending ∈ more, (0 : Byte) ∉ sending.text

theorem sends_nothing (live : server.live = chat.server.live) :
    Sends chat server chat.sendings where
  live := by
    intro same conn
    rw [live]
    exact same conn
  replay := fun _ => rfl
  grown := fun _ conn =>
    ⟨[], (List.append_nil _).symm, fun _ impossible => absurd impossible List.not_mem_nil⟩

theorem message_no_nul {message : Message} (clean : (0 : Byte) ∉ message.username) :
    (0 : Byte) ∉ message.text := by
  have server : (0 : Byte) ∉ ascii "[SERVER]: " := by decide
  have joined : (0 : Byte) ∉ ascii " has joined\n" := by decide
  have leaved : (0 : Byte) ∉ ascii " has leaved\n" := by decide
  have colon : (0 : Byte) ∉ ascii ": " := by decide
  unfold Message.text Notice.text
  split
  · apply snprintf_no_nul
    simp [clean, server, joined]
  · rename_i buffer said
    apply snprintf_no_nul
    simp [PlainServer.savedText, clean, colon, cstr_no_nul buffer]
  · apply snprintf_no_nul
    simp [clean, server, leaved]

theorem served_sends {action : PlainServer.Action} (served : Served chat action server) :
    Sends chat server (chat.sendingsAfter action) := by
  cases served with
  | quiet conn moved conns before after elsewhere chatlog live replayed announced replays
      sendings =>
      rw [sendings]
      exact sends_nothing live
  | replayed conn found lookup here ended same sendings =>
      rw [sendings]
      exact sends_nothing (by rw [same]; rfl)
  | saved conn found buffer lookup here free same sendings =>
      rw [sendings]
      exact sends_nothing (by rw [same]; rfl)
  | broadcast conn found notice lookup here same sendings =>
      rw [sendings, same]
      constructor
      case live =>
        intro before other
        change _ = writeAll chat.server.descriptors (found.message conn notice) chat.server.live
          (sendTargets found.sock chat.server.clients) other
        rw [write_all_apply, write_all_apply, live_of_append, before, (live_copies _ _).1]
      case replay =>
        intro other
        rw [write_all_apply, replay_of_append, (live_copies _ _).2, List.append_nil]
      case grown =>
        intro clean other
        refine ⟨_, write_all_apply _ _ _, ?_⟩
        intro sending member
        rw [List.eq_of_mem_replicate member]
        exact message_no_nul (clean.conns conn found lookup)

theorem Shown.grow (shown : Shown chat) (terminals : next.terminals = chat.terminals)
    (grown : ∀ conn, ∃ more, next.sendings conn = chat.sendings conn ++ more ∧
      ∀ sending ∈ more, (0 : Byte) ∉ sending.text) : Shown next := by
  constructor
  case clean =>
    intro conn sending member
    obtain ⟨more, same, clean⟩ := grown conn
    rw [same] at member
    rcases List.mem_append.mp member with old | new
    · exact shown.clean conn sending old
    · exact clean sending new
  case within =>
    intro conn
    obtain ⟨more, same, _⟩ := grown conn
    rw [terminals, same, stream_append, List.length_append]
    exact Nat.le_add_right_of_le (shown.within conn)
  case shown =>
    intro conn
    obtain ⟨more, same, _⟩ := grown conn
    rw [terminals, same, stream_append, List.take_append_of_le_length (shown.within conn)]
    exact shown.shown conn

theorem Shown.terminal {terminal : Terminal} (shown : Shown chat)
    (sendings : next.sendings = chat.sendings)
    (terminals : next.terminals = Function.update chat.terminals conn terminal)
    (within : terminal.heard ≤ (stream (chat.sendings conn)).length)
    (same : terminal.shown = (stream (chat.sendings conn)).take terminal.heard) : Shown next := by
  constructor
  case clean =>
    rw [sendings]
    exact shown.clean
  case within =>
    intro other
    rw [sendings, terminals]
    by_cases here : other = conn
    · rw [here, Function.update_self]
      exact within
    · rw [Function.update_of_ne here]
      exact shown.within other
  case shown =>
    intro other
    rw [sendings, terminals]
    by_cases here : other = conn
    · rw [here, Function.update_self]
      exact same
    · rw [Function.update_of_ne here]
      exact shown.shown other

theorem stream_no_nul (shown : Shown chat) (conn : Nat) :
    (0 : Byte) ∉ stream (chat.sendings conn) := by
  intro member
  obtain ⟨sending, sent, inside⟩ := List.mem_flatMap.mp member
  exact shown.clean conn sending sent inside

/-- `memset` before the `recv` leaves a terminator behind what is received. -/
theorem printed_chunk {chunk : Bytes} {count : Nat} (noNul : (0 : Byte) ∉ chunk)
    (room : count ≤ 1023) : cstr (chunk ++ List.replicate (1024 - count) 0) = chunk := by
  have one : 1024 - count = 1023 - count + 1 := by omega
  rw [one, List.replicate_succ, cstr_stops, cstr_of_no_nul noNul]

theorem Replayed.stays (replayed : Replayed chat) (replaying : next.replaying = chat.replaying)
    (texts : ∀ conn, replayOf (next.sendings conn) = replayOf (chat.sendings conn))
    (phases : ∀ conn, (chat.server.conns conn).map Conn.phase = some .replaying →
      (next.server.conns conn).map Conn.phase = some .replaying)
    (chatlog : next.server.chatlog = chat.server.chatlog)
    (same : next.server.replayed = chat.server.replayed)
    (history : ∀ conn, Event.replayed conn ∈ next.server.history ↔
      Event.replayed conn ∈ chat.server.history) : Replayed next := by
  constructor
  case reading =>
    intro conn rest holds
    rw [replaying] at holds
    obtain ⟨phase, split⟩ := replayed.reading conn rest holds
    rw [texts, chatlog]
    exact ⟨phases conn phase, split⟩
  case silent =>
    intro conn missing idle
    rw [history] at missing
    rw [replaying] at idle
    rw [texts]
    exact replayed.silent conn missing idle
  case done =>
    intro conn finished
    rw [texts, chatlog, same]
    exact replayed.done conn ((history conn).mp finished)

theorem phases_elsewhere {moved : Conn}
    (conns : server.conns = Function.update chat.server.conns conn (some moved))
    (elsewhere : (chat.server.conns conn).map Conn.phase ≠ some .replaying) (other : Nat)
    (there : (chat.server.conns other).map Conn.phase = some .replaying) :
    (server.conns other).map Conn.phase = some .replaying := by
  have apart : other ≠ conn := by
    intro same
    rw [same] at there
    exact elsewhere there
  rw [conns, Function.update_of_ne apart]
  exact there

theorem served_replayed {action : PlainServer.Action} (replayed : Replayed chat)
    (served : Served chat action server) :
    Replayed { chat with
      server
      replaying := chat.replayingAfter action
      sendings := chat.sendingsAfter action } := by
  have texts := (served_sends served).replay
  cases served with
  | quiet conn moved conns before after elsewhere chatlog live same announced replays sendings
      replaying =>
      exact replayed.stays replaying texts (phases_elsewhere conns elsewhere) chatlog same replays
  | replayed conn found lookup here ended same sendings replaying =>
      obtain ⟨_, split⟩ := replayed.reading conn [] ended
      rw [List.append_nil] at split
      have history : server.history = chat.server.history ++ [.replayed conn] := by
        rw [same]
        rfl
      have logs : server.replayed =
          Function.update chat.server.replayed conn chat.server.chatlog := by
        rw [same]
        rfl
      have chatlog : server.chatlog = chat.server.chatlog := by
        rw [same]
        rfl
      constructor
      case reading =>
        intro other rest holds
        change chat.replayingAfter action = _ at holds
        rw [replaying] at holds
        cases holds
      case silent =>
        intro other missing _
        change Event.replayed other ∉ server.history at missing
        rw [history, List.mem_append, not_or, List.mem_singleton] at missing
        have apart : other ≠ conn := fun equal => missing.2 (by rw [equal])
        change replayOf (chat.sendingsAfter action other) = []
        rw [texts]
        apply replayed.silent other missing.1
        intro rest holds
        rw [ended] at holds
        cases holds
        exact apart rfl
      case done =>
        intro other finished
        change Event.replayed other ∈ server.history at finished
        change replayOf (chat.sendingsAfter action other) = logFile (server.replayed other) ∧
          ∃ later, server.chatlog = server.replayed other ++ later
        rw [texts, logs, chatlog]
        by_cases own : other = conn
        · rw [own, Function.update_self]
          exact ⟨split, [], (List.append_nil _).symm⟩
        · rw [Function.update_of_ne own]
          apply replayed.done
          rw [history, List.mem_append, List.mem_singleton] at finished
          rcases finished with old | new
          · exact old
          · cases new
            exact absurd rfl own
  | saved conn found buffer lookup here free same sendings replaying =>
      have history : ∀ other, Event.replayed other ∈ server.history ↔
          Event.replayed other ∈ chat.server.history := by
        intro other
        rw [same]
        simp [State.move, State.saveChatToFile, State.note]
      constructor
      case reading =>
        intro other rest holds
        change chat.replayingAfter action = _ at holds
        rw [replaying] at holds
        cases holds
      case silent =>
        intro other missing _
        change replayOf (chat.sendingsAfter action other) = []
        rw [texts]
        apply replayed.silent other fun old => missing ((history other).mpr old)
        rw [free]
        intro rest impossible
        cases impossible
      case done =>
        intro other finished
        obtain ⟨text, later, split⟩ := replayed.done other ((history other).mp finished)
        change replayOf (chat.sendingsAfter action other) = logFile (server.replayed other) ∧
          ∃ later, server.chatlog = server.replayed other ++ later
        rw [texts, same]
        refine ⟨text, later ++ [found.message conn (.said buffer)], ?_⟩
        change chat.server.chatlog ++ [_] = chat.server.replayed other ++ _
        rw [split, List.append_assoc]
  | broadcast conn found notice lookup here same sendings replaying =>
      have elsewhere : (chat.server.conns conn).map Conn.phase ≠ some .replaying := by
        simp [lookup, here]
      apply replayed.stays replaying texts
      case phases => exact phases_elsewhere (by rw [same]; rfl) elsewhere
      case chatlog =>
        change server.chatlog = _
        rw [same]
        rfl
      case same =>
        change server.replayed = _
        rw [same]
        rfl
      case history =>
        intro other
        change Event.replayed other ∈ server.history ↔ _
        rw [same]
        simp [State.move, State.broadcast, State.note]

end Downward

section Texts

theorem told_eq (message : Message) :
    told message = (received message).take (1021 - message.username.length) := by
  obtain ⟨author, seq, notice, username⟩ := message
  cases notice with
  | joined => exact List.take_nil.symm
  | left => exact List.take_nil.symm
  | said buffer =>
      have prefixed : username.length + 2 = (username ++ ascii ": ").length := by
        rw [List.length_append]
        rfl
      change ((username ++ ascii ": " ++ cstr buffer).take 1023).drop (username.length + 2) = _
      rw [prefixed, List.drop_take, List.drop_left, ← prefixed]
      have room : 1023 - (username.length + 2) = 1021 - username.length := by omega
      exact congrArg (List.take · (cstr buffer)) room

theorem told_iff_uncut (message : Message) : told message = received message ↔ Uncut message := by
  rw [told_eq, List.take_eq_self_iff]
  exact Iff.rfl

theorem told_length_le (conn : Nat) (messages : List Message) :
    (saidBy told conn messages).length ≤ (saidBy received conn messages).length := by
  induction messages with
  | nil => exact Nat.le_refl 0
  | cons message rest ih =>
      unfold saidBy at ih ⊢
      rw [List.filter_cons]
      split
      · rw [List.flatMap_cons, List.flatMap_cons, List.length_append, List.length_append, told_eq]
        exact Nat.add_le_add (List.length_take_le' _ _) ih
      · exact ih

theorem uncut_of_told {messages : List Message}
    (same : ∀ conn, saidBy told conn messages = saidBy received conn messages) :
    ∀ message ∈ messages, Uncut message := by
  induction messages with
  | nil =>
      intro message impossible
      cases impossible
  | cons head rest ih =>
      have short : (told head).length ≤ (received head).length := by
        rw [told_eq]
        exact List.length_take_le' _ _
      have own := congrArg List.length (same head.author)
      have bound := told_length_le head.author rest
      unfold saidBy at own bound
      rw [List.filter_cons, if_pos (decide_eq_true rfl), List.flatMap_cons, List.flatMap_cons,
        List.length_append, List.length_append] at own
      have whole : Uncut head := by
        rw [← told_iff_uncut, told_eq, List.take_eq_self_iff]
        have counted : (told head).length = (received head).length := by omega
        rw [told_eq, List.length_take] at counted
        omega
      have later : ∀ conn, saidBy told conn rest = saidBy received conn rest := by
        intro conn
        have here := same conn
        unfold saidBy at here ⊢
        rw [List.filter_cons] at here
        split at here
        · rw [List.flatMap_cons, List.flatMap_cons, (told_iff_uncut head).mpr whole] at here
          exact List.append_cancel_left here
        · exact here
      intro message member
      rcases List.mem_cons.mp member with first | inside
      · rw [first]
        exact whole
      · exact ih later message inside

theorem told_of_uncut {messages : List Message} (uncut : ∀ message ∈ messages, Uncut message)
    (conn : Nat) : saidBy told conn messages = saidBy received conn messages := by
  unfold saidBy
  apply List.flatMap_congr
  intro message member
  exact (told_iff_uncut message).mpr (uncut message (List.mem_of_mem_filter member))

/-- The texts of the broadcasts carry all that was received exactly when none of them is cut. -/
theorem carried_iff_uncut {typed : Nat → Bytes} {chat : Chat} {messages : List Message}
    {hold : Phase → Bytes} (carried : Carried typed chat received messages hold) :
    Carried typed chat told messages hold ↔ ∀ message ∈ messages, Uncut message := by
  constructor
  · intro texts
    apply uncut_of_told
    intro conn
    exact List.append_cancel_right ((texts conn).symm.trans (carried conn))
  · intro uncut conn
    rw [told_of_uncut uncut]
    exact carried conn

end Texts

section Keyboards

variable {typed left : Bytes} {terminal : Terminal}

theorem keyboard_start (typed left : Bytes) :
    Keyboard typed left ⟨typed, cstr left, 0, [], 0, []⟩ where
  clean := cstr_no_nul left
  ended := fun impossible => absurd rfl impossible
  taken := ⟨[], rfl, rfl⟩

theorem Keyboard.send_line (keyboard : Keyboard typed left terminal) :
    Keyboard typed left terminal.sendLine := by
  obtain ⟨taken, split, last⟩ := keyboard.taken
  by_cases ended : terminal.stdin = []
  · rw [Terminal.sendLine, if_pos ended]
    exact ⟨keyboard.clean, fun _ => ended, taken, split, last⟩
  · rw [Terminal.sendLine, if_neg ended]
    constructor
    case clean => exact cstr_no_nul _
    case ended =>
      intro repeats
      exact absurd (keyboard.ended repeats) ended
    case taken =>
      refine ⟨taken ++ [(CString.fgets 1023 terminal.stdin).1], ?_, ?_⟩
      · rw [split, GrowingFile.fgets_loop_next ended, List.append_assoc]
        rfl
      · rw [List.getLastD_concat]

/-- What `fgets` takes is sent, and after the end of the input the last line once more. -/
theorem send_line_bytes (keyboard : Keyboard typed left terminal)
    (noNul : (0 : Byte) ∉ terminal.stdin) :
    ∃ again, terminal.sendLine.repeated = terminal.repeated ++ again ∧
      terminal.sendLine.upstream ++ terminal.sendLine.stdin =
        terminal.upstream ++ terminal.stdin ++ again := by
  by_cases ended : terminal.stdin = []
  · rw [Terminal.sendLine, if_pos ended]
    refine ⟨terminal.message, ?_, ?_⟩
    · simp only [Terminal.repeated]
      rw [List.replicate_succ', List.flatten_append, List.flatten_singleton]
    · simp only [ended, List.append_nil]
  · have none : terminal.repeats = 0 := by
      by_contra some
      exact ended (keyboard.ended some)
    have whole := fgets_flatten 1023 terminal.stdin
    have line : (0 : Byte) ∉ (CString.fgets 1023 terminal.stdin).1 := by
      intro member
      apply noNul
      rw [← whole]
      exact List.mem_append_left _ member
    rw [Terminal.sendLine, if_neg ended]
    refine ⟨[], ?_, ?_⟩
    · simp only [Terminal.repeated, none, List.replicate_zero, List.flatten_nil, List.append_nil]
    · simp only [List.append_nil, cstr_of_no_nul line, List.append_assoc, whole]

end Keyboards

/-- What every run of the chat keeps. -/
structure Relays (typed left : Nat → Bytes) (chat : Chat) : Prop where
  reached : ∃ served, run PlainServer.step initial served = some chat.server
  keyboards : ∀ conn, Keyboard (typed conn) (left conn) (chat.terminals conn)
  logged : Carried typed chat received chat.server.chatlog unsaved
  announced : Carried typed chat received (announcements chat.server.history) unsent
  live : ∀ conn, liveOf (chat.sendings conn) = chat.server.live conn
  replayed : Replayed chat
  shown : Shown chat

theorem relays_start (typed left : Nat → Bytes) : Relays typed left (start typed left) where
  reached := ⟨[], rfl⟩
  keyboards := fun conn => keyboard_start (typed conn) (left conn)
  logged := fun conn => List.append_nil (typed conn)
  announced := fun conn => List.append_nil (typed conn)
  live := fun _ => rfl
  replayed := by
    constructor
    case reading =>
      intro conn rest impossible
      cases impossible
    case silent => exact fun _ _ _ => rfl
    case done =>
      intro conn impossible
      cases impossible
  shown := by
    constructor
    case clean =>
      intro conn sending impossible
      cases impossible
    case within => exact fun _ => Nat.le_refl 0
    case shown => exact fun _ => rfl

section Steps

variable {typed left : Nat → Bytes} {chat next : Chat} {conn : Nat}

theorem Relays.nul_free (relays : Relays typed left chat) : NulFree chat.server := by
  obtain ⟨served, ran⟩ := relays.reached
  exact run_keeps_always (fun _ _ _ before stepped => nul_free_step before stepped)
    nul_free_initial ran

theorem Relays.reach (relays : Relays typed left chat) {action : PlainServer.Action} {server : State}
    (stepped : PlainServer.step chat.server action = some server) :
    ∃ served, run PlainServer.step initial served = some server := by
  obtain ⟨served, ran⟩ := relays.reached
  refine ⟨served ++ [action], ?_⟩
  rw [run_append ran, run_cons_some]
  exact ⟨server, stepped, rfl⟩

theorem Relays.unread (relays : Relays typed left chat)
    (here : (chat.server.conns conn).map Conn.phase = some .replaying) :
    Event.replayed conn ∉ chat.server.history := by
  obtain ⟨served, ran⟩ := relays.reached
  intro finished
  obtain ⟨found, lookup, past⟩ := (kept_run ran).past _ finished
  change chat.server.conns conn = some found at lookup
  rw [lookup, Option.map_some, Option.some.injEq] at here
  rw [here] at past
  change 3 ≤ 2 at past
  omega

theorem Relays.clean (relays : Relays typed left chat) (noNul : (0 : Byte) ∉ typed conn) :
    (0 : Byte) ∉ (chat.terminals conn).upstream ∧ (0 : Byte) ∉ (chat.terminals conn).stdin :=
  relays.logged.clean noNul (repeated_no_nul (relays.keyboards conn))

theorem Relays.keyboard {terminal : Terminal} (relays : Relays typed left chat)
    (own : Keyboard (typed conn) (left conn) terminal) (other : Nat) :
    Keyboard (typed other) (left other) (Function.update chat.terminals conn terminal other) := by
  by_cases same : other = conn
  · rw [same, Function.update_self]
    exact own
  · rw [Function.update_of_ne same]
    exact relays.keyboards other

theorem Relays.terminal {terminal : Terminal} {again : Bytes} (relays : Relays typed left chat)
    (keyboard : Keyboard (typed conn) (left conn) terminal)
    (repeated : terminal.repeated = (chat.terminals conn).repeated ++ again)
    (bytes : terminal.upstream ++ terminal.stdin =
      (chat.terminals conn).upstream ++ (chat.terminals conn).stdin ++ again)
    (within : terminal.heard ≤ (stream (chat.sendings conn)).length)
    (shown : terminal.shown = (stream (chat.sendings conn)).take terminal.heard) :
    Relays typed left (chat.setTerminal conn terminal) where
  reached := relays.reached
  keyboards := relays.keyboard keyboard
  logged := by
    refine relays.logged.terminal rfl (fun _ _ => rfl) repeated ?_
    rw [bytes, ← List.append_assoc]
    rfl
  announced := by
    refine relays.announced.terminal rfl (fun _ _ => rfl) repeated ?_
    rw [bytes, ← List.append_assoc]
    rfl
  live := relays.live
  replayed := relays.replayed.stays rfl (fun _ => rfl) (fun _ there => there) rfl rfl
    fun _ => Iff.rfl
  shown := relays.shown.terminal rfl rfl within shown

theorem relays_fgets (relays : Relays typed left chat) (noNul : ∀ conn, (0 : Byte) ∉ typed conn)
    (stepped : step chat (.fgets conn) = some next) : Relays typed left next := by
  simp only [step] at stepped
  split at stepped
  case h_1 => cases stepped
  case h_2 found lookup =>
    split at stepped
    case isTrue => cases stepped
    case isFalse =>
      cases stepped
      have keyboard := relays.keyboards conn
      obtain ⟨again, repeated, bytes⟩ :=
        send_line_bytes keyboard (relays.clean (noNul conn)).2
      have heard : (chat.terminals conn).sendLine.heard = (chat.terminals conn).heard := by
        rw [Terminal.sendLine]
        split <;> rfl
      have shown : (chat.terminals conn).sendLine.shown = (chat.terminals conn).shown := by
        rw [Terminal.sendLine]
        split <;> rfl
      apply relays.terminal keyboard.send_line repeated bytes
      · rw [heard]
        exact relays.shown.within conn
      · rw [heard, shown]
        exact relays.shown.shown conn

theorem relays_print {count : Nat} (relays : Relays typed left chat)
    (stepped : step chat (.print conn count) = some next) : Relays typed left next := by
  simp only [step, Option.ite_none_right_eq_some, Option.some.injEq] at stepped
  obtain ⟨⟨_, room, bound⟩, same⟩ := stepped
  rw [← same]
  have within := relays.shown.within conn
  have clean : (0 : Byte) ∉ ((stream (chat.sendings conn)).drop
      (chat.terminals conn).heard).take count := by
    intro member
    exact stream_no_nul relays.shown conn (List.mem_of_mem_drop (List.mem_of_mem_take member))
  apply @Relays.terminal typed left chat conn _ [] relays
  case keyboard =>
    obtain ⟨clean, ended, taken⟩ := relays.keyboards conn
    exact ⟨clean, ended, taken⟩
  case repeated => exact (List.append_nil _).symm
  case bytes => exact (List.append_nil _).symm
  case within =>
    rw [List.length_drop] at bound
    change (chat.terminals conn).heard + count ≤ _
    omega
  case shown =>
    change (chat.terminals conn).shown ++ _ = _
    rw [printed_chunk clean room, relays.shown.shown conn, List.take_add]

theorem receive_some {state server : State} {buffer : Bytes}
    (stepped : PlainServer.step state (.receive conn (some buffer)) = some server) :
    ∃ found, state.conns conn = some found ∧ found.phase = .reading ∧
      server = state.move conn { found with phase := .saving buffer } := by
  cases lookup : state.conns conn with
  | none => simp [PlainServer.step, lookup] at stepped
  | some found =>
      simp only [PlainServer.step, lookup, Option.ite_none_right_eq_some,
        Option.some.injEq] at stepped
      obtain ⟨here, same⟩ := stepped
      exact ⟨found, rfl, here, same.symm⟩

theorem relays_recv {count : Nat} {stale : Bytes} (relays : Relays typed left chat)
    (noNul : ∀ conn, (0 : Byte) ∉ typed conn)
    (stepped : step chat (.recv conn count stale) = some next) : Relays typed left next := by
  simp only [step, Option.ite_none_right_eq_some, Option.map_eq_some_iff] at stepped
  obtain ⟨⟨_, _, _⟩, server, taken, same⟩ := stepped
  have reached := relays.reach taken
  obtain ⟨found, lookup, here, moved⟩ := receive_some taken
  have clean : (0 : Byte) ∉ (chat.terminals conn).upstream.take count :=
    fun member => (relays.clean (noNul conn)).1 (List.mem_of_mem_take member)
  have text : cstr ((chat.terminals conn).upstream.take count ++ 0 :: stale) =
      (chat.terminals conn).upstream.take count := by
    rw [cstr_stops, cstr_of_no_nul clean]
  have conns : server.conns = Function.update chat.server.conns conn (some ⟨found.sock,
      found.username, .saving ((chat.terminals conn).upstream.take count ++ 0 :: stale),
      found.sent⟩) := by
    rw [moved]
    rfl
  have others : ∀ hold other, other ≠ conn →
      heldBy hold server other = heldBy hold chat.server other := by
    intro hold other apart
    rw [held_move conns, if_neg apart]
  have elsewhere : (chat.server.conns conn).map Conn.phase ≠ some .replaying := by
    simp [lookup, here]
  have bytes : ∀ hold : Phase → Bytes, hold .reading = [] →
      (∀ buffer, hold (.saving buffer) = cstr buffer) →
        heldBy hold server conn ++ ((chat.terminals conn).upstream.drop count ++
          (chat.terminals conn).stdin) = heldBy hold chat.server conn ++
            ((chat.terminals conn).upstream ++ (chat.terminals conn).stdin) ++ [] := by
    intro hold nothing saving
    rw [held_move conns, if_pos rfl, saving, text, held_nothing lookup here nothing,
      ← List.append_assoc, List.take_append_drop, List.nil_append, List.append_nil]
  have chatlog : server.chatlog = chat.server.chatlog := by
    rw [moved]
    rfl
  have history : server.history = chat.server.history := by
    rw [moved]
    rfl
  rw [← same]
  constructor
  case reached => exact reached
  case keyboards =>
    obtain ⟨clean, ended, taken⟩ := relays.keyboards conn
    exact relays.keyboard ⟨clean, ended, taken⟩
  case logged =>
    change Carried typed _ received server.chatlog unsaved
    rw [chatlog]
    exact relays.logged.terminal rfl (others unsaved) (List.append_nil _).symm
      (bytes unsaved rfl fun _ => rfl)
  case announced =>
    change Carried typed _ received (announcements server.history) unsent
    rw [history]
    exact relays.announced.terminal rfl (others unsent) (List.append_nil _).symm
      (bytes unsent rfl fun _ => rfl)
  case live =>
    intro other
    change liveOf (chat.sendings other) = server.live other
    rw [moved]
    exact relays.live other
  case replayed =>
    apply relays.replayed.stays
    case replaying => rfl
    case texts => exact fun _ => rfl
    case phases => exact phases_elsewhere conns elsewhere
    case chatlog => exact chatlog
    case same =>
      change server.replayed = _
      rw [moved]
      rfl
    case history =>
      intro other
      change Event.replayed other ∈ server.history ↔ _
      rw [history]
  case shown =>
    exact relays.shown.terminal rfl rfl (relays.shown.within conn) (relays.shown.shown conn)

theorem relays_fopen (relays : Relays typed left chat) (stepped : step chat (.fopen conn) = some next) :
    Relays typed left next := by
  simp only [step, Option.ite_none_right_eq_some, Option.some.injEq] at stepped
  obtain ⟨⟨here, free⟩, same⟩ := stepped
  have unread : replayOf (chat.sendings conn) = [] := by
    apply relays.replayed.silent conn (relays.unread here)
    rw [free]
    intro rest impossible
    cases impossible
  rw [← same]
  refine ⟨relays.reached, relays.keyboards, relays.logged, relays.announced, relays.live, ?_,
    relays.shown.grow rfl ?_⟩
  · constructor
    case reading =>
      intro other rest holds
      cases holds
      refine ⟨here, ?_⟩
      change replayOf (chat.sendings conn) ++ logFile chat.server.chatlog = _
      rw [unread]
      rfl
    case silent =>
      intro other missing _
      apply relays.replayed.silent other missing
      rw [free]
      intro rest impossible
      cases impossible
    case done => exact relays.replayed.done
  · intro other
    exact ⟨[], (List.append_nil _).symm, fun _ impossible => absurd impossible List.not_mem_nil⟩

theorem log_no_nul (relays : Relays typed left chat) : (0 : Byte) ∉ logFile chat.server.chatlog := by
  intro member
  obtain ⟨message, saved, inside⟩ := List.mem_flatMap.mp member
  exact saved_text_no_nul (relays.nul_free.log message saved) inside

theorem relays_replay (relays : Relays typed left chat) (stepped : step chat (.replay conn) = some next) :
    Relays typed left next := by
  simp only [step] at stepped
  split at stepped
  case h_1 => cases stepped
  case h_2 holder rest replaying =>
    simp only [Option.ite_none_right_eq_some, Option.some.injEq] at stepped
    obtain ⟨⟨owner, _⟩, same⟩ := stepped
    rw [owner] at replaying
    obtain ⟨here, split⟩ := relays.replayed.reading conn rest replaying
    have whole := fgets_flatten 1023 rest
    have clean : (0 : Byte) ∉ (CString.fgets 1023 rest).1 := by
      intro member
      apply log_no_nul relays
      rw [← split, ← whole]
      exact List.mem_append_right _ (List.mem_append_left _ member)
    rw [cstr_of_no_nul clean] at same
    have sent : ∀ other, next.sendings other = chat.sendings other ++
        if other = conn then [.replay (CString.fgets 1023 rest).1] else [] := by
      intro other
      rw [← same]
      change Function.update chat.sendings conn _ other = _
      by_cases own : other = conn
      · rw [own, Function.update_self, if_pos rfl]
      · rw [Function.update_of_ne own, if_neg own, List.append_nil]
    have others : ∀ other, other ≠ conn → replayOf (next.sendings other) =
        replayOf (chat.sendings other) := by
      intro other apart
      rw [sent, if_neg apart, List.append_nil]
    have own : replayOf (next.sendings conn) =
        replayOf (chat.sendings conn) ++ (CString.fgets 1023 rest).1 := by
      rw [sent, if_pos rfl, replay_of_append]
      exact congrArg (_ ++ ·) (List.append_nil _)
    have server : next.server = chat.server := by rw [← same]
    have terminals : next.terminals = chat.terminals := by rw [← same]
    have reading : next.replaying = some (conn, (CString.fgets 1023 rest).2) := by rw [← same]
    constructor
    case reached =>
      rw [server]
      exact relays.reached
    case keyboards =>
      rw [terminals]
      exact relays.keyboards
    case logged =>
      refine relays.logged.serve terminals ?_
      intro other
      rw [server]
    case announced =>
      refine relays.announced.serve terminals ?_
      intro other
      rw [server]
    case live =>
      intro other
      rw [sent, live_of_append, server, relays.live other]
      by_cases mine : other = conn
      · rw [if_pos mine]
        exact List.append_nil _
      · rw [if_neg mine]
        exact List.append_nil _
    case replayed =>
      constructor
      case reading =>
        intro other left holds
        rw [reading] at holds
        cases holds
        rw [server, own, List.append_assoc, whole]
        exact ⟨here, split⟩
      case silent =>
        intro other missing idle
        rw [server] at missing
        have apart : other ≠ conn := by
          intro mine
          rw [reading, mine] at idle
          exact idle _ rfl
        rw [others other apart]
        apply relays.replayed.silent other missing
        rw [replaying]
        intro left holds
        cases holds
        exact apart rfl
      case done =>
        intro other finished
        rw [server] at finished
        have apart : other ≠ conn := by
          intro mine
          rw [mine] at finished
          exact relays.unread here finished
        rw [others other apart, server]
        exact relays.replayed.done other finished
    case shown =>
      refine relays.shown.grow terminals ?_
      intro other
      refine ⟨_, sent other, ?_⟩
      intro sending member
      by_cases mine : other = conn
      · rw [if_pos mine] at member
        rw [List.mem_singleton.mp member]
        exact clean
      · rw [if_neg mine] at member
        cases member

theorem relays_serve {action : PlainServer.Action} (relays : Relays typed left chat)
    (stepped : step chat (.serve action) = some next) : Relays typed left next := by
  simp only [step, Option.ite_none_right_eq_some, Option.map_eq_some_iff] at stepped
  obtain ⟨serves, server, served, same⟩ := stepped
  have effect := step_served serves served
  have sends := served_sends effect
  rw [← same]
  constructor
  case reached => exact relays.reach served
  case keyboards => exact relays.keyboards
  case logged => exact relays.logged.serve rfl (served_logged effect)
  case announced => exact relays.announced.serve rfl (served_announced effect)
  case live => exact sends.live relays.live
  case replayed => exact served_replayed relays.replayed effect
  case shown => exact relays.shown.grow rfl (sends.grown relays.nul_free)

theorem relays_step {action : Action} (relays : Relays typed left chat)
    (noNul : ∀ conn, (0 : Byte) ∉ typed conn) (stepped : step chat action = some next) :
    Relays typed left next := by
  cases action with
  | fgets conn => exact relays_fgets relays noNul stepped
  | recv conn count stale => exact relays_recv relays noNul stepped
  | fopen conn => exact relays_fopen relays stepped
  | replay conn => exact relays_replay relays stepped
  | serve action => exact relays_serve relays stepped
  | print conn count => exact relays_print relays stepped

end Steps

def oneLine (conn : Nat) : Bytes := if conn = 0 then ascii "hi\n" else []

/-- The line arrives in two pieces, and the second one is saved when the reader has replayed
the first. Then the keyboard is at its end. -/
def cutLine : List Action :=
  [.serve (.accept 0 4), .serve (.login 0 (some (ascii "al"))), .serve (.register 0), .fopen 0,
    .serve (.proceed 0), .serve (.proceed 0), .fgets 0, .recv 0 2 (List.replicate 1021 120),
    .serve (.proceed 0), .serve (.proceed 0), .serve (.accept 1 5),
    .serve (.login 1 (some (ascii "bo"))), .serve (.register 1), .fopen 1,
    .recv 0 1 (List.replicate 1022 120), .replay 1, .serve (.proceed 1), .serve (.proceed 0),
    .serve (.proceed 0), .print 1 4, .print 1 5, .fgets 0]

end LinuxFff.PlainStreams
