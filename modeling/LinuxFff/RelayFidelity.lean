import LinuxFff.RecordStream
import LinuxFff.TlsDelivery

/-!
# One line from a client to the others

`client_tls_final.c` sends what the user types in pieces of at most 1023 bytes;
`server_tls_final.c` puts the username in front of each piece and broadcasts
it; the other clients read at most 1024 bytes and print them as a string. Every
string function is given an array and has to find the terminator in it.
-/

namespace LinuxFff.RelayFidelity

open LinuxFff.ClientTables LinuxFff.CString LinuxFff.Ownership
open LinuxFff.RecordStream LinuxFff.Roster LinuxFff.StepSystem LinuxFff.TlsDelivery LinuxFff.TlsHistory
open LinuxFff.TlsServer

set_option autoImplicit false

/-- What a string function gets from an array of `size` bytes; without a
terminator in it, the function reads behind the array. -/
def terminated (size : Nat) (array : Bytes) : Option Bytes :=
  if (0 : Byte) ∈ array.take size then some (cstr array) else none

/-- `input` after `fgets (input, sizeof(input), stdin)`. -/
def fgetsInto (input line : Bytes) : Bytes := line ++ 0 :: input.drop (line.length + 1)

/-- The loop of `main` in the client: one record for each `fgets`. -/
def sendLoop (input : Bytes) : List Bytes → Option (List Bytes)
  | [] => some []
  | line :: rest => do
      let record ← terminated 1024 (fgetsInto input line)
      let records ← sendLoop (fgetsInto input line) rest
      some (record :: records)

/-- `buffer` after `memset` and `SSL_read`. -/
def readInto (piece : Bytes) : Bytes := piece ++ List.replicate (1024 - piece.length) 0

/-- `username` after `strncpy (username_out, username, 50)`. -/
def usernameArray (username : Bytes) : Bytes :=
  username ++ List.replicate (50 - username.length) 0

/-- `snprintf (msg, sizeof(msg), "%s: %s", username, buffer)`, and `msg` as
`strlen` in `broadcast` and `fputs` get it. -/
def formatMsg (username buffer : Bytes) : Option Bytes := do
  let name ← terminated 50 (usernameArray username)
  let text ← terminated 1024 buffer
  terminated 1100 (snprintf 1100 (name ++ ascii ": " ++ text) ++ [0])

def printAll (pieces : List Bytes) : Option Bytes :=
  (pieces.mapM fun piece => terminated 1024 (readInto piece)).map List.flatten

def turn (session : Nat) (buffer : Bytes) : List Action :=
  [.receive session (some buffer), .proceed session, .proceed session]

/-- What the receiver prints when the sender's user types a line; `none` when a
string function does not find its terminator. -/
def relay (input : Bytes) (state : State) (sender receiver : Nat) (line : Bytes) :
    Option Bytes := do
  let found ← state.sessions sender
  let records ← sendLoop input (fgetsLoop 1023 line)
  let buffers := (reads 1024 records).map readInto
  let _ ← buffers.mapM (formatMsg found.username)
  let after ← run step state (buffers.flatMap (turn sender))
  let arrived := (after.live receiver).drop (state.live receiver).length
  printAll (reads 1024 (arrived.map Message.text))

section Arrays

variable {text rest : Bytes} {size : Nat}

theorem cstr_append_nul (noNul : (0 : Byte) ∉ text) (rest : Bytes) :
    cstr (text ++ 0 :: rest) = text := by
  rw [cstr_stops, cstr_of_no_nul noNul]

theorem terminated_text (noNul : (0 : Byte) ∉ text) (room : text.length < size) (rest : Bytes) :
    terminated size (text ++ 0 :: rest) = some text := by
  have inside : (0 : Byte) ∈ (text ++ 0 :: rest).take size := by
    obtain ⟨spare, split⟩ := Nat.exists_eq_add_of_lt room
    rw [split, Nat.add_assoc, List.take_length_add_append]
    simp
  rw [terminated, if_pos inside, cstr_append_nul noNul]

theorem terminated_full (noNul : (0 : Byte) ∉ text) (full : size ≤ text.length) (rest : Bytes) :
    terminated size (text ++ rest) = none := by
  rw [terminated, if_neg]
  rw [List.take_append_of_le_length full]
  exact fun member => noNul (List.mem_of_mem_take member)

theorem terminated_padded (noNul : (0 : Byte) ∉ text) (room : text.length < size) :
    terminated size (text ++ List.replicate (size - text.length) 0) = some text := by
  obtain ⟨spare, split⟩ := Nat.exists_eq_add_of_lt room
  have zeros : size - text.length = spare + 1 := by omega
  rw [zeros, List.replicate_succ]
  exact terminated_text noNul room _

theorem send_loop_records (input : Bytes) {lines : List Bytes}
    (noNul : ∀ line ∈ lines, (0 : Byte) ∉ line) (short : ∀ line ∈ lines, line.length ≤ 1023) :
    sendLoop input lines = some lines := by
  induction lines generalizing input with
  | nil => rfl
  | cons line rest ih =>
      have record : terminated 1024 (fgetsInto input line) = some line :=
        terminated_text (noNul line List.mem_cons_self)
          (Nat.lt_succ_of_le (short line List.mem_cons_self)) _
      have records := ih (fgetsInto input line)
        (fun other member => noNul other (List.mem_cons_of_mem _ member))
        (fun other member => short other (List.mem_cons_of_mem _ member))
      simp only [sendLoop, record, records, Option.bind_eq_bind, Option.bind_some]

theorem format_msg_text {username : Bytes} (cleanName : (0 : Byte) ∉ username)
    (name : username.length ≤ 49) (noNul : (0 : Byte) ∉ text) (short : text.length ≤ 1023) :
    formatMsg username (readInto text) = some (username ++ ascii ": " ++ text) ∧
      Notice.text username (.said (readInto text)) = username ++ ascii ": " ++ text := by
  have colon : (0 : Byte) ∉ ascii ": " := by decide
  have whole : (0 : Byte) ∉ username ++ ascii ": " ++ text := by simp [cleanName, colon, noNul]
  have length : (username ++ ascii ": " ++ text).length = username.length + 2 + text.length := by
    rw [List.length_append, List.length_append]
    rfl
  have uncut : snprintf 1100 (username ++ ascii ": " ++ text) = username ++ ascii ": " ++ text :=
    List.take_of_length_le (by omega)
  have named : terminated 50 (usernameArray username) = some username :=
    terminated_padded cleanName (Nat.lt_succ_of_le name)
  have heard : terminated 1024 (readInto text) = some text :=
    terminated_padded noNul (Nat.lt_succ_of_le short)
  have stored : cstr (readInto text) = text := by
    rw [terminated] at heard
    split at heard
    · exact Option.some.inj heard
    · cases heard
  constructor
  · simp only [formatMsg, named, heard, Option.bind_eq_bind, Option.bind_some, uncut]
    exact terminated_text whole (by omega) []
  · rw [Notice.text, stored, uncut]

end Arrays

section Server

variable {state : State} {sender receiver : Nat} {found peer : Session}

structure Spoken (state after : State) (session : Nat) (found : Session) (buffer : Bytes) :
    Prop where
  ran : run step state (turn session buffer) = some after
  speaker : after.sessions session = some { found with sent := found.sent + 1 }
  others : ∀ other, other ≠ session → after.sessions other = state.sessions other
  clients : after.clients = state.clients
  live : after.live = writeAll state.heap (found.message session (.said buffer)) state.live
    (recipients found.ssl state.clients)

theorem turn_spoken (lookup : state.sessions sender = some found) (reading : found.phase = .reading)
    (buffer : Bytes) : ∃ after, Spoken state after sender found buffer := by
  let heard := state.move sender { found with phase := .broadcasting (.said buffer) }
  let message := found.message sender (.said buffer)
  let spoken := (heard.broadcast message).move sender
    { found with phase := .saving message, sent := found.sent + 1 }
  let saved := (spoken.saveChatLog message).move sender
    { found with phase := .reading, sent := found.sent + 1 }
  have received : step state (.receive sender (some buffer)) = some heard := by
    simp only [step, lookup, reading, if_pos]
    rfl
  have broadcasts : step heard (.proceed sender) = some spoken := by
    have here : heard.sessions sender =
        some { found with phase := .broadcasting (.said buffer) } := Function.update_self _ _ _
    simp only [step, here]
    rfl
  have saves : step spoken (.proceed sender) = some saved := by
    have here : spoken.sessions sender =
        some { found with phase := .saving message, sent := found.sent + 1 } :=
      Function.update_self _ _ _
    simp only [step, here]
    rfl
  refine ⟨saved, ?_⟩
  constructor
  case ran =>
    rw [turn, run, received, Option.bind_some, run, broadcasts, Option.bind_some, run, saves]
    rfl
  case speaker =>
    rw [reading]
    exact Function.update_self _ _ _
  case others =>
    intro other apart
    simp [State.move, State.saveChatLog, State.note, State.broadcast, saved, spoken, heard, apart]
  case clients => rfl
  case live => rfl

theorem Spoken.delivered {after : State} {buffer : Bytes} {members : List Nat}
    (spoken : Spoken state after sender found buffer) (registered : Registered members state)
    (lookup : state.sessions sender = some found) (alive : Session.Alive found)
    (peerLookup : state.sessions receiver = some peer) (peerAlive : Session.Alive peer)
    (apart : receiver ≠ sender) :
    after.live receiver = state.live receiver ++
      if peer.ssl ∈ activeSsls state.clients then [found.message sender (.said buffer)]
      else [] := by
  have own : sslOf state.sessions receiver = peer.ssl := key_of_some peerLookup
  have differs : sslOf state.sessions receiver ≠ found.ssl := by
    intro same
    have owner := registered.owns.held receiver peer peerLookup peerAlive
    rw [← own, same, registered.owns.held sender found lookup alive] at owner
    exact apart (Option.some.inj owner).symm
  have slot : receiver ∈ members ↔ peer.ssl ∈ activeSsls state.clients := by
    constructor
    · intro member
      rw [registered.room.lists.listed.mem_iff, ← own]
      exact List.mem_map_of_mem member
    · intro listed
      by_contra outsider
      exact unlisted_of_outsider registered peerLookup peerAlive outsider listed
  rw [spoken.live, write_all_apply, copies_of_broadcast registered]
  by_cases listed : peer.ssl ∈ activeSsls state.clients
  · simp [slot.mpr listed, differs, listed]
  · simp [mt slot.mp listed, listed]

/-- The invariants of the server that the delivery rests on. -/
def Reached (state : State) : Prop := Recorded state ∧ ∃ members, Registered members state

theorem reached_run {actions : List Action} {next : State} (reached : Reached state)
    (ran : run step state actions = some next) : Reached next := by
  have kept : ∀ state action next, Reached state → step state action = some next →
      Reached next := by
    intro state action next here stepped
    obtain ⟨recorded, members, registered⟩ := here
    exact ⟨recorded_step recorded stepped, registered_step recorded registered stepped⟩
  exact run_keeps_always kept reached ran

/-- All buffers that the sender's thread reads, one after the other. -/
theorem turns_delivered (reached : Reached state) (lookup : state.sessions sender = some found)
    (reading : found.phase = .reading) (peerLookup : state.sessions receiver = some peer)
    (peerAlive : Session.Alive peer) (apart : receiver ≠ sender) (buffers : List Bytes) :
    ∃ after messages, run step state (buffers.flatMap (turn sender)) = some after ∧
      after.live receiver = state.live receiver ++ messages ∧
      messages.map Message.text =
        if peer.ssl ∈ activeSsls state.clients then
          buffers.map fun buffer => Notice.text found.username (.said buffer)
        else [] := by
  induction buffers generalizing state found with
  | nil => exact ⟨state, [], rfl, by simp, by simp⟩
  | cons buffer rest ih =>
      obtain ⟨members, registered⟩ := reached.2
      have alive : Session.Alive found := by simp [Session.Alive, reading]
      obtain ⟨middle, spoken⟩ := turn_spoken lookup reading buffer
      have first := spoken.delivered registered lookup alive peerLookup peerAlive apart
      have middlePeer := (spoken.others receiver apart).trans peerLookup
      obtain ⟨after, messages, ran, live, texts⟩ :=
        ih (reached_run reached spoken.ran) spoken.speaker reading middlePeer
      let delivered := if peer.ssl ∈ activeSsls state.clients then
        [found.message sender (.said buffer)] else []
      refine ⟨after, delivered ++ messages, ?_, ?_, ?_⟩
      · exact (List.flatMap_cons ▸ run_append spoken.ran).trans ran
      · rw [live, first, List.append_assoc]
      · rw [List.map_append, texts, spoken.clients]
        by_cases listed : peer.ssl ∈ activeSsls state.clients
        · simp only [delivered, if_pos listed]
          rfl
        · simp only [delivered, if_neg listed]
          rfl

end Server

section Relay

variable {state : State} {sender receiver : Nat} {found peer : Session} {body : Bytes}

theorem map_m_some {Item Result : Type} {items : List Item} {call : Item → Option Result}
    {value : Item → Result} (calls : ∀ item ∈ items, call item = some (value item)) :
    items.mapM call = some (items.map value) := by
  induction items with
  | nil => rfl
  | cons item rest ih =>
      have head := calls item List.mem_cons_self
      have tail := ih fun other member => calls other (List.mem_cons_of_mem _ member)
      simp only [List.mapM_cons, head, tail, Option.bind_eq_bind, Option.bind_some, List.map_cons]
      rfl

theorem first_piece (noNewline : newline ∉ body) :
    ∃ first later, fgetsLoop 1023 (body ++ [newline]) = first :: later ∧
      first.length = min (body.length + 1) 1023 ∧
      (body.length < 1023 → first = body ++ [newline] ∧ later = []) := by
  have unfolds : fgetsLoop 1023 (body ++ [newline]) =
      (fgets 1023 (body ++ [newline])).1 :: fgetsLoop 1023 (fgets 1023 (body ++ [newline])).2 := by
    cases body with
    | nil => exact fgets_loop_cons 1022 newline []
    | cons byte body => exact fgets_loop_cons 1022 byte (body ++ [newline])
  refine ⟨_, _, unfolds, ?_⟩
  by_cases short : body.length < 1023
  · rw [fgets_line 1023 body [] noNewline short]
    constructor
    · rw [List.length_append, List.length_singleton]
      omega
    · exact fun _ => ⟨rfl, rfl⟩
  · have split : body ++ [newline] = body.take 1023 ++ (body.drop 1023 ++ [newline]) := by
      rw [← List.append_assoc, List.take_append_drop]
    have full : (body.take 1023).length = 1023 := by
      rw [List.length_take]
      omega
    rw [split, fgets_full 1023 _ _ (fun member => noNewline (List.mem_of_mem_take member)) full]
    exact ⟨full.trans (by omega), fun impossible => absurd impossible short⟩

theorem pieces_clean {line : Bytes} (noNul : (0 : Byte) ∉ line) :
    ∀ piece ∈ fgetsLoop 1023 line, (0 : Byte) ∉ piece ∧ piece.length ≤ 1023 := by
  intro piece member
  exact ⟨fgets_loop_no_nul noNul member, (fgets_loop_pieces 1022 line).2 piece member⟩

/-- The receiver prints a text that leaves room for the terminator, and runs
over the array with one that does not. -/
theorem print_all_texts {text : Bytes} (noNul : (0 : Byte) ∉ text) (later : List Bytes) :
    (text.length ≤ 1023 → printAll (reads 1024 [text]) = some text) ∧
      (1024 ≤ text.length → printAll (reads 1024 (text :: later)) = none) := by
  constructor
  · intro short
    have single : reads 1024 [text] = [text] := reads_short (by simp; omega)
    have printed : terminated 1024 (readInto text) = some text :=
      terminated_padded noNul (Nat.lt_succ_of_le short)
    rw [single]
    simp [printAll, printed]
  · intro long
    obtain ⟨rest, split⟩ := reads_head 1024 text later
    have full : (text.take 1024).length = 1024 := by
      rw [List.length_take]
      omega
    have overrun : terminated 1024 (readInto (text.take 1024)) = none :=
      terminated_full (fun member => noNul (List.mem_of_mem_take member)) (Nat.le_of_eq full.symm) _
    rw [split]
    simp [printAll, overrun]

theorem print_line {username : Bytes} (cleanName : (0 : Byte) ∉ username)
    (name : username.length ≤ 49) (named : 0 < username.length) (noNewline : newline ∉ body)
    (noNul : (0 : Byte) ∉ body ++ [newline]) :
    printAll (reads 1024 (((fgetsLoop 1023 (body ++ [newline])).map readInto).map fun buffer =>
        Notice.text username (.said buffer))) =
      if username.length + 2 + (body ++ [newline]).length ≤ 1023 then
        some (username ++ ascii ": " ++ (body ++ [newline]))
      else none := by
  obtain ⟨first, later, split, length, single⟩ := first_piece noNewline
  have member : first ∈ fgetsLoop 1023 (body ++ [newline]) := by
    rw [split]
    exact List.mem_cons_self
  obtain ⟨cleanFirst, short⟩ := pieces_clean noNul first member
  have text := (format_msg_text cleanName name cleanFirst short).2
  have size : (username ++ ascii ": " ++ first).length = username.length + 2 + first.length := by
    rw [List.length_append, List.length_append]
    rfl
  have cleanText : (0 : Byte) ∉ username ++ ascii ": " ++ first := by
    have colon : (0 : Byte) ∉ ascii ": " := by decide
    simp [cleanName, colon, cleanFirst]
  have whole : (body ++ [newline]).length = body.length + 1 := List.length_append
  rw [split, List.map_cons, List.map_cons, text]
  by_cases fits : username.length + 2 + (body ++ [newline]).length ≤ 1023
  · obtain ⟨isLine, nothing⟩ := single (by omega)
    rw [if_pos fits, nothing, List.map_nil, List.map_nil, ← isLine]
    exact (print_all_texts cleanText []).1 (by omega)
  · rw [if_neg fits]
    exact (print_all_texts cleanText _).2 (by omega)

/-- What each receiver prints, for all lengths of the name and the line. -/
theorem relay_value (input : Bytes) (reached : Reached state)
    (lookup : state.sessions sender = some found) (reading : found.phase = .reading)
    (cleanName : (0 : Byte) ∉ found.username) (name : found.username.length ≤ 49)
    (named : 0 < found.username.length) (peerLookup : state.sessions receiver = some peer)
    (peerAlive : Session.Alive peer) (apart : receiver ≠ sender) (noNewline : newline ∉ body)
    (noNul : (0 : Byte) ∉ body) :
    relay input state sender receiver (body ++ [newline]) =
      if peer.ssl ∈ activeSsls state.clients then
        if found.username.length + 2 + (body ++ [newline]).length ≤ 1023 then
          some (found.username ++ ascii ": " ++ (body ++ [newline]))
        else none
      else some [] := by
  have cleanLine : (0 : Byte) ∉ body ++ [newline] := by
    rw [List.mem_append, not_or]
    exact ⟨noNul, by decide⟩
  have clean := pieces_clean cleanLine
  have records : sendLoop input (fgetsLoop 1023 (body ++ [newline])) =
      some (fgetsLoop 1023 (body ++ [newline])) :=
    send_loop_records input (fun piece member => (clean piece member).1)
      fun piece member => (clean piece member).2
  have whole : reads 1024 (fgetsLoop 1023 (body ++ [newline])) =
      fgetsLoop 1023 (body ++ [newline]) :=
    reads_short fun piece member => Nat.le_succ_of_le (clean piece member).2
  have formatted : ∀ buffer ∈ (fgetsLoop 1023 (body ++ [newline])).map readInto,
      formatMsg found.username buffer = some (Notice.text found.username (.said buffer)) := by
    intro buffer member
    obtain ⟨piece, inside, same⟩ := List.mem_map.mp member
    subst same
    obtain ⟨noNulPiece, short⟩ := clean piece inside
    obtain ⟨formats, text⟩ := format_msg_text cleanName name noNulPiece short
    rw [formats, text]
  obtain ⟨after, messages, ran, live, texts⟩ := turns_delivered reached lookup reading peerLookup
    peerAlive apart ((fgetsLoop 1023 (body ++ [newline])).map readInto)
  simp only [relay, lookup, records, whole, map_m_some formatted, ran, live, List.drop_left,
    texts, Option.bind_eq_bind, Option.bind_some]
  by_cases slot : peer.ssl ∈ activeSsls state.clients
  · rw [if_pos slot, if_pos slot]
    exact print_line cleanName name named noNewline cleanLine
  · rw [if_neg slot, if_neg slot]
    rfl

end Relay

/-- In every state of the server, whatever the input array holds: a line gets
through to another client exactly when the name, the separator and the line
leave room for the terminator in 1024 bytes and the client has a slot. -/
theorem relay_faithful_iff {actions : List Action} {state : State}
    (ran : run step initial actions = some state) {sender receiver : Nat} {found peer : Session}
    (lookup : state.sessions sender = some found) (reading : found.phase = .reading)
    (named : 0 < found.username.length) (name : found.username.length ≤ 49)
    (peerLookup : state.sessions receiver = some peer) (connected : peer.phase.Active)
    (other : receiver ≠ sender) {body : Bytes} (noNewline : newline ∉ body)
    (noNul : (0 : Byte) ∉ body) (input : Bytes) :
    relay input state sender receiver (body ++ [newline]) =
        some (found.username ++ ascii ": " ++ (body ++ [newline])) ↔
      found.username.length + 2 + (body ++ [newline]).length ≤ 1023 ∧
        peer.ssl ∈ activeSsls state.clients := by
  have nulFree : NulFree state := run_keeps_always
    (fun _ _ _ before stepped => nul_free_step before stepped) nul_free_initial ran
  have reached : Reached state :=
    reached_run ⟨recorded_initial, [], registered_initial⟩ ran
  rw [relay_value input reached lookup reading (nulFree.sessions sender found lookup).1 name named
    peerLookup (active_not_ended connected) other noNewline noNul]
  by_cases slot : peer.ssl ∈ activeSsls state.clients
  · rw [if_pos slot]
    by_cases fits : found.username.length + 2 + (body ++ [newline]).length ≤ 1023
    · rw [if_pos fits]
      exact ⟨fun _ => ⟨fits, slot⟩, fun _ => rfl⟩
    · rw [if_neg fits]
      exact ⟨by simp, fun both => absurd both.1 fits⟩
  · simp [slot]

def twoSessions : State :=
  (run step initial (join 0 1 (ascii "al") ++ join 1 2 (ascii "bo"))).getD initial

theorem two_sessions_ran :
    run step initial (join 0 1 (ascii "al") ++ join 1 2 (ascii "bo")) = some twoSessions := rfl

theorem relay_faithful_short_line :
    relay (List.replicate 1024 7) twoSessions 0 1 (ascii "hi" ++ [newline]) =
        some (ascii "al" ++ ascii ": " ++ (ascii "hi" ++ [newline])) ↔
      (ascii "al").length + 2 + (ascii "hi" ++ [newline]).length ≤ 1023 ∧
        2 ∈ activeSsls twoSessions.clients := by
  have sender : twoSessions.sessions 0 = some ⟨1, ascii "al", .reading, 1⟩ := rfl
  have receiver : twoSessions.sessions 1 = some ⟨2, ascii "bo", .reading, 1⟩ := rfl
  exact relay_faithful_iff two_sessions_ran sender rfl (by decide) (by decide) receiver
    ⟨by decide, by decide⟩ (by decide) (by decide) (by decide) _

/-- The client sends the 1020 bytes in one record, the server makes 1024 of
them, and the receiver's array has no room for a terminator. -/
theorem line_of_1020_bytes_overruns :
    twoSessions.sessions 0 = some ⟨1, ascii "al", .reading, 1⟩ ∧
      2 ∈ activeSsls twoSessions.clients ∧
      relay (List.replicate 1024 0) twoSessions 0 1 (List.replicate 1019 97 ++ [newline]) =
        none := by
  have sender : twoSessions.sessions 0 = some ⟨1, ascii "al", .reading, 1⟩ := rfl
  have receiver : twoSessions.sessions 1 = some ⟨2, ascii "bo", .reading, 1⟩ := rfl
  have slot : (⟨2, ascii "bo", .reading, 1⟩ : Session).ssl ∈ activeSsls twoSessions.clients := by
    decide
  have reached : Reached twoSessions :=
    reached_run ⟨recorded_initial, [], registered_initial⟩ two_sessions_ran
  have letters (byte : Byte) (member : byte ∈ List.replicate 1019 (97 : Byte)) : byte = 97 :=
    List.eq_of_mem_replicate member
  refine ⟨sender, slot, ?_⟩
  rw [relay_value _ reached sender rfl (by decide) (by decide) (by decide) receiver
    (by simp [Session.Alive]) (by decide) (fun member => absurd (letters _ member) (by decide))
    (fun member => absurd (letters _ member) (by decide)), if_pos slot, if_neg]
  rw [List.length_append, List.length_replicate]
  decide

end LinuxFff.RelayFidelity
