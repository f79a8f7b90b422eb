import LinuxFff.Authenticate
import LinuxFff.CString
import LinuxFff.ClientTables
import LinuxFff.HandshakeFraming

/-!
# The array accesses of `server.c` and `server_tls.c`

One connection, from the three reads of `main` to the end of its thread, as the
list of the indices that are read and written in each array. A string is read
up to its NUL, or up to where the memory behind it ends; `strcmp` stops at the
first difference. The arrays hold anything at first, and a read that delivers
nothing leaves its array alone.
-/

namespace LinuxFff.ArrayAccesses

open LinuxFff.Authenticate LinuxFff.ClientTables LinuxFff.CString
open LinuxFff.HandshakeFraming LinuxFff.StackArray

set_option autoImplicit false

inductive Program where
  | server
  | serverTls
  deriving DecidableEq

inductive ArrayName where
  | buffer
  | fullMsg
  | username
  | password
  | u
  | p
  | cliUsername
  deriving DecidableEq

def ArrayName.size (program : Program) : ArrayName → Nat
  | .buffer => 1024
  | .fullMsg =>
      match program with
      | .server => 1024
      | .serverTls => 1080
  | _ => 50

structure Access where
  array : ArrayName
  index : Nat
  deriving DecidableEq

def InBounds (program : Program) (log : List Access) : Prop :=
  ∀ access ∈ log, access.index < access.array.size program

def touched (array : ArrayName) (count : Nat) : List Access :=
  (List.range count).map (Access.mk array)

def scanned {size : Nat} (array : ArrayName) (field : CharArray size) : List Access :=
  touched array (field.text.length + 1)

def common : Bytes → Bytes → Nat
  | byte :: first, other :: second => if byte = other then common first second + 1 else 0
  | _, _ => 0

/-- `strcmp`. -/
def compared (array : ArrayName) (field : CharArray 50) (other : ArrayName)
    (against : CharArray 50) : List Access :=
  touched array (common field.text against.text + 1) ++
    touched other (common field.text against.text + 1)

def stored (array : ArrayName) : Option Bytes → List Access
  | none => []
  | some word => touched array (word.length + 1)

def delivered {size : Nat} (field : CharArray size) : Option (Chunk size) → CharArray size
  | none => field
  | some chunk => field.fill chunk.bytes

def deliveredAt {size : Nat} (array : ArrayName) : Option (Chunk size) → List Access
  | none => []
  | some chunk => touched array chunk.bytes.length

/-- `strncpy (cli->username, username, sizeof(cli->username))`. -/
def strncpy (username : CharArray 50) (behind : Bytes) : CharArray 50 where
  array := username.text.take 50 ++ List.replicate (50 - username.text.length) 0
  behind := behind
  length_eq := by
    rw [List.length_append, List.length_take, List.length_replicate]
    omega

/-- The words that `fscanf (fp, "%s %s", u, p)` finds, and the rest. -/
def scanPair (stream : Bytes) : Option (Bytes × Option Bytes × Bytes) :=
  match scanWord stream with
  | none => none
  | some (word, rest) =>
      match scanWord rest with
      | none => some (word, none, [])
      | some (other, rest) => some (word, some other, rest)

def scanPairsWithin : Nat → Bytes → List (Bytes × Option Bytes)
  | 0, _ => []
  | fuel + 1, stream =>
      match scanPair stream with
      | none => []
      | some (word, other, rest) => (word, other) :: scanPairsWithin fuel rest

/-- The conversions of `while (fscanf (...) != EOF)` on a whole file. -/
def conversions (file : Bytes) : List (Bytes × Option Bytes) := scanPairsWithin file.length file

def checkLoop (username password : CharArray 50) :
    CharArray 50 → CharArray 50 → List (Bytes × Option Bytes) → List Access × Bool
  | _, _, [] => ([], false)
  | u, p, (word, other) :: rest =>
      let u := store u (some word)
      let p := store p other
      let stores := stored .u (some word) ++ stored .p other ++ compared .username username .u u
      if username.text = u.text then
        if password.text = p.text then (stores ++ compared .password password .p p, true)
        else (stores ++ compared .password password .p p ++
          (checkLoop username password u p rest).1, (checkLoop username password u p rest).2)
      else (stores ++ (checkLoop username password u p rest).1,
        (checkLoop username password u p rest).2)

/-- `u` and `p` of `check_user`, the arrays of `main`, what lies behind the
entry that `main` allocates, and `buffer` of `handle_client`. -/
structure Stack where
  mode : Bytes
  username : CharArray 50
  password : CharArray 50
  u : CharArray 50
  p : CharArray 50
  behindCli : Bytes
  buffer : CharArray 1024

/-- What `recv` or `SSL_read` delivers on the connection. -/
structure Received where
  mode : Option (Chunk 4)
  username : Option (Chunk 50)
  password : Option (Chunk 50)
  chat : List (Chunk 1024)

/-- The files, the table, and how the machine reads an `int`. -/
structure Setting where
  users : Option Bytes
  chatlog : Option Bytes
  clientCount : Nat
  readInt : Bytes → Int

/-- `snprintf` into `full_msg` and `strlen` of it. -/
def fullMsgAccesses (program : Program) (text : Bytes) : List Access :=
  let sent := snprintf (ArrayName.fullMsg.size program) text
  touched .fullMsg (sent.length + 1) ++ touched .fullMsg ((cstr sent).length + 1)

def replayAccesses (chatlog : Option Bytes) : List Access :=
  (fgetsLoop 1023 (chatlog.getD [])).flatMap fun line =>
    touched .buffer (line.length + 1) ++ touched .buffer ((cstr line).length + 1)

def replayBuffer (buffer : CharArray 1024) (chatlog : Option Bytes) : CharArray 1024 :=
  (fgetsLoop 1023 (chatlog.getD [])).foldl (fun buffer line => buffer.fill (line ++ [0])) buffer

def announced (program : Program) (cli : CharArray 50) (suffix : Bytes) : List Access :=
  scanned .cliUsername cli ++
    fullMsgAccesses program (ascii "[SERVER]: " ++ cli.text ++ suffix)

/-- One message: the terminator, `snprintf`, `save_chat_to_file`, `broadcast`. -/
def said (program : Program) (cli : CharArray 50) (buffer : CharArray 1024)
    (chunk : Chunk 1024) : List Access :=
  let received := buffer.receive chunk
  touched .buffer chunk.bytes.length ++ [⟨.buffer, chunk.bytes.length⟩] ++
    scanned .cliUsername cli ++ scanned .buffer received ++
    scanned .cliUsername cli ++ scanned .buffer received ++
    fullMsgAccesses program (cli.text ++ ascii ": " ++ received.text)

def chatLoop (program : Program) (cli : CharArray 50) :
    CharArray 1024 → List (Chunk 1024) → List Access
  | _, [] => []
  | buffer, chunk :: rest =>
      said program cli buffer chunk ++ chatLoop program cli (buffer.receive chunk) rest

/-- `handle_client`; only `server.c` announces who comes and goes. -/
def handleClient (program : Program) (setting : Setting) (buffer : CharArray 1024)
    (cli : CharArray 50) (chat : List (Chunk 1024)) : List Access :=
  let loop := chatLoop program cli (replayBuffer buffer setting.chatlog) chat
  match program with
  | .server =>
      replayAccesses setting.chatlog ++ announced program cli (ascii " has joined\n") ++ loop ++
        announced program cli (ascii " has leaved\n")
  | .serverTls => replayAccesses setting.chatlog ++ loop

/-- The accesses of a connection, by the function that makes them. -/
structure Accesses where
  main : List Access
  checkUser : List Access
  registerUser : List Access
  handleClient : List Access

def received (received : Received) : List Access :=
  deliveredAt .username received.username ++ deliveredAt .password received.password

/-- `strncpy` reads no further than the string, and writes the whole target. -/
def copied (username : CharArray 50) : List Access :=
  touched .username (min (username.text.length + 1) 50) ++ touched .cliUsername 50

def modeOf (setting : Setting) (stack : Stack) (received : Received) : Int :=
  setting.readInt (match received.mode with
    | none => stack.mode
    | some chunk => overwrite stack.mode chunk.bytes)

/-- `check_user`, whose loop has nothing to do when there is no file. -/
def checkUser (setting : Setting) (stack : Stack) (username password : CharArray 50) :
    List Access × Bool :=
  checkLoop username password stack.u stack.p (conversions (setting.users.getD []))

def connection (program : Program) (setting : Setting) (stack : Stack) (input : Received) :
    Accesses :=
  let username := delivered stack.username input.username
  let password := delivered stack.password input.password
  let mode := modeOf setting stack input
  let cli := strncpy username stack.behindCli
  let chat := handleClient program setting stack.buffer cli input.chat
  match program with
  | .serverTls => ⟨received input ++ copied username, [], [], chat⟩
  | .server =>
      let check := if mode = 1 then checkUser setting stack username password else ([], false)
      let auth := check.2 ∨ mode = 2
      { main := received input ++ if auth then copied username else []
        checkUser := check.1
        registerUser :=
          if mode = 2 then scanned .username username ++ scanned .password password else []
        handleClient := if auth ∧ setting.clientCount < maxClients then chat else [] }

section Bounds

variable {program : Program} {array other : ArrayName} {field against : CharArray 50}

theorem in_bounds_append {first second : List Access} :
    InBounds program (first ++ second) ↔ InBounds program first ∧ InBounds program second :=
  List.forall_mem_append

theorem in_bounds_nil : InBounds program [] := by
  intro access impossible
  cases impossible

theorem in_bounds_ite {condition : Prop} [Decidable condition] {first second : List Access}
    (inside : InBounds program first) (otherwise : InBounds program second) :
    InBounds program (if condition then first else second) := by
  split
  · exact inside
  · exact otherwise

theorem in_bounds_touched {count : Nat} :
    InBounds program (touched array count) ↔ count ≤ array.size program := by
  simp only [InBounds, touched, List.mem_map, List.mem_range, forall_exists_index, and_imp,
    forall_apply_eq_imp_iff₂]
  constructor
  case mp =>
    intro inside
    by_contra more
    exact absurd (inside _ (Nat.lt_of_not_le more)) (Nat.lt_irrefl _)
  case mpr =>
    intro fits index below
    exact Nat.lt_of_lt_of_le below fits

theorem in_bounds_scanned {size : Nat} {field : CharArray size}
    (same : array.size program = size) :
    InBounds program (scanned array field) ↔ field.terminated = true := by
  rw [scanned, in_bounds_touched, same, Nat.succ_le_iff, CharArray.text_length_lt_iff]

theorem in_bounds_stored (same : array.size program = 50) {word : Option Bytes} :
    InBounds program (stored array word) ↔ fits word = true := by
  cases word with
  | none => exact iff_of_true in_bounds_nil rfl
  | some word =>
      rw [stored, in_bounds_touched, same, Nat.succ_le_iff]
      exact decide_eq_true_iff.symm

theorem common_le (first second : Bytes) :
    common first second ≤ first.length ∧ common first second ≤ second.length := by
  induction first generalizing second with
  | nil => exact ⟨Nat.zero_le _, Nat.zero_le _⟩
  | cons byte first ih =>
      cases second with
      | nil => exact ⟨Nat.zero_le _, Nat.zero_le _⟩
      | cons other second =>
          obtain ⟨left, right⟩ := ih second
          rw [common]
          split
          · exact ⟨Nat.succ_le_succ left, Nat.succ_le_succ right⟩
          · exact ⟨Nat.zero_le _, Nat.zero_le _⟩

theorem in_bounds_compared (same : array.size program = 50) (otherSame : other.size program = 50) :
    InBounds program (compared array field other against) ↔
      common field.text against.text < 50 := by
  rw [compared, in_bounds_append, in_bounds_touched, in_bounds_touched, same, otherSame,
    Nat.succ_le_iff, and_self]

/-- A string that ends inside its array stops every comparison there. -/
theorem compared_terminated (ends : against.terminated = true) :
    common field.text against.text < 50 :=
  Nat.lt_of_le_of_lt (common_le _ _).2 (CharArray.text_length_lt_iff.mpr ends)

theorem in_bounds_full_msg (text : Bytes) : InBounds program (fullMsgAccesses program text) := by
  have room : 0 < ArrayName.fullMsg.size program := by cases program <;> decide
  have sent : (snprintf (ArrayName.fullMsg.size program) text).length + 1 ≤
      ArrayName.fullMsg.size program := by
    rw [snprintf, List.length_take]
    omega
  have shorter : (cstr (snprintf (ArrayName.fullMsg.size program) text)).length ≤
      (snprintf (ArrayName.fullMsg.size program) text).length :=
    (List.takeWhile_prefix _).length_le
  rw [fullMsgAccesses, in_bounds_append, in_bounds_touched, in_bounds_touched]
  exact ⟨sent, Nat.le_trans (Nat.succ_le_succ shorter) sent⟩

theorem in_bounds_replay (chatlog : Option Bytes) :
    InBounds program (replayAccesses chatlog) := by
  refine List.forall_mem_flatMap.mpr ?_
  intro line member
  have short := (fgets_loop_pieces 1022 (chatlog.getD [])).2 line member
  have shorter : (cstr line).length ≤ line.length := (List.takeWhile_prefix _).length_le
  refine in_bounds_append.mpr ⟨in_bounds_touched.mpr ?_, in_bounds_touched.mpr ?_⟩
  · exact Nat.succ_le_succ short
  · exact Nat.succ_le_succ (Nat.le_trans shorter short)

theorem in_bounds_announced {cli : CharArray 50} {suffix : Bytes} :
    InBounds program (announced program cli suffix) ↔ cli.terminated = true := by
  rw [announced, in_bounds_append, @in_bounds_scanned program .cliUsername 50 cli rfl]
  exact and_iff_left (in_bounds_full_msg _)

theorem in_bounds_said {cli : CharArray 50} {buffer : CharArray 1024} {chunk : Chunk 1024} :
    InBounds program (said program cli buffer chunk) ↔
      chunk.bytes.length < 1024 ∧ cli.terminated = true := by
  simp only [said, in_bounds_append, in_bounds_touched,
    @in_bounds_scanned program .cliUsername 50 cli rfl,
    @in_bounds_scanned program .buffer 1024 (buffer.receive chunk) rfl]
  constructor
  case mp =>
    rintro ⟨⟨⟨⟨⟨⟨-, terminator⟩, cliEnds⟩, -⟩, -⟩, -⟩, -⟩
    exact ⟨terminator ⟨.buffer, chunk.bytes.length⟩ (List.mem_singleton.mpr rfl), cliEnds⟩
  case mpr =>
    rintro ⟨inside, cliEnds⟩
    have ends := @CharArray.receive_terminated _ buffer _ inside
    refine ⟨⟨⟨⟨⟨⟨chunk.room, ?_⟩, cliEnds⟩, ends⟩, cliEnds⟩, ends⟩, in_bounds_full_msg _⟩
    intro access member
    rw [List.mem_singleton.mp member]
    exact inside

theorem in_bounds_chat {cli : CharArray 50} (buffer : CharArray 1024) (chat : List (Chunk 1024)) :
    InBounds program (chatLoop program cli buffer chat) ↔
      ∀ chunk ∈ chat, chunk.bytes.length < 1024 ∧ cli.terminated = true := by
  induction chat generalizing buffer with
  | nil => exact iff_of_true in_bounds_nil (fun chunk impossible => absurd impossible
      List.not_mem_nil)
  | cons chunk rest ih =>
      rw [chatLoop, in_bounds_append, in_bounds_said, ih, List.forall_mem_cons]

theorem strncpy_terminated (username : CharArray 50) (behind : Bytes) :
    (strncpy username behind).terminated = true ↔ username.terminated = true := by
  have target : (strncpy username behind).terminated = true ↔ (0 : Byte) ∈
      username.text.take 50 ++ List.replicate (50 - username.text.length) 0 := decide_eq_true_iff
  rw [target, ← CharArray.text_length_lt_iff, List.mem_append, List.mem_replicate]
  constructor
  case mp =>
    rintro (inside | ⟨padded, -⟩)
    · exact absurd (List.mem_of_mem_take inside) (cstr_no_nul _)
    · omega
  case mpr =>
    intro short
    exact Or.inr ⟨by omega, rfl⟩

/-- `server.c` formats the name in any case, `server_tls.c` only for a message. -/
theorem in_bounds_handle_client (setting : Setting) (buffer : CharArray 1024)
    (cli : CharArray 50) (chat : List (Chunk 1024)) :
    InBounds program (handleClient program setting buffer cli chat) ↔
      (∀ chunk ∈ chat, chunk.bytes.length < 1024) ∧
        (program = .server ∨ chat ≠ [] → cli.terminated = true) := by
  have loop := @in_bounds_chat program cli (replayBuffer buffer setting.chatlog) chat
  have replayed := @in_bounds_replay program setting.chatlog
  cases program with
  | server =>
      simp only [handleClient, in_bounds_append, in_bounds_announced, loop, replayed, true_or,
        true_and, true_implies]
      constructor
      · rintro ⟨⟨cliEnds, rounds⟩, -⟩
        exact ⟨fun chunk member => (rounds chunk member).1, cliEnds⟩
      · rintro ⟨short, cliEnds⟩
        exact ⟨⟨cliEnds, fun chunk member => ⟨short chunk member, cliEnds⟩⟩, cliEnds⟩
  | serverTls =>
      simp only [handleClient, in_bounds_append, loop, replayed, true_and, reduceCtorEq, false_or]
      constructor
      · intro rounds
        refine ⟨fun chunk member => (rounds chunk member).1, ?_⟩
        intro some
        obtain ⟨chunk, member⟩ := List.exists_mem_of_ne_nil chat some
        exact (rounds chunk member).2
      · rintro ⟨short, cliEnds⟩ chunk member
        exact ⟨short chunk member, cliEnds (List.ne_nil_of_mem member)⟩

theorem in_bounds_received (input : Received) : InBounds program (received input) := by
  have chunk : ∀ array, array.size program = 50 → ∀ part : Option (Chunk 50),
      InBounds program (deliveredAt array part) := by
    intro array same part
    cases part with
    | none => exact in_bounds_nil
    | some chunk =>
        rw [deliveredAt, in_bounds_touched, same]
        exact chunk.room
  exact in_bounds_append.mpr ⟨chunk _ rfl _, chunk _ rfl _⟩

theorem in_bounds_copied (username : CharArray 50) : InBounds program (copied username) :=
  in_bounds_append.mpr
    ⟨in_bounds_touched.mpr (Nat.min_le_right _ _), in_bounds_touched.mpr (Nat.le_refl _)⟩

theorem in_bounds_main (setting : Setting) (stack : Stack) (input : Received) :
    InBounds program (connection program setting stack input).main := by
  cases program with
  | server =>
      exact in_bounds_append.mpr
        ⟨in_bounds_received input, in_bounds_ite (in_bounds_copied _) in_bounds_nil⟩
  | serverTls => exact in_bounds_append.mpr ⟨in_bounds_received input, in_bounds_copied _⟩

end Bounds

end LinuxFff.ArrayAccesses
