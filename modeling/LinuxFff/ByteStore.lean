import LinuxFff.BoundedStore
import LinuxFff.CharDevice

/-!
# `ex3.c` as a bounded store of bytes

The driver keeps a flat buffer, a size and one signed offset for each open
file, and computes with both widths of integers. What its callers see is a
store of at most 1024 bytes: a write replaces the contents, a read delivers a
slice, and the two ioctl commands clear the store and report its length.
`touched` gives the ranges of `device_buffer` that a call reads or writes.
-/

namespace LinuxFff.ByteStore

open LinuxFff.CString LinuxFff.KernelMemory LinuxFff.SizeArith LinuxFff.BufferDevice
open LinuxFff.CharDevice LinuxFff.BoundedStore

set_option autoImplicit false

def ex3Driver (abi : Abi) : CharDriver Ex3.Device where
  openData := fun _ => 0
  read := fun device _ count ppos copied => Ex3.myRead abi device count ppos copied
  write := fun device _ buf ppos copy => Ex3.myWrite device buf ppos copy

inductive Ex3Call where
  | file (call : Call)
  | ioctl (cmd : BitVec 32) (copied : Bool)

/-- What the caller sees: `value` is the caller's `int` after `IOCTL_GET_SIZE`. -/
structure Answer where
  ret : Int
  bytes : Bytes
  value : Option Int
  offset : Option Int
  deriving DecidableEq

structure Range where
  first : Nat
  length : Nat
  deriving DecidableEq

def Range.Inside (range : Range) : Prop := range.first + range.length ≤ bufSize

section Driver

variable {Key : Type} [DecidableEq Key]

def touchedByRead (abi : Abi) (device : Ex3.Device) (count : Nat) (ppos : Int) : List Range :=
  match readLength abi count ppos device.bufferSize device.bufferSize device.bufferSize with
  | none => []
  | some len => [⟨ppos.toNat, len⟩]

def touched (abi : Abi) (codes : Ex3.Codes) (world : World Ex3.Device Key) (key : Key)
    (call : Ex3Call) : List Range :=
  match call, world.files key with
  | .file (.read count _), some file => touchedByRead abi world.device count file.ppos
  | .file (.pread count offset _), some _ => touchedByRead abi world.device count offset.val
  | .file (.write buf _), some _ => [⟨0, (clamped buf).length⟩]
  | .file (.pwrite buf _ _), some _ => [⟨0, (clamped buf).length⟩]
  | .ioctl cmd _, some _ => if cmd = codes.clearBuffer then [⟨0, bufSize⟩] else []
  | _, _ => []

def syscallEx3 (abi : Abi) (codes : Ex3.Codes) (world : World Ex3.Device Key) (key : Key) :
    Ex3Call → World Ex3.Device Key × Answer
  | .file call =>
      let result := syscall (ex3Driver abi) 0 world key call
      (result.1, ⟨result.2.ret, result.2.bytes, none, result.2.offset⟩)
  | .ioctl cmd copied =>
      match world.files key with
      | none => (world, ⟨ebadf, [], none, none⟩)
      | some file =>
          let result := Ex3.myIoctl abi codes world.device cmd copied
          ({ world with device := result.2.1 },
            ⟨result.1, [], result.2.2.map intValue, some file.ppos⟩)

/-- Complete calls one after another: the world at the end, and for each call
its answer and the ranges it touched. -/
def serveEx3 (abi : Abi) (codes : Ex3.Codes) :
    World Ex3.Device Key → List (Key × Ex3Call) → World Ex3.Device Key × List (Answer × List Range)
  | world, [] => (world, [])
  | world, (key, call) :: rest =>
      let result := syscallEx3 abi codes world key call
      let later := serveEx3 abi codes result.1 rest
      (later.1, (result.2, touched abi codes world key call) :: later.2)

/-- The module has been loaded, no file is open, and anything may lie behind
the buffer. -/
def ex3Start (outside : Memory) : World Ex3.Device Key where
  device := ⟨fun address => if address < bufSize then 0 else outside address, 0⟩
  files := fun _ => none

end Driver

def Ex3Call.Copied : Ex3Call → Prop
  | .file .openFile => True
  | .file (.read _ copied) => copied = true
  | .file (.write _ copy) => copy = .whole
  | .file (.pread _ _ copied) => copied = true
  | .file (.pwrite _ _ copy) => copy = .whole
  | .ioctl _ copied => copied = true

section Abstract

variable {Key : Type} [DecidableEq Key]

/-- The purpose of the driver: one bounded store and an offset for every open file. -/
structure StoreWorld (Key : Type) where
  store : Store Byte bufSize
  offsets : Key → Option Nat

def StoreWorld.setOffset (world : StoreWorld Key) (key : Key) (offset : Nat) : StoreWorld Key :=
  { world with offsets := Function.update world.offsets key (some offset) }

def StoreWorld.answer (world : StoreWorld Key) (key : Key) (codes : Ex3.Codes) (call : Ex3Call) :
    StoreWorld Key × Answer :=
  match call, world.offsets key with
  | .file .openFile, _ => (world.setOffset key 0, ⟨0, [], none, some 0⟩)
  | _, none => (world, ⟨ebadf, [], none, none⟩)
  | .file (.read count _), some offset =>
      let bytes := world.store.slice offset count
      (world.setOffset key (offset + bytes.length),
        ⟨bytes.length, bytes, none, some ((offset + bytes.length : Nat) : Int)⟩)
  | .file (.pread count place _), some offset =>
      let bytes := world.store.slice place.val count
      (world, ⟨bytes.length, bytes, none, some (offset : Int)⟩)
  | .file (.write buf _), some offset =>
      ({ world with store := Store.put buf },
        ⟨(min buf.length bufSize : Nat), [], none, some (offset : Int)⟩)
  | .file (.pwrite buf _ _), some offset =>
      ({ world with store := Store.put buf },
        ⟨(min buf.length bufSize : Nat), [], none, some (offset : Int)⟩)
  | .ioctl cmd _, some offset =>
      if cmd = codes.clearBuffer then
        ({ world with store := Store.empty }, ⟨0, [], none, some (offset : Int)⟩)
      else if cmd = codes.getSize then
        (world, ⟨0, [], some (world.store.contents.length : Int), some (offset : Int)⟩)
      else (world, ⟨einval, [], none, some (offset : Int)⟩)

def StoreWorld.serve (codes : Ex3.Codes) :
    StoreWorld Key → List (Key × Ex3Call) → StoreWorld Key × List Answer
  | world, [] => (world, [])
  | world, (key, call) :: rest =>
      let result := world.answer key codes call
      let later := StoreWorld.serve codes result.1 rest
      (later.1, result.2 :: later.2)

def StoreWorld.start : StoreWorld Key := ⟨Store.empty, fun _ => none⟩

end Abstract

/-- The offset of a file is that of the store's reader, and it never passes the
end of the buffer. -/
structure Refines {Key : Type} (world : World Ex3.Device Key) (store : StoreWorld Key) : Prop where
  size : world.device.bufferSize = store.store.contents.length
  bytes : world.device.memory.load 0 world.device.bufferSize = store.store.contents
  files : ∀ key, (world.files key).map File.ppos = (store.offsets key).map Int.ofNat
  range : ∀ key offset, store.offsets key = some offset → offset ≤ bufSize

section Reads

variable {Key : Type} {world : World Ex3.Device Key} {store : StoreWorld Key}

theorem Refines.small (refines : Refines world store) : world.device.bufferSize ≤ bufSize := by
  rw [refines.size]
  exact store.store.bounded

theorem read_refines (refines : Refines world store) (abi : Abi) (count offset : Nat)
    (representable : offset < 2 ^ 63) :
    Ex3.myRead abi world.device count offset true =
        ⟨(store.store.slice offset count).length, store.store.slice offset count,
          ((offset + (store.store.slice offset count).length : Nat) : Int)⟩ ∧
      ∀ range ∈ touchedByRead abi world.device count offset, range.Inside := by
  have small := refines.small
  have length : readLength abi count offset world.device.bufferSize world.device.bufferSize
      world.device.bufferSize =
        if (world.device.bufferSize : Int) ≤ offset then none
        else some (min count (world.device.bufferSize - offset)) :=
    read_length_single abi count _ offset (Int.natCast_nonneg _) (by omega)
      (by unfold bufSize at small; omega)
  unfold Ex3.myRead bufferRead touchedByRead
  rw [length]
  by_cases past : world.device.bufferSize ≤ offset
  · have nothing : store.store.slice offset count = [] :=
      slice_past store.store count (refines.size ▸ past)
    rw [if_pos (by omega), nothing]
    simp
  · have slice : world.device.memory.load (0 + offset)
        (min count (world.device.bufferSize - offset)) = store.store.slice offset count := by
      rw [load_slice, refines.bytes, Store.slice]
    rw [if_neg (by omega)]
    simp only [Int.toNat_natCast, if_true, slice, List.mem_singleton, forall_eq]
    constructor
    · rw [slice_length, ← refines.size]
      simp
    · unfold Range.Inside
      simp only
      omega

theorem Refines.lookup (refines : Refines world store) (key : Key) :
    (world.files key = none ∧ store.offsets key = none) ∨
      ∃ data offset, world.files key = some ⟨data, Int.ofNat offset⟩ ∧
        store.offsets key = some offset ∧ offset ≤ bufSize := by
  have same := refines.files key
  cases lookup : store.offsets key with
  | none =>
      left
      rw [lookup] at same
      exact ⟨Option.map_eq_none_iff.mp same, rfl⟩
  | some offset =>
      right
      rw [lookup] at same
      obtain ⟨⟨data, ppos⟩, opened, equal⟩ := Option.map_eq_some_iff.mp same
      exact ⟨data, offset, by rw [opened, ← equal], rfl, refines.range key offset lookup⟩

theorem Refines.setDevice (refines : Refines world store) {device : Ex3.Device}
    {contents : Store Byte bufSize} (size : device.bufferSize = contents.contents.length)
    (bytes : device.memory.load 0 device.bufferSize = contents.contents) :
    Refines { world with device } { store with store := contents } :=
  ⟨size, bytes, refines.files, refines.range⟩

theorem stored_refines (refines : Refines world store) (buf : Bytes) :
    Refines { world with device :=
        ⟨world.device.memory.store 0 (buf.take bufSize), (buf.take bufSize).length⟩ }
      { store with store := Store.put buf } := by
  apply refines.setDevice
  · rfl
  · change (world.device.memory.store 0 (buf.take bufSize)).load 0 (buf.take bufSize).length =
      buf.take bufSize
    rw [load_store, List.take_length, List.drop_of_length_le (by rw [load_length]),
      List.append_nil]

end Reads

theorem clamped_eq (buf : Bytes) : clamped buf = buf.take bufSize := by
  unfold clamped
  split_ifs with long
  · rfl
  · rw [List.take_of_length_le (by omega)]

theorem ex3_write (device : Ex3.Device) (buf : Bytes) (ppos : Int) :
    Ex3.myWrite device buf ppos .whole =
      (((min buf.length bufSize : Nat) : Int),
        (⟨device.memory.store 0 (buf.take bufSize), (buf.take bufSize).length⟩ : Ex3.Device),
        ppos) := by
  have outcome : Ex3.myWrite device buf ppos .whole =
      (((clamped buf).length : Int),
        (⟨device.memory.store 0 (clamped buf), (clamped buf).length⟩ : Ex3.Device), ppos) := rfl
  rw [outcome, clamped_length, clamped_eq, List.length_take, Nat.min_comm]

section Calls

variable {Key : Type} [DecidableEq Key] {world : World Ex3.Device Key} {store : StoreWorld Key}
  {key : Key}

theorem Refines.setFile (refines : Refines world store) (data : Nat) {offset : Nat}
    (range : offset ≤ bufSize) :
    Refines (world.setFile key ⟨data, Int.ofNat offset⟩) (store.setOffset key offset) where
  size := refines.size
  bytes := refines.bytes
  files := by
    intro other
    unfold World.setFile StoreWorld.setOffset
    by_cases same : other = key
    · simp [same]
    · simpa [same] using refines.files other
  range := by
    intro other found lookup
    unfold StoreWorld.setOffset at lookup
    by_cases same : other = key
    · have equal : offset = found := by simpa [same] using lookup
      exact equal ▸ range
    · exact refines.range other found (by simpa [same] using lookup)

theorem Refines.sameFile (refines : Refines world store) {offset : Nat}
    (known : store.offsets key = some offset) (range : offset ≤ bufSize) (data : Nat) :
    Refines (world.setFile key ⟨data, Int.ofNat offset⟩) store := by
  have same : store.setOffset key offset = store := by
    rw [StoreWorld.setOffset, ← known, Function.update_eq_self]
  rw [← same]
  exact refines.setFile data range

/-- One call: the same answer, related worlds, and no access outside the buffer. -/
structure CallRefines (abi : Abi) (codes : Ex3.Codes) (world : World Ex3.Device Key)
    (store : StoreWorld Key) (key : Key) (call : Ex3Call) : Prop where
  answer : (syscallEx3 abi codes world key call).2 = (store.answer key codes call).2
  after : Refines (syscallEx3 abi codes world key call).1 (store.answer key codes call).1
  inside : ∀ range ∈ touched abi codes world key call, range.Inside

theorem closed_call_refines (abi : Abi) (codes : Ex3.Codes) (refines : Refines world store)
    (closed : world.files key = none) (unknown : store.offsets key = none) (call : Ex3Call) :
    CallRefines abi codes world store key call := by
  rcases call with (_ | _ | _ | _ | _) | _
  case openFile =>
    constructor
    case answer => rfl
    case after => exact refines.setFile 0 (Nat.zero_le _)
    case inside => simp [touched]
  all_goals
    constructor
    case answer => simp [syscallEx3, syscall, StoreWorld.answer, closed, unknown]
    case after => simpa [syscallEx3, syscall, StoreWorld.answer, closed, unknown] using refines
    case inside => simp [touched, closed]

theorem read_call_refines (abi : Abi) (codes : Ex3.Codes) (refines : Refines world store)
    {data offset : Nat} (opened : world.files key = some ⟨data, Int.ofNat offset⟩)
    (known : store.offsets key = some offset) (range : offset ≤ bufSize) (count : Nat) :
    CallRefines abi codes world store key (.file (.read count true)) := by
  have small : offset < 2 ^ 63 := by
    unfold bufSize at range
    omega
  obtain ⟨result, inside⟩ := read_refines refines abi count offset small
  have stays : offset + (store.store.slice offset count).length ≤ bufSize := by
    have bounded := store.store.bounded
    rw [slice_length]
    omega
  have kept : storedOffset ((store.store.slice offset count).length : Int)
      ((offset + (store.store.slice offset count).length : Nat) : Int) offset =
      Int.ofNat (offset + (store.store.slice offset count).length) := by
    rw [storedOffset, if_pos (Int.natCast_nonneg _)]
    rfl
  constructor
  case answer =>
    simp only [syscallEx3, syscall, StoreWorld.answer, opened, known, ex3Driver, result,
      Int.ofNat_eq_natCast, kept]
  case after =>
    simp only [syscallEx3, syscall, StoreWorld.answer, opened, known, ex3Driver, result,
      Int.ofNat_eq_natCast, kept]
    exact refines.setFile data stays
  case inside => simpa [touched, opened] using inside

theorem write_call_refines (abi : Abi) (codes : Ex3.Codes) (refines : Refines world store)
    {data offset : Nat} (opened : world.files key = some ⟨data, Int.ofNat offset⟩)
    (known : store.offsets key = some offset) (range : offset ≤ bufSize) (buf : Bytes) :
    CallRefines abi codes world store key (.file (.write buf .whole)) := by
  have written := (stored_refines refines buf).sameFile known range data
  have kept : ∀ ret : Int, storedOffset ret (Int.ofNat offset) (Int.ofNat offset) =
      Int.ofNat offset := fun ret => ite_self _
  constructor
  case answer =>
    simp only [syscallEx3, syscall, StoreWorld.answer, opened, known, ex3Driver, ex3_write, kept]
    rfl
  case after =>
    simp only [syscallEx3, syscall, StoreWorld.answer, opened, known, ex3Driver, ex3_write, kept]
    exact written
  case inside => simpa [touched, opened, Range.Inside] using clamped_length_le buf

theorem ioctl_call_refines (abi : Abi) (codes : Ex3.Codes) (refines : Refines world store)
    {data offset : Nat} (opened : world.files key = some ⟨data, Int.ofNat offset⟩)
    (known : store.offsets key = some offset) (cmd : BitVec 32) :
    CallRefines abi codes world store key (.ioctl cmd true) := by
  by_cases clear : cmd = codes.clearBuffer
  · constructor
    case answer =>
      simp [syscallEx3, Ex3.myIoctl, StoreWorld.answer, opened, known, if_pos clear]
    case after =>
      simp only [syscallEx3, Ex3.myIoctl, StoreWorld.answer, opened, known, if_pos clear]
      exact refines.setDevice rfl rfl
    case inside => simp [touched, opened, clear, Range.Inside]
  · by_cases size : cmd = codes.getSize
    · have small := store.store.bounded
      have value := int_value_size abi store.store.contents.length
        (by unfold bufSize at small; omega)
      constructor
      case answer =>
        simp only [syscallEx3, Ex3.myIoctl, StoreWorld.answer, opened, known, if_neg clear,
          if_pos size, if_true, Option.map_some, value, refines.size]
        rfl
      case after =>
        simp only [syscallEx3, Ex3.myIoctl, StoreWorld.answer, opened, known, if_neg clear,
          if_pos size, if_true]
        exact refines
      case inside => simp [touched, opened, clear]
    · constructor
      case answer =>
        simp [syscallEx3, Ex3.myIoctl, StoreWorld.answer, opened, known, clear, size]
      case after =>
        simp only [syscallEx3, Ex3.myIoctl, StoreWorld.answer, opened, known, if_neg clear,
          if_neg size]
        exact refines
      case inside => simp [touched, opened, clear]

theorem call_refines (abi : Abi) (codes : Ex3.Codes) (refines : Refines world store) (key : Key)
    (call : Ex3Call) (copied : call.Copied) : CallRefines abi codes world store key call := by
  rcases refines.lookup key with ⟨closed, unknown⟩ | ⟨data, offset, opened, known, range⟩
  · exact closed_call_refines abi codes refines closed unknown call
  · rcases call with (_ | ⟨count, done⟩ | ⟨buf, copy⟩ | ⟨count, place, done⟩ | ⟨buf, place, copy⟩) |
      ⟨cmd, done⟩
    case file.openFile =>
      constructor
      case answer => rfl
      case after => exact refines.setFile 0 (Nat.zero_le _)
      case inside => simp [touched]
    case file.read =>
      cases copied
      exact read_call_refines abi codes refines opened known range count
    case file.write =>
      cases copied
      exact write_call_refines abi codes refines opened known range buf
    case file.pread =>
      cases copied
      obtain ⟨result, inside⟩ := read_refines refines abi count place.val place.isLt
      constructor
      case answer => simp [syscallEx3, syscall, StoreWorld.answer, opened, known, ex3Driver, result]
      case after =>
        simpa [syscallEx3, syscall, StoreWorld.answer, opened, known] using refines
      case inside => simpa [touched, opened] using inside
    case file.pwrite =>
      cases copied
      have written := (stored_refines refines buf)
      constructor
      case answer =>
        simp [syscallEx3, syscall, StoreWorld.answer, opened, known, ex3Driver, ex3_write]
      case after =>
        simpa [syscallEx3, syscall, StoreWorld.answer, opened, known, ex3Driver, ex3_write]
          using written
      case inside => simpa [touched, opened, Range.Inside] using clamped_length_le buf
    case ioctl =>
      cases copied
      exact ioctl_call_refines abi codes refines opened known cmd

/-- The run lemma, from any pair of related worlds. -/
theorem serve_refines (abi : Abi) (codes : Ex3.Codes) (calls : List (Key × Ex3Call))
    (copied : ∀ entry ∈ calls, entry.2.Copied) (refines : Refines world store) :
    (serveEx3 abi codes world calls).2.map Prod.fst = (store.serve codes calls).2 ∧
      Refines (serveEx3 abi codes world calls).1 (store.serve codes calls).1 ∧
      ∀ served ∈ (serveEx3 abi codes world calls).2, ∀ range ∈ served.2, range.Inside := by
  induction calls generalizing world store with
  | nil => exact ⟨rfl, refines, by simp [serveEx3]⟩
  | cons entry rest ih =>
      rcases entry with ⟨key, call⟩
      have here := call_refines abi codes refines key call (copied (key, call) (by simp))
      obtain ⟨answers, later, inside⟩ :=
        ih (fun other member => copied other (by simp [member])) here.after
      refine ⟨?_, later, ?_⟩
      · rw [serveEx3, StoreWorld.serve, List.map_cons, here.answer, answers]
      · intro served member
        rcases List.mem_cons.mp member with first | tail
        · rw [first]
          exact here.inside
        · exact inside served tail

end Calls

theorem refines_start {Key : Type} (outside : Memory) :
    Refines (ex3Start outside : World Ex3.Device Key) StoreWorld.start where
  size := rfl
  bytes := rfl
  files := fun _ => rfl
  range := by
    intro key offset lookup
    cases lookup

/-- For either width of `size_t` and whatever lies behind the buffer: calls
whose user copies succeed are answered as the bounded store answers them, every
file is left at the offset of its reader, and every access to `device_buffer`
lies within its 1024 bytes. -/
theorem ex3_refines_byte_store {Key : Type} [DecidableEq Key] (abi : Abi) (codes : Ex3.Codes)
    (outside : Memory) (calls : List (Key × Ex3Call))
    (copied : ∀ entry ∈ calls, entry.2.Copied) :
    (serveEx3 abi codes (ex3Start outside) calls).2.map Prod.fst =
        (StoreWorld.start.serve codes calls).2 ∧
      Refines (serveEx3 abi codes (ex3Start outside) calls).1
        (StoreWorld.start.serve codes calls).1 ∧
      ∀ served ∈ (serveEx3 abi codes (ex3Start outside) calls).2,
        ∀ range ∈ served.2, range.Inside :=
  serve_refines abi codes calls copied (refines_start outside)

/-- The codes of `trigger_ioctl.c`. -/
def triggerCodes : Ex3.Codes := ⟨0xF500, 0x8004F501, by decide⟩

/-- Two files; the second reads behind the end of a shorter rewrite. -/
def shorterRewrite : List (Nat × Ex3Call) :=
  [(0, .file .openFile), (1, .file .openFile), (0, .file (.write (ascii "hello") .whole)),
    (1, .file (.read 4 true)), (0, .file (.write (ascii "ab") .whole)),
    (1, .file (.read 10 true)), (0, .file (.read 10 true)), (0, .ioctl 0x8004F501 true),
    (0, .ioctl 0xF500 true), (0, .file (.pread 10 1 true)), (1, .ioctl 7 true)]

theorem ex3_refines_byte_store_shorter_rewrite :
    (∀ entry ∈ shorterRewrite, entry.2.Copied) ∧
      (serveEx3 .lp64 triggerCodes (ex3Start fun _ => 255) shorterRewrite).2.map Prod.fst =
        (StoreWorld.start.serve triggerCodes shorterRewrite).2 ∧
      (StoreWorld.start.serve triggerCodes shorterRewrite).2.map Answer.ret =
        [0, 0, 5, 4, 2, 0, 2, 0, 0, 0, einval] := by
  have copied : ∀ entry ∈ shorterRewrite, entry.2.Copied := by
    simp [shorterRewrite, Ex3Call.Copied]
  exact ⟨copied, (ex3_refines_byte_store .lp64 triggerCodes (fun _ => 255) shorterRewrite
    copied).1, by decide⟩

end LinuxFff.ByteStore
