import LinuxFff.KernelMemory
import LinuxFff.SizeArith

/-!
# The buffer drivers `ex2.c`, `ex3.c` and `multi_devices.c`

The three drivers read and write a buffer of 1024 bytes with the same code.
`readLength` is the arithmetic of `my_read` with the three loads of the shared
size kept apart; a call that nothing overlaps loads the same size three times.
`multi_devices.c` keeps one row for every minor in one two-dimensional array,
so a range that leaves a row reaches the next minor.
-/

namespace LinuxFff.BufferDevice

open LinuxFff.CString LinuxFff.KernelMemory LinuxFff.SizeArith

set_option autoImplicit false

/-- `BUF_SIZE`, the same in the three drivers. -/
def bufSize : Nat := 1024

/-- The length that `my_read` passes to `copy_to_user`, or nothing when it
returns 0 at its first test. The sizes are what its three loads returned. -/
def readLength (abi : Abi) (count : Nat) (offset : Int) (first second third : Nat) :
    Option Nat :=
  if abi.offsetOperand offset ≥ first then none
  else if (count : Int) > abi.sizeSubOffset second offset then
    some (abi.toSize (abi.sizeSubOffset third offset))
  else some count

structure ReadResult where
  ret : Int
  bytes : Bytes
  ppos : Int
  deriving DecidableEq

/-- `my_read` of a buffer at `base` whose size nobody changes meanwhile. -/
def bufferRead (abi : Abi) (memory : Memory) (base size count : Nat) (ppos : Int)
    (copied : Bool) : ReadResult :=
  match readLength abi count ppos size size size with
  | none => ⟨0, [], ppos⟩
  | some len =>
      if copied then ⟨len, memory.load (base + ppos.toNat) len, ppos + len⟩
      else ⟨efault, [], ppos⟩

/-- The bytes that `my_write` asks `copy_from_user` for. -/
def clamped (buf : Bytes) : Bytes :=
  if buf.length > bufSize then buf.take bufSize else buf

/-- `my_write` to a buffer at `base`: the return value, the memory, and the
new size when the copy succeeded. -/
def bufferWrite (memory : Memory) (base : Nat) (buf : Bytes) (copy : UserCopy) :
    Int × Memory × Option Nat :=
  let copied := memory.copyFromUser base (clamped buf) copy
  if copied.2 then ((clamped buf).length, copied.1, some (clamped buf).length)
  else (efault, copied.1, none)

theorem clamped_length (buf : Bytes) : (clamped buf).length = min buf.length bufSize := by
  unfold clamped
  split_ifs with long
  · simp
    omega
  · omega

theorem clamped_length_le (buf : Bytes) : (clamped buf).length ≤ bufSize := by
  rw [clamped_length]
  exact Nat.min_le_right _ _

/-- With one size for the three loads, `my_read` returns what the buffer holds
from the offset on, up to the count. -/
theorem read_length_single (abi : Abi) (count size : Nat) (offset : Int)
    (nonneg : 0 ≤ offset) (representable : offset < 2 ^ 63) (small : size < 2 ^ 31) :
    readLength abi count offset size size size =
      if (size : Int) ≤ offset then none else some (min count (size - offset.toNat)) := by
  unfold readLength
  rw [Abi.offset_operand_small abi offset nonneg representable]
  by_cases past : (size : Int) ≤ offset
  · rw [if_pos past, if_pos past]
  · rw [if_neg past, if_neg past,
      Abi.size_sub_offset_within abi size offset (by omega) nonneg (by omega),
      Abi.to_size_small abi _ (by omega) (by omega)]
    by_cases more : (count : Int) > size - offset
    · rw [if_pos more]
      apply congrArg some
      omega
    · rw [if_neg more]
      apply congrArg some
      omega

/-- The object representation of a `size_t`, low byte first. -/
def sizeObject (abi : Abi) (size : Nat) : Bytes :=
  (List.range abi.sizeBytes).map fun index => UInt8.ofNat (size / 256 ^ index)

/-- The value of an `int` whose object holds these four bytes. -/
def intValue (object : Bytes) : Int :=
  let value : Nat := object.foldr (fun byte rest => byte.toNat + 256 * rest) 0
  if value < 2 ^ 31 then value else value - 2 ^ 32

theorem int_value_size (abi : Abi) (size : Nat) (small : size < 2 ^ 31) :
    intValue ((sizeObject abi size).take 4) = size := by
  have object : (sizeObject abi size).take 4 =
      [UInt8.ofNat (size / 256 ^ 0), UInt8.ofNat (size / 256 ^ 1),
        UInt8.ofNat (size / 256 ^ 2), UInt8.ofNat (size / 256 ^ 3)] := by
    cases abi with
    | ilp32 => rfl
    | lp64 => rfl
  have value : ([UInt8.ofNat (size / 256 ^ 0), UInt8.ofNat (size / 256 ^ 1),
      UInt8.ofNat (size / 256 ^ 2), UInt8.ofNat (size / 256 ^ 3)] : Bytes).foldr
        (fun byte rest => byte.toNat + 256 * rest) 0 = size := by
    simp only [List.foldr_cons, List.foldr_nil, UInt8.toNat_ofNat']
    omega
  unfold intValue
  rw [object, value, if_pos small]

namespace Ex2

structure Device where
  memory : Memory
  bufferSize : Nat

def myRead (abi : Abi) (device : Device) (count : Nat) (ppos : Int) (copied : Bool) :
    ReadResult :=
  bufferRead abi device.memory 0 device.bufferSize count ppos copied

/-- The return value, the device and the offset, which a success resets. -/
def myWrite (device : Device) (buf : Bytes) (ppos : Int) (copy : UserCopy) :
    Int × Device × Int :=
  match bufferWrite device.memory 0 buf copy with
  | (ret, memory, some size) => (ret, ⟨memory, size⟩, 0)
  | (ret, memory, none) => (ret, { device with memory }, ppos)

end Ex2

namespace Ex3

structure Device where
  memory : Memory
  bufferSize : Nat

/-- The values of `IOCTL_CLEAR_BUFFER` and `IOCTL_GET_SIZE`, two labels of one
`switch`. -/
structure Codes where
  clearBuffer : BitVec 32
  getSize : BitVec 32
  distinct : clearBuffer ≠ getSize

def myRead (abi : Abi) (device : Device) (count : Nat) (ppos : Int) (copied : Bool) :
    ReadResult :=
  bufferRead abi device.memory 0 device.bufferSize count ppos copied

/-- Unlike the other two drivers, this one leaves the offset alone. -/
def myWrite (device : Device) (buf : Bytes) (ppos : Int) (copy : UserCopy) :
    Int × Device × Int :=
  match bufferWrite device.memory 0 buf copy with
  | (ret, memory, some size) => (ret, ⟨memory, size⟩, ppos)
  | (ret, memory, none) => (ret, { device with memory }, ppos)

/-- The return value, the device, and the bytes stored in the caller's `int`. -/
def myIoctl (abi : Abi) (codes : Codes) (device : Device) (cmd : BitVec 32) (copied : Bool) :
    Int × Device × Option Bytes :=
  if cmd = codes.clearBuffer then
    (0, ⟨device.memory.store 0 (List.replicate bufSize 0), 0⟩, none)
  else if cmd = codes.getSize then
    if copied then (0, device, some ((sizeObject abi device.bufferSize).take 4))
    else (efault, device, none)
  else (einval, device, none)

end Ex3

namespace MultiDevices

def numDevices : Nat := 4

structure Device where
  memory : Memory
  bufSize : Nat → Nat

/-- `my_open` stores the minor number of the inode in `file->private_data`. -/
def myOpen (minor : Nat) : Nat := minor

def row (minor : Nat) : Nat := minor * BufferDevice.bufSize

def myRead (abi : Abi) (device : Device) (minor count : Nat) (ppos : Int) (copied : Bool) :
    ReadResult :=
  bufferRead abi device.memory (row minor) (device.bufSize minor) count ppos copied

def myWrite (device : Device) (minor : Nat) (buf : Bytes) (ppos : Int) (copy : UserCopy) :
    Int × Device × Int :=
  match bufferWrite device.memory (row minor) buf copy with
  | (ret, memory, some size) =>
      (ret, ⟨memory, Function.update device.bufSize minor size⟩, 0)
  | (ret, memory, none) => (ret, { device with memory }, ppos)

end MultiDevices

end LinuxFff.BufferDevice
