import LinuxFff.BufferDevice

/-!
# System calls on a character device

The kernel passes a copy of the file offset to the driver and stores it back
after a `read` or `write` that did not fail; `pread` and `pwrite` leave the
offset of the file alone. Files are named by keys, and a key fixes the minor
number of the inode that its file was opened through.
-/

namespace LinuxFff.CharDevice

open LinuxFff.CString LinuxFff.KernelMemory LinuxFff.SizeArith LinuxFff.BufferDevice

set_option autoImplicit false

def ebadf : Int := -9

structure File where
  privateData : Nat
  ppos : Int
  deriving DecidableEq

/-- The callbacks of a driver; both get the private data that its open stored. -/
structure CharDriver (Device : Type) where
  openData : Nat → Nat
  read : Device → Nat → Nat → Int → Bool → ReadResult
  write : Device → Nat → Bytes → Int → UserCopy → Int × Device × Int

structure World (Device Key : Type) where
  device : Device
  files : Key → Option File

inductive Call where
  | openFile
  | read (count : Nat) (copied : Bool)
  | write (buf : Bytes) (copy : UserCopy)
  | pread (count : Nat) (offset : LOff) (copied : Bool)
  | pwrite (buf : Bytes) (offset : LOff) (copy : UserCopy)

/-- What the caller sees: the return value, the bytes delivered and the offset
of the file afterwards. -/
structure Observation where
  ret : Int
  bytes : Bytes
  offset : Option Int
  deriving DecidableEq

section Syscall

variable {Device Key : Type} [DecidableEq Key]

def World.setFile (world : World Device Key) (key : Key) (file : File) : World Device Key :=
  { world with files := Function.update world.files key (some file) }

def storedOffset (ret ppos previous : Int) : Int := if 0 ≤ ret then ppos else previous

def syscall (driver : CharDriver Device) (minor : Nat) (world : World Device Key) (key : Key)
    (call : Call) : World Device Key × Observation :=
  match call, world.files key with
  | .openFile, _ =>
      (world.setFile key ⟨driver.openData minor, 0⟩, ⟨0, [], some 0⟩)
  | _, none => (world, ⟨ebadf, [], none⟩)
  | .read count copied, some file =>
      let result := driver.read world.device file.privateData count file.ppos copied
      let ppos := storedOffset result.ret result.ppos file.ppos
      (world.setFile key { file with ppos }, ⟨result.ret, result.bytes, some ppos⟩)
  | .write buf copy, some file =>
      let result := driver.write world.device file.privateData buf file.ppos copy
      let ppos := storedOffset result.1 result.2.2 file.ppos
      ({ world with device := result.2.1 }.setFile key { file with ppos },
        ⟨result.1, [], some ppos⟩)
  | .pread count offset copied, some file =>
      let result := driver.read world.device file.privateData count offset.val copied
      (world, ⟨result.ret, result.bytes, some file.ppos⟩)
  | .pwrite buf offset copy, some file =>
      let result := driver.write world.device file.privateData buf offset.val copy
      ({ world with device := result.2.1 }, ⟨result.1, [], some file.ppos⟩)

/-- Calls that run to completion one after another, each with what it returned. -/
def serve (driver : CharDriver Device) (minorOf : Key → Nat) :
    World Device Key → List (Key × Call) → List ((Key × Call) × Observation)
  | _, [] => []
  | world, (key, call) :: rest =>
      let result := syscall driver (minorOf key) world key call
      ((key, call), result.2) :: serve driver minorOf result.1 rest

end Syscall

def ex2Driver (abi : Abi) : CharDriver Ex2.Device where
  openData := fun _ => 0
  read := fun device _ count ppos copied => Ex2.myRead abi device count ppos copied
  write := fun device _ buf ppos copy => Ex2.myWrite device buf ppos copy

def multiDriver (abi : Abi) : CharDriver MultiDevices.Device where
  openData := MultiDevices.myOpen
  read := MultiDevices.myRead abi
  write := MultiDevices.myWrite

end LinuxFff.CharDevice
