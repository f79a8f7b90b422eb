import LinuxFff.ByteStore
import LinuxFff.DeviceProduct

/-!
# The buffer drivers as programs over rows

`multi_devices.c` keeps one row of 1024 bytes for every minor; `ex2.c` and
`ex3.c` have a single row. A `BufferProgram` is a driver with the row that each
open file uses, and its laws are what the three callbacks have in common. Only
`ex3.c` has an ioctl handler; the kernel answers `-ENOTTY` for the other two.
-/

namespace LinuxFff.BufferRows

open LinuxFff.CString LinuxFff.KernelMemory LinuxFff.SizeArith LinuxFff.BufferDevice
open LinuxFff.CharDevice LinuxFff.DeviceProduct LinuxFff.ByteStore

set_option autoImplicit false

def enotty : Int := -25

/-- A call on a file, or an ioctl command. -/
abbrev DeviceCall := Ex3Call

structure BufferProgram where
  Device : Type
  Key : Type
  keys : DecidableEq Key
  abi : Abi
  driver : CharDriver Device
  ioctl : Device → BitVec 32 → Bool → Int × Device × Option Bytes
  minorOf : Key → Nat
  start : Memory → World Device Key
  row : Nat → Nat
  memory : Device → Memory
  size : Device → Nat → Nat
  /-- A successful write sets the offset to 0. -/
  resets : Bool
  clears : BitVec 32 → Bool
  read_rows : ∀ device data count ppos copied,
    driver.read device data count ppos copied =
      bufferRead abi (memory device) (row data * BufferDevice.bufSize) (size device (row data))
        count ppos copied
  write_ret : ∀ device data buf ppos copy,
    (driver.write device data buf ppos copy).1 =
      if copy = .whole then ((clamped buf).length : Int) else efault
  write_memory : ∀ device data buf ppos copy,
    memory (driver.write device data buf ppos copy).2.1 =
      (memory device).store (row data * BufferDevice.bufSize) (copy.stored (clamped buf))
  write_size : ∀ device data buf ppos copy,
    size (driver.write device data buf ppos copy).2.1 =
      if copy = .whole then Function.update (size device) (row data) (clamped buf).length
      else size device
  write_offset : ∀ device data buf ppos copy,
    (driver.write device data buf ppos copy).2.2 =
      if copy = .whole ∧ resets then 0 else ppos
  ioctl_keeps : ∀ device cmd copied, clears cmd = false → (ioctl device cmd copied).2.1 = device
  ioctl_clears : ∀ device cmd copied row, clears cmd = true →
    size (ioctl device cmd copied).2.1 row = 0
  start_size : ∀ outside row, size (start outside).device row = 0
  start_files : ∀ outside key, (start outside).files key = none

def noIoctl {Device : Type} (device : Device) (_ : BitVec 32) (_ : Bool) :
    Int × Device × Option Bytes := (enotty, device, none)

/-- The only row of `ex2.c` and `ex3.c`. -/
def oneRow (size row : Nat) : Nat := if row = 0 then size else 0

theorem one_row_update (old new : Nat) :
    oneRow new = Function.update (oneRow old) 0 new := by
  funext row
  by_cases first : row = 0 <;> simp [oneRow, first]

def ex2Program (abi : Abi) : BufferProgram where
  Device := Ex2.Device
  Key := Nat
  keys := inferInstance
  abi := abi
  driver := ex2Driver abi
  ioctl := noIoctl
  minorOf := fun _ => 0
  start := ex2Start
  row := fun _ => 0
  memory := Ex2.Device.memory
  size := fun device => oneRow device.bufferSize
  resets := true
  clears := fun _ => false
  read_rows := fun _ _ _ _ _ => rfl
  write_ret := fun _ _ _ _ copy => by cases copy <;> rfl
  write_memory := fun _ _ _ _ copy => by cases copy <;> rfl
  write_size := fun _ _ _ _ copy => by
    cases copy with
    | whole => exact one_row_update _ _
    | fault copied zeroed => rfl
  write_offset := fun _ _ _ _ copy => by cases copy <;> rfl
  ioctl_keeps := fun _ _ _ _ => rfl
  ioctl_clears := fun _ _ _ _ impossible => Bool.noConfusion impossible
  start_size := fun _ row => by simp [ex2Start, oneRow]
  start_files := fun _ _ => rfl

def ex3Program (abi : Abi) (codes : Ex3.Codes) : BufferProgram where
  Device := Ex3.Device
  Key := Nat
  keys := inferInstance
  abi := abi
  driver := ex3Driver abi
  ioctl := Ex3.myIoctl abi codes
  minorOf := fun _ => 0
  start := ex3Start
  row := fun _ => 0
  memory := Ex3.Device.memory
  size := fun device => oneRow device.bufferSize
  resets := false
  clears := fun cmd => cmd = codes.clearBuffer
  read_rows := fun _ _ _ _ _ => rfl
  write_ret := fun _ _ _ _ copy => by cases copy <;> rfl
  write_memory := fun _ _ _ _ copy => by cases copy <;> rfl
  write_size := fun _ _ _ _ copy => by
    cases copy with
    | whole => exact one_row_update _ _
    | fault copied zeroed => rfl
  write_offset := fun _ _ _ _ copy => by cases copy <;> rfl
  ioctl_keeps := fun _ _ copied keeps => by
    unfold Ex3.myIoctl
    rw [if_neg (of_decide_eq_false keeps)]
    split_ifs <;> rfl
  ioctl_clears := fun _ _ _ row clear => by
    unfold Ex3.myIoctl
    rw [if_pos (of_decide_eq_true clear)]
    simp [oneRow]
  start_size := fun _ row => by simp [ex3Start, oneRow]
  start_files := fun _ _ => rfl

def multiProgram (abi : Abi) : BufferProgram where
  Device := MultiDevices.Device
  Key := Handle
  keys := inferInstance
  abi := abi
  driver := multiDriver abi
  ioctl := noIoctl
  minorOf := fun handle => handle.minor
  start := multiStart
  row := id
  memory := MultiDevices.Device.memory
  size := MultiDevices.Device.bufSize
  resets := true
  clears := fun _ => false
  read_rows := fun _ _ _ _ _ => rfl
  write_ret := fun _ _ _ _ copy => by cases copy <;> rfl
  write_memory := fun _ _ _ _ copy => by cases copy <;> rfl
  write_size := fun _ _ _ _ copy => by cases copy <;> rfl
  write_offset := fun _ _ _ _ copy => by cases copy <;> rfl
  ioctl_keeps := fun _ _ _ _ => rfl
  ioctl_clears := fun _ _ _ _ impossible => Bool.noConfusion impossible
  start_size := fun _ _ => rfl
  start_files := fun _ _ => rfl

inductive Source where
  | ex2
  | ex3
  | multiDevices
  deriving DecidableEq

def program (abi : Abi) (codes : Ex3.Codes) : Source → BufferProgram
  | .ex2 => ex2Program abi
  | .ex3 => ex3Program abi codes
  | .multiDevices => multiProgram abi

def someKey (abi : Abi) (codes : Ex3.Codes) : (source : Source) → (program abi codes source).Key
  | .ex2 => (0 : Nat)
  | .ex3 => (0 : Nat)
  | .multiDevices => (⟨⟨2, by decide⟩, 0⟩ : Handle)

/-- What `my_read` answers when the row holds these bytes. -/
def readHeld (contents : Bytes) (count : Nat) (ppos : Int) (copied : Bool) : ReadResult :=
  if contents.length ≤ ppos then ⟨0, [], ppos⟩
  else if copied then
    ⟨((contents.drop ppos.toNat).take count).length, (contents.drop ppos.toNat).take count,
      ppos + ((contents.drop ppos.toNat).take count).length⟩
  else ⟨efault, [], ppos⟩

theorem read_held_copied (contents : Bytes) (count offset : Nat) :
    readHeld contents count offset true =
      ⟨((contents.drop offset).take count).length, (contents.drop offset).take count,
        ((offset + ((contents.drop offset).take count).length : Nat) : Int)⟩ := by
  unfold readHeld
  by_cases past : contents.length ≤ offset
  · rw [if_pos (by omega), List.drop_eq_nil_of_le past]
    simp
  · rw [if_neg (by omega)]
    simp

theorem read_held_offset {contents : Bytes} (bounded : contents.length ≤ BufferDevice.bufSize)
    (count : Nat) (ppos : Int) (copied : Bool) (representable : Representable ppos) :
    Representable (readHeld contents count ppos copied).ppos := by
  unfold readHeld BufferDevice.bufSize Representable at *
  split_ifs with past
  · exact representable
  · simp only [List.length_take, List.length_drop]
    omega
  · exact representable

namespace BufferProgram

variable (program : BufferProgram)

instance : DecidableEq program.Key := program.keys

def rowOf (key : program.Key) : Nat :=
  program.row (program.driver.openData (program.minorOf key))

/-- The bytes that a row currently holds for its readers. -/
def held (device : program.Device) (row : Nat) : Bytes :=
  (program.memory device).load (row * BufferDevice.bufSize) (program.size device row)

def syscall (world : World program.Device program.Key) (key : program.Key) :
    DeviceCall → World program.Device program.Key × Answer
  | .file call =>
      let result := CharDevice.syscall program.driver (program.minorOf key) world key call
      (result.1, ⟨result.2.ret, result.2.bytes, none, result.2.offset⟩)
  | .ioctl cmd copied =>
      match world.files key with
      | none => (world, ⟨ebadf, [], none, none⟩)
      | some file =>
          let result := program.ioctl world.device cmd copied
          ({ world with device := result.2.1 },
            ⟨result.1, [], result.2.2.map intValue, some file.ppos⟩)

/-- Complete calls one after another, each with its answer. -/
def serve : World program.Device program.Key → List (program.Key × DeviceCall) →
    List ((program.Key × DeviceCall) × Answer)
  | _, [] => []
  | world, (key, call) :: rest =>
      let result := program.syscall world key call
      ((key, call), result.2) :: serve result.1 rest

def after : World program.Device program.Key → List (program.Key × DeviceCall) →
    World program.Device program.Key
  | world, [] => world
  | world, (key, call) :: rest => after (program.syscall world key call).1 rest

/-- Some calls lead here from the loading of the module, whatever lies behind
the buffers. -/
def Reached (world : World program.Device program.Key) : Prop :=
  ∃ outside history, world = program.after (program.start outside) history

structure Sound (world : World program.Device program.Key) : Prop where
  small : ∀ row, program.size world.device row ≤ BufferDevice.bufSize
  data : ∀ key file, world.files key = some file →
    file.privateData = program.driver.openData (program.minorOf key)
  range : ∀ key file, world.files key = some file → Representable file.ppos

variable {program} {world : World program.Device program.Key} {key : program.Key}

theorem held_length (device : program.Device) (row : Nat) :
    (program.held device row).length = program.size device row := load_length _ _ _

theorem read_held {device : program.Device} {data : Nat}
    (small : program.size device (program.row data) ≤ BufferDevice.bufSize) (count : Nat)
    (ppos : Int) (copied : Bool) (representable : Representable ppos) :
    program.driver.read device data count ppos copied =
      readHeld (program.held device (program.row data)) count ppos copied := by
  rw [program.read_rows, bufferRead, readHeld, held_length, read_length_single program.abi count _
    ppos representable.1 representable.2 (by unfold BufferDevice.bufSize at small; omega)]
  by_cases past : (program.size device (program.row data) : Int) ≤ ppos
  · rw [if_pos past, if_pos past]
  · rw [if_neg past, if_neg past]
    cases copied with
    | false => rfl
    | true =>
        simp only [if_true, load_slice]
        rw [held, List.length_take, List.length_drop, load_length]

theorem held_write_other {device : program.Device} {row : Nat} (data : Nat) (buf : Bytes)
    (ppos : Int) (copy : UserCopy) (apart : row ≠ program.row data)
    (small : program.size device row ≤ BufferDevice.bufSize) :
    program.held (program.driver.write device data buf ppos copy).2.1 row =
      program.held device row := by
  have short : (copy.stored (clamped buf)).length ≤ BufferDevice.bufSize :=
    (stored_length_le copy _).trans (clamped_length_le buf)
  have sameSize : program.size (program.driver.write device data buf ppos copy).2.1 row =
      program.size device row := by
    rw [program.write_size]
    split_ifs
    · exact Function.update_of_ne apart _ _
    · rfl
  unfold held
  rw [sameSize, program.write_memory]
  apply load_congr
  intro index inside
  apply store_outside
  unfold BufferDevice.bufSize at *
  omega

theorem held_write_whole (device : program.Device) (data : Nat) (buf : Bytes) (ppos : Int) :
    program.held (program.driver.write device data buf ppos .whole).2.1 (program.row data) =
      clamped buf := by
  unfold held
  rw [program.write_size, program.write_memory, if_pos rfl, Function.update_self, load_store]
  simp only [UserCopy.stored, List.take_length]
  rw [List.drop_of_length_le (by rw [load_length]), List.append_nil]

/-- A failed write leaves the size, so what it stored shows up to there. -/
theorem held_write_failed (device : program.Device) (data : Nat) (buf : Bytes) (ppos : Int)
    {copy : UserCopy} (failed : copy ≠ .whole) :
    program.held (program.driver.write device data buf ppos copy).2.1 (program.row data) =
      (copy.stored (clamped buf)).take (program.size device (program.row data)) ++
        (program.held device (program.row data)).drop (copy.stored (clamped buf)).length := by
  unfold held
  rw [program.write_size, program.write_memory, if_neg failed, load_store]

theorem size_write_le {device : program.Device}
    (small : ∀ row, program.size device row ≤ BufferDevice.bufSize) (data : Nat) (buf : Bytes)
    (ppos : Int) (copy : UserCopy) (row : Nat) :
    program.size (program.driver.write device data buf ppos copy).2.1 row ≤
      BufferDevice.bufSize := by
  rw [program.write_size]
  split_ifs with whole
  · by_cases same : row = program.row data
    · rw [same, Function.update_self]
      exact clamped_length_le buf
    · rw [Function.update_of_ne same]
      exact small row
  · exact small row

theorem write_offset_representable (device : program.Device) (data : Nat) (buf : Bytes)
    {ppos : Int} (copy : UserCopy) (representable : Representable ppos) :
    Representable (program.driver.write device data buf ppos copy).2.2 := by
  rw [program.write_offset]
  split_ifs
  · exact zero_representable
  · exact representable

theorem Sound.setFile (sound : program.Sound world) {file : File}
    (data : file.privateData = program.driver.openData (program.minorOf key))
    (range : Representable file.ppos) : program.Sound (world.setFile key file) where
  small := sound.small
  data := by
    intro other found lookup
    by_cases same : other = key
    · have equal : file = found := by simpa [World.setFile, same] using lookup
      rw [same, ← equal]
      exact data
    · exact sound.data other found (by simpa [World.setFile, same] using lookup)
  range := by
    intro other found lookup
    by_cases same : other = key
    · have equal : file = found := by simpa [World.setFile, same] using lookup
      exact equal ▸ range
    · exact sound.range other found (by simpa [World.setFile, same] using lookup)

theorem Sound.setDevice (sound : program.Sound world) {device : program.Device}
    (small : ∀ row, program.size device row ≤ BufferDevice.bufSize) :
    program.Sound { world with device } := ⟨small, sound.data, sound.range⟩

/-- The step lemma of soundness. -/
theorem sound_syscall (sound : program.Sound world) (key : program.Key) (call : DeviceCall) :
    program.Sound (program.syscall world key call).1 := by
  rcases call with (_ | ⟨count, copied⟩ | ⟨buf, copy⟩ | ⟨count, place, copied⟩ |
    ⟨buf, place, copy⟩) | ⟨cmd, copied⟩
  case file.openFile => exact sound.setFile rfl zero_representable
  all_goals
    cases opened : world.files key with
    | none => simpa only [syscall, CharDevice.syscall, opened] using sound
    | some file => ?_
  case file.read.some =>
    have range := sound.range key file opened
    have bounded : (program.held world.device (program.row file.privateData)).length ≤
        BufferDevice.bufSize := by
      rw [held_length]
      exact sound.small _
    simp only [syscall, CharDevice.syscall, opened, read_held (sound.small _) count file.ppos
      copied range]
    exact sound.setFile (sound.data key file opened)
      (stored_offset_representable (read_held_offset bounded count _ copied range) range)
  case file.write.some =>
    have range := sound.range key file opened
    simp only [syscall, CharDevice.syscall, opened]
    exact (sound.setDevice (size_write_le sound.small _ _ _ _)).setFile
      (sound.data key file opened)
      (stored_offset_representable (write_offset_representable _ _ _ copy range) range)
  case file.pread.some => simpa only [syscall, CharDevice.syscall, opened] using sound
  case file.pwrite.some =>
    simp only [syscall, CharDevice.syscall, opened]
    exact sound.setDevice (size_write_le sound.small _ _ _ _)
  case ioctl.some =>
    simp only [syscall, opened]
    apply sound.setDevice
    intro row
    cases clear : program.clears cmd with
    | false =>
        rw [program.ioctl_keeps world.device cmd copied clear]
        exact sound.small row
    | true =>
        rw [program.ioctl_clears world.device cmd copied row clear]
        exact Nat.zero_le _

theorem sound_after (sound : program.Sound world) (history : List (program.Key × DeviceCall)) :
    program.Sound (program.after world history) := by
  induction history generalizing world with
  | nil => exact sound
  | cons entry rest ih => exact ih (sound_syscall sound entry.1 entry.2)

theorem sound_start (outside : Memory) : program.Sound (program.start outside) where
  small := fun row => (program.start_size outside row).trans_le (Nat.zero_le _)
  data := fun key _ impossible => by simp [program.start_files outside key] at impossible
  range := fun key _ impossible => by simp [program.start_files outside key] at impossible

theorem Reached.sound (reached : program.Reached world) : program.Sound world := by
  obtain ⟨outside, history, equal⟩ := reached
  rw [equal]
  exact sound_after (sound_start outside) history

theorem whole_write (sound : program.Sound world) {file : File}
    (opened : world.files key = some file) (buf : Bytes) :
    (program.syscall world key (.file (.write buf .whole))).2.ret = (clamped buf).length ∧
      (program.syscall world key (.file (.write buf .whole))).1.files key =
        some { file with ppos := if program.resets then 0 else file.ppos } ∧
      program.held (program.syscall world key (.file (.write buf .whole))).1.device
        (program.rowOf key) = clamped buf := by
  have rowEq : program.row file.privateData = program.rowOf key := by
    rw [sound.data key file opened, rowOf]
  refine ⟨?_, ?_, ?_⟩
  · simp only [syscall, CharDevice.syscall, opened, program.write_ret, if_true]
  · simp only [syscall, CharDevice.syscall, opened, program.write_ret, program.write_offset,
      if_true, true_and, storedOffset, Int.natCast_nonneg]
    exact Function.update_self _ _ _
  · simp only [syscall, CharDevice.syscall, opened, ← rowEq]
    exact held_write_whole world.device file.privateData buf file.ppos

end BufferProgram

theorem ex3_program_syscall (abi : Abi) (codes : Ex3.Codes) (world : World Ex3.Device Nat)
    (key : Nat) (call : DeviceCall) :
    (ex3Program abi codes).syscall world key call = syscallEx3 abi codes world key call := by
  cases call <;> rfl

end LinuxFff.BufferRows
