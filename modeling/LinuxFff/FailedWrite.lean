import LinuxFff.BufferRows

/-!
# Reads after a failed write

`my_write` copies the user's bytes straight into the row that readers see, and
only then looks whether the copy succeeded. A copy that fails has replaced a
part of the contents although the size is still the old one.
-/

namespace LinuxFff.FailedWrite

open LinuxFff.CString LinuxFff.KernelMemory LinuxFff.SizeArith LinuxFff.BufferDevice
open LinuxFff.CharDevice hiding syscall serve
open LinuxFff.DeviceProduct LinuxFff.ByteStore LinuxFff.BufferRows
open LinuxFff.BufferRows.BufferProgram

set_option autoImplicit false

def Reads : DeviceCall → Prop
  | .file .openFile => True
  | .file (.read _ _) => True
  | .file (.pread _ _ _) => True
  | _ => False

/-- `write(2)`, or `pwrite(2)` at a given offset. -/
def writeCall (place : Option LOff) (buf : Bytes) (copy : UserCopy) : DeviceCall :=
  match place with
  | none => .file (.write buf copy)
  | some offset => .file (.pwrite buf offset copy)

section Program

variable {program : BufferProgram}

/-- Every later sequence of reads returns what it would have returned without
the call. -/
def Unseen (world : World program.Device program.Key) (key : program.Key) (call : DeviceCall) :
    Prop :=
  ∀ later : List (program.Key × DeviceCall), (∀ entry ∈ later, Reads entry.2) →
    program.serve (program.syscall world key call).1 later = program.serve world later

/-- The bytes that a faulty copy leaves within the recorded size are those that
were there. -/
def LeavesContents (world : World program.Device program.Key) (key : program.Key) (buf : Bytes)
    (copy : UserCopy) : Prop :=
  (copy.stored (clamped buf)).take (program.size world.device (program.rowOf key)) <+:
    program.held world.device (program.rowOf key)

structure SameHeld (left right : World program.Device program.Key) : Prop where
  files : left.files = right.files
  held : ∀ row, program.held left.device row = program.held right.device row

variable {left right world : World program.Device program.Key} {key : program.Key}

theorem SameHeld.setFile (same : SameHeld left right) (file : File) :
    SameHeld (left.setFile key file) (right.setFile key file) where
  files := by simp only [World.setFile, same.files]
  held := same.held

/-- The step lemma: a read sees the held bytes and the open files only. -/
theorem read_call_same (leftSound : program.Sound left) (rightSound : program.Sound right)
    (same : SameHeld left right) (key : program.Key) {call : DeviceCall} (reads : Reads call) :
    (program.syscall left key call).2 = (program.syscall right key call).2 ∧
      SameHeld (program.syscall left key call).1 (program.syscall right key call).1 := by
  have sameRead : ∀ (data count : Nat) (ppos : Int) (copied : Bool), Representable ppos →
      program.driver.read left.device data count ppos copied =
        program.driver.read right.device data count ppos copied := by
    intro data count ppos copied representable
    rw [read_held (leftSound.small _) count ppos copied representable,
      read_held (rightSound.small _) count ppos copied representable, same.held]
  rcases call with (_ | ⟨count, copied⟩ | ⟨buf, copy⟩ | ⟨count, place, copied⟩ |
    ⟨buf, place, copy⟩) | ⟨cmd, copied⟩
  case file.openFile => exact ⟨rfl, same.setFile _⟩
  case file.read =>
    cases opened : right.files key with
    | none =>
        simp only [syscall, CharDevice.syscall, same.files, opened]
        exact ⟨trivial, same⟩
    | some file =>
        simp only [syscall, CharDevice.syscall, same.files, opened,
          sameRead _ count _ copied (rightSound.range key file opened)]
        exact ⟨trivial, same.setFile _⟩
  case file.pread =>
    cases opened : right.files key with
    | none =>
        simp only [syscall, CharDevice.syscall, same.files, opened]
        exact ⟨trivial, same⟩
    | some file =>
        simp only [syscall, CharDevice.syscall, same.files, opened,
          sameRead _ count place.val copied ⟨by omega, by omega⟩]
        exact ⟨trivial, same⟩
  all_goals exact reads.elim

theorem reads_same (leftSound : program.Sound left) (rightSound : program.Sound right)
    (same : SameHeld left right) {later : List (program.Key × DeviceCall)}
    (reads : ∀ entry ∈ later, Reads entry.2) :
    program.serve left later = program.serve right later := by
  induction later generalizing left right with
  | nil => rfl
  | cons entry rest ih =>
      rcases entry with ⟨key, call⟩
      obtain ⟨answer, after⟩ :=
        read_call_same leftSound rightSound same key (reads (key, call) (by simp))
      have tail := ih (sound_syscall leftSound key call) (sound_syscall rightSound key call) after
        fun other member => reads other (by simp [member])
      simp only [serve, answer, tail]

/-- What a failed write is: the file was open, the copy was cut short, and only
the device has changed. -/
theorem failed_write (place : Option LOff) (buf : Bytes) (copy : UserCopy)
    (failed : (program.syscall world key (writeCall place buf copy)).2.ret = efault) :
    ∃ file ppos, world.files key = some file ∧ copy ≠ .whole ∧
      (program.syscall world key (writeCall place buf copy)).1 =
        { world with
          device := (program.driver.write world.device file.privateData buf ppos copy).2.1 } := by
  cases opened : world.files key with
  | none =>
      cases place <;> simp [writeCall, syscall, CharDevice.syscall, opened, ebadf, efault] at failed
  | some file =>
      have faulty : ∀ ppos,
          (program.driver.write world.device file.privateData buf ppos copy).1 = efault →
            copy ≠ .whole := by
        intro ppos ret whole
        rw [program.write_ret, if_pos whole] at ret
        unfold efault at ret
        omega
      cases place with
      | none =>
          simp only [writeCall, syscall, CharDevice.syscall, opened] at failed ⊢
          refine ⟨file, file.ppos, rfl, faulty file.ppos failed, ?_⟩
          have kept : Function.update world.files key (some file) = world.files := by
            rw [← opened, Function.update_eq_self]
          simp [World.setFile, storedOffset, failed, efault, kept]
      | some offset =>
          simp only [writeCall, syscall, CharDevice.syscall, opened] at failed ⊢
          exact ⟨file, offset.val, rfl, faulty offset.val failed, rfl⟩

theorem overwrite_eq_iff (contents stored : Bytes) :
    stored.take contents.length ++ contents.drop stored.length = contents ↔
      stored.take contents.length <+: contents := by
  constructor
  · intro same
    exact ⟨_, same⟩
  · intro kept
    rw [List.prefix_iff_eq_take.mp kept, List.length_take]
    by_cases inside : stored.length ≤ contents.length
    · rw [Nat.min_eq_right inside, List.take_append_drop]
    · rw [List.drop_eq_nil_of_le (by omega), List.append_nil, Nat.min_eq_left (by omega),
        List.take_length]

theorem failed_write_same_iff (sound : program.Sound world) {file : File}
    (opened : world.files key = some file) (buf : Bytes) (ppos : Int) {copy : UserCopy}
    (failed : copy ≠ .whole) :
    SameHeld { world with
        device := (program.driver.write world.device file.privateData buf ppos copy).2.1 } world ↔
      LeavesContents world key buf copy := by
  have rowEq : program.row file.privateData = program.rowOf key := by
    rw [sound.data key file opened, rowOf]
  have after := @held_write_failed program world.device file.privateData buf ppos copy failed
  rw [rowEq] at after
  have own := overwrite_eq_iff (program.held world.device (program.rowOf key))
    (copy.stored (clamped buf))
  rw [held_length, ← after] at own
  unfold LeavesContents
  rw [← own]
  constructor
  · intro same
    exact same.held _
  · intro same
    refine ⟨rfl, ?_⟩
    intro row
    by_cases mine : row = program.rowOf key
    · rw [mine]
      exact same
    · exact held_write_other _ _ _ _ (by rw [rowEq]; exact mine) (sound.small row)

theorem serve_whole_row (sound : program.Sound world) {file : File}
    (opened : world.files key = some file) (count : Nat)
    (enough : program.size world.device (program.rowOf key) ≤ count) :
    (program.serve world [(key, .file (.pread count 0 true))]).map (fun entry => entry.2.bytes) =
      [program.held world.device (program.rowOf key)] := by
  have rowEq : program.row file.privateData = program.rowOf key := by
    rw [sound.data key file opened, rowOf]
  have read := read_held (sound.small (program.row file.privateData)) count 0 true
    zero_representable
  rw [show (0 : Int) = ((0 : Nat) : Int) from rfl, read_held_copied, rowEq] at read
  have enough' : (program.held world.device (program.rowOf key)).length ≤ count := by
    rw [held_length]
    exact enough
  simp only [serve, syscall, CharDevice.syscall, opened, List.map_cons, List.map_nil]
  change [(program.driver.read world.device file.privateData count
    ((0 : Nat) : Int) true).bytes] = _
  rw [read, List.drop_zero, List.take_of_length_le enough']

theorem unseen_iff (sound : program.Sound world) (place : Option LOff) (buf : Bytes)
    (copy : UserCopy)
    (failed : (program.syscall world key (writeCall place buf copy)).2.ret = efault) :
    Unseen world key (writeCall place buf copy) ↔ LeavesContents world key buf copy := by
  obtain ⟨file, ppos, opened, faulty, changed⟩ := failed_write place buf copy failed
  have after := sound_syscall sound key (writeCall place buf copy)
  unfold Unseen
  rw [changed] at after ⊢
  rw [← failed_write_same_iff sound opened buf ppos faulty]
  constructor
  case mp =>
    intro unseen
    refine ⟨rfl, ?_⟩
    intro row
    by_cases mine : row = program.rowOf key
    case pos =>
      have sameSize : program.size
          (program.driver.write world.device file.privateData buf ppos copy).2.1 =
            program.size world.device := by
        rw [program.write_size, if_neg faulty]
      have served := unseen
        [(key, .file (.pread (program.size world.device (program.rowOf key)) 0 true))]
        (by simp [Reads])
      have shown := @serve_whole_row _ _ key after _ opened
        (program.size world.device (program.rowOf key)) (by simp [sameSize])
      rw [served, serve_whole_row sound opened _ (Nat.le_refl _)] at shown
      rw [mine]
      exact (List.cons.inj shown).1.symm
    case neg =>
      refine held_write_other _ _ _ _ ?_ (sound.small row)
      rw [sound.data key file opened]
      exact mine
  case mpr =>
    intro same later reads
    exact reads_same after sound same reads

/-- No reader ever sees anything of a write that returned `-EFAULT`. -/
def FailedWritesUnseen (program : BufferProgram) : Prop :=
  ∀ world, program.Reached world → ∀ key place buf copy,
    (program.syscall world key (writeCall place buf copy)).2.ret = efault →
      Unseen world key (writeCall place buf copy)

theorem failed_write_seen (reached : program.Reached world) {place : Option LOff} {buf : Bytes}
    {copy : UserCopy}
    (failed : (program.syscall world key (writeCall place buf copy)).2.ret = efault)
    (changes : ¬LeavesContents world key buf copy) : ¬FailedWritesUnseen program := by
  intro unseen
  exact changes ((unseen_iff reached.sound place buf copy failed).mp
    (unseen world reached key place buf copy failed))

end Program

instance decidableLeavesContents {program : BufferProgram}
    (world : World program.Device program.Key) (key : program.Key) (buf : Bytes)
    (copy : UserCopy) : Decidable (LeavesContents world key buf copy) :=
  inferInstanceAs (Decidable (_ <+: _))

/-- For each of the three drivers, in every reachable state and wherever the
copy of a write stopped: the failed write stays unseen exactly when what it
stored within the recorded size was there before. -/
theorem failed_write_unseen_iff (abi : Abi) (codes : Ex3.Codes) (source : Source)
    (world : World (program abi codes source).Device (program abi codes source).Key)
    (reached : (program abi codes source).Reached world) (key : (program abi codes source).Key)
    (place : Option LOff) (buf : Bytes) (copy : UserCopy)
    (failed : ((program abi codes source).syscall world key (writeCall place buf copy)).2.ret =
      efault) :
    Unseen world key (writeCall place buf copy) ↔ LeavesContents world key buf copy :=
  unseen_iff reached.sound place buf copy failed

def fiveBytes (source : Source) :
    List ((program .lp64 triggerCodes source).Key × DeviceCall) :=
  [(someKey _ _ source, .file .openFile),
    (someKey _ _ source, .file (.write (ascii "hello") .whole))]

def fiveHeld (source : Source) :
    World (program .lp64 triggerCodes source).Device (program .lp64 triggerCodes source).Key :=
  (program .lp64 triggerCodes source).after ((program .lp64 triggerCodes source).start fun _ => 0)
    (fiveBytes source)

theorem five_held_reached (source : Source) :
    (program .lp64 triggerCodes source).Reached (fiveHeld source) :=
  ⟨fun _ => 0, fiveBytes source, rfl⟩

/-- The rewrite repeats the two bytes that its copy still stores. -/
theorem failed_write_unseen_same_beginning :
    Unseen (fiveHeld .multiDevices) (someKey _ _ .multiDevices)
      (writeCall none (ascii "help") (.fault 2 false)) :=
  (failed_write_unseen_iff .lp64 triggerCodes .multiDevices (fiveHeld .multiDevices)
    (five_held_reached .multiDevices) (someKey _ _ .multiDevices) none (ascii "help")
    (.fault 2 false) (by decide)).mpr (by decide)

/-- A write of three bytes, whose copy stops after two, to a row that holds five. -/
theorem failed_rewrite_seen (source : Source) :
    ¬FailedWritesUnseen (program .lp64 triggerCodes source) := by
  have failed : ((program .lp64 triggerCodes source).syscall (fiveHeld source)
      (someKey _ _ source) (writeCall none (ascii "xyz") (.fault 2 false))).2.ret = efault := by
    cases source <;> decide
  have changes : ¬LeavesContents (fiveHeld source) (someKey _ _ source) (ascii "xyz")
      (.fault 2 false) := by
    cases source <;> decide
  exact failed_write_seen (five_held_reached source) failed changes

theorem failed_write_shows :
    ¬FailedWritesUnseen (program .lp64 triggerCodes .ex2) ∧
      ¬FailedWritesUnseen (program .lp64 triggerCodes .ex3) ∧
      ¬FailedWritesUnseen (program .lp64 triggerCodes .multiDevices) :=
  ⟨failed_rewrite_seen .ex2, failed_rewrite_seen .ex3, failed_rewrite_seen .multiDevices⟩

end LinuxFff.FailedWrite
