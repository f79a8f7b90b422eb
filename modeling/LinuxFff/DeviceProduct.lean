import LinuxFff.CharDevice

/-!
# `multi_devices.c` is a product of `ex2.c` devices

Calls through one minor see one row of the two-dimensional buffer, one size and
the offsets of their own files. The projection of a run to a minor is the run
of `ex2.c` on the calls of that minor, whatever the other calls are and
whatever the memory behind the buffers holds.
-/

namespace LinuxFff.DeviceProduct

open LinuxFff.CString LinuxFff.KernelMemory LinuxFff.SizeArith LinuxFff.BufferDevice
open LinuxFff.CharDevice

set_option autoImplicit false

structure Handle where
  minor : Fin MultiDevices.numDevices
  file : Nat
  deriving DecidableEq

/-- The module just loaded: all rows and sizes are zero, no file is open. -/
def multiStart (outside : Memory) : World MultiDevices.Device Handle where
  device :=
    { memory := fun address =>
        if address < MultiDevices.numDevices * BufferDevice.bufSize then 0 else outside address
      bufSize := fun _ => 0 }
  files := fun _ => none

def ex2Start (outside : Memory) : World Ex2.Device Nat where
  device :=
    { memory := fun address =>
        if address < BufferDevice.bufSize then 0 else outside address
      bufferSize := 0 }
  files := fun _ => none

def serveMulti (abi : Abi) :
    World MultiDevices.Device Handle → List (Handle × Call) →
      List ((Handle × Call) × Observation) :=
  serve (multiDriver abi) fun handle => handle.minor

def serveEx2 (abi : Abi) :
    World Ex2.Device Nat → List (Nat × Call) → List ((Nat × Call) × Observation) :=
  serve (ex2Driver abi) fun _ => 0

def callsThrough (minor : Fin MultiDevices.numDevices) (calls : List (Handle × Call)) :
    List (Nat × Call) :=
  (calls.filter fun entry => entry.1.minor = minor).map fun entry => (entry.1.file, entry.2)

def observedThrough (minor : Fin MultiDevices.numDevices)
    (served : List ((Handle × Call) × Observation)) : List Observation :=
  (served.filter fun entry => entry.1.1.minor = minor).map Prod.snd

/-- A `loff_t` value that is not negative. -/
def Representable (ppos : Int) : Prop := 0 ≤ ppos ∧ ppos < 2 ^ 63

/-- One row of the array is the buffer of a single device. -/
structure RowAgrees (minor : Nat) (multi : MultiDevices.Device) (single : Ex2.Device) :
    Prop where
  size : multi.bufSize minor = single.bufferSize
  bounded : single.bufferSize ≤ BufferDevice.bufSize
  bytes : ∀ index, index < BufferDevice.bufSize →
    multi.memory (MultiDevices.row minor + index) = single.memory (0 + index)

theorem read_eq_ex2 (abi : Abi) {minor : Nat} {multi : MultiDevices.Device}
    {single : Ex2.Device} (agrees : RowAgrees minor multi single) (count : Nat) (ppos : Int)
    (copied : Bool) (representable : Representable ppos) :
    MultiDevices.myRead abi multi minor count ppos copied =
      Ex2.myRead abi single count ppos copied := by
  have bounded := agrees.bounded
  unfold MultiDevices.myRead Ex2.myRead bufferRead
  rw [agrees.size, read_length_single abi count _ ppos representable.1 representable.2
    (by unfold BufferDevice.bufSize at bounded; omega)]
  by_cases past : (single.bufferSize : Int) ≤ ppos
  · simp only [if_pos past]
  · simp only [if_neg past]
    have sameBytes : multi.memory.load (MultiDevices.row minor + ppos.toNat)
          (min count (single.bufferSize - ppos.toNat)) =
        single.memory.load (0 + ppos.toNat) (min count (single.bufferSize - ppos.toNat)) := by
      apply load_congr
      intro index inside
      rw [Nat.add_assoc, Nat.add_assoc]
      exact agrees.bytes _ (by omega)
    rw [sameBytes]

theorem ex2_read_offset (abi : Abi) {single : Ex2.Device}
    (bounded : single.bufferSize ≤ BufferDevice.bufSize) (count : Nat) (ppos : Int)
    (copied : Bool) (representable : Representable ppos) :
    Representable (Ex2.myRead abi single count ppos copied).ppos := by
  unfold Ex2.myRead bufferRead
  rw [read_length_single abi count _ ppos representable.1 representable.2
    (by unfold BufferDevice.bufSize at bounded; omega)]
  unfold BufferDevice.bufSize at bounded
  by_cases past : (single.bufferSize : Int) ≤ ppos
  · simp only [if_pos past]
    exact representable
  · simp only [if_neg past]
    cases copied with
    | false => exact representable
    | true =>
        unfold Representable at *
        simp only [if_true]
        omega

theorem ex2_write (single : Ex2.Device) (buf : Bytes) (ppos : Int) (copy : UserCopy) :
    Ex2.myWrite single buf ppos copy =
      if copy = .whole then
        (((clamped buf).length : Int),
          (⟨single.memory.store 0 (copy.stored (clamped buf)), (clamped buf).length⟩ :
            Ex2.Device), (0 : Int))
      else
        (efault, ⟨single.memory.store 0 (copy.stored (clamped buf)), single.bufferSize⟩, ppos) := by
  cases copy <;> rfl

theorem multi_write (multi : MultiDevices.Device) (minor : Nat) (buf : Bytes) (ppos : Int)
    (copy : UserCopy) :
    MultiDevices.myWrite multi minor buf ppos copy =
      if copy = .whole then
        (((clamped buf).length : Int),
          (⟨multi.memory.store (MultiDevices.row minor) (copy.stored (clamped buf)),
            Function.update multi.bufSize minor (clamped buf).length⟩ :
            MultiDevices.Device), (0 : Int))
      else
        (efault, ⟨multi.memory.store (MultiDevices.row minor) (copy.stored (clamped buf)),
          multi.bufSize⟩, ppos) := by
  cases copy <;> rfl

theorem write_agrees {minor : Nat} {multi : MultiDevices.Device} {single : Ex2.Device}
    (agrees : RowAgrees minor multi single) (buf : Bytes) (ppos : Int) (copy : UserCopy) :
    (MultiDevices.myWrite multi minor buf ppos copy).1 = (Ex2.myWrite single buf ppos copy).1 ∧
      (MultiDevices.myWrite multi minor buf ppos copy).2.2 =
        (Ex2.myWrite single buf ppos copy).2.2 ∧
      RowAgrees minor (MultiDevices.myWrite multi minor buf ppos copy).2.1
        (Ex2.myWrite single buf ppos copy).2.1 := by
  have shifted : ∀ index, index < BufferDevice.bufSize →
      multi.memory.store (MultiDevices.row minor) (copy.stored (clamped buf))
          (MultiDevices.row minor + index) =
        single.memory.store 0 (copy.stored (clamped buf)) (0 + index) := by
    intro index inside
    exact store_shifted _ _ _ _ _ _ (agrees.bytes index inside)
  rw [multi_write, ex2_write]
  split_ifs with whole
  · refine ⟨rfl, rfl, ?_, clamped_length_le buf, shifted⟩
    simp
  · exact ⟨rfl, rfl, agrees.size, agrees.bounded, shifted⟩

theorem write_elsewhere {minor other : Nat} {multi : MultiDevices.Device} {single : Ex2.Device}
    (agrees : RowAgrees minor multi single) (apart : other ≠ minor) (buf : Bytes) (ppos : Int)
    (copy : UserCopy) :
    RowAgrees minor (MultiDevices.myWrite multi other buf ppos copy).2.1 single := by
  have untouched : ∀ index, index < BufferDevice.bufSize →
      multi.memory.store (MultiDevices.row other) (copy.stored (clamped buf))
          (MultiDevices.row minor + index) =
        single.memory (0 + index) := by
    intro index inside
    have short : (copy.stored (clamped buf)).length ≤ BufferDevice.bufSize :=
      (stored_length_le copy _).trans (clamped_length_le buf)
    rw [store_outside]
    · exact agrees.bytes index inside
    · unfold MultiDevices.row BufferDevice.bufSize at *
      omega
  rw [multi_write]
  split_ifs with whole
  · refine ⟨?_, agrees.bounded, untouched⟩
    simpa [Ne.symm apart] using agrees.size
  · exact ⟨agrees.size, agrees.bounded, untouched⟩

/-- The simulation relation between the product and the device of one minor. -/
structure Projects (minor : Fin MultiDevices.numDevices)
    (multi : World MultiDevices.Device Handle) (single : World Ex2.Device Nat) : Prop where
  device : RowAgrees minor multi.device single.device
  files : ∀ file, (multi.files ⟨minor, file⟩).map File.ppos = (single.files file).map File.ppos
  data : ∀ handle file, multi.files handle = some file → file.privateData = handle.minor
  range : ∀ file opened, single.files file = some opened → Representable opened.ppos

theorem projects_start (minor : Fin MultiDevices.numDevices) (outside beyond : Memory) :
    Projects minor (multiStart outside) (ex2Start beyond) where
  device := by
    refine ⟨rfl, Nat.zero_le _, ?_⟩
    intro index inside
    have isMinor := minor.isLt
    have inArray : MultiDevices.row minor + index <
        MultiDevices.numDevices * BufferDevice.bufSize := by
      unfold MultiDevices.row MultiDevices.numDevices BufferDevice.bufSize at *
      omega
    simp only [multiStart, ex2Start, if_pos inArray, Nat.zero_add, if_pos inside]
  files := fun _ => rfl
  data := fun _ _ impossible => by simp [multiStart] at impossible
  range := fun _ _ impossible => by simp [ex2Start] at impossible

theorem projects_update {minor : Fin MultiDevices.numDevices}
    {multi : World MultiDevices.Device Handle} {single : World Ex2.Device Nat}
    (holds : Projects minor multi single) {multiDevice : MultiDevices.Device}
    {singleDevice : Ex2.Device} (agrees : RowAgrees minor multiDevice singleDevice)
    (file data : Nat) (ppos : Int) (representable : Representable ppos) :
    Projects minor
      (({ multi with device := multiDevice } : World _ _).setFile ⟨minor, file⟩ ⟨minor, ppos⟩)
      (({ single with device := singleDevice } : World _ _).setFile file ⟨data, ppos⟩) where
  device := agrees
  files := by
    intro other
    unfold World.setFile
    by_cases same : other = file
    · simp [same]
    · simpa [same] using holds.files other
  data := by
    intro handle opened lookup
    unfold World.setFile at lookup
    by_cases same : handle = ⟨minor, file⟩
    · have openedEq : (⟨minor, ppos⟩ : File) = opened := by simpa [same] using lookup
      rw [← openedEq, same]
    · exact holds.data handle opened (by simpa [same] using lookup)
  range := by
    intro other opened lookup
    unfold World.setFile at lookup
    by_cases same : other = file
    · have openedEq : (⟨data, ppos⟩ : File) = opened := by simpa [same] using lookup
      rw [← openedEq]
      exact representable
    · exact holds.range other opened (by simpa [same] using lookup)

theorem projects_lookup {minor : Fin MultiDevices.numDevices}
    {multi : World MultiDevices.Device Handle} {single : World Ex2.Device Nat}
    (holds : Projects minor multi single) (file : Nat) :
    (multi.files ⟨minor, file⟩ = none ∧ single.files file = none) ∨
      ∃ ppos data, multi.files ⟨minor, file⟩ = some ⟨minor, ppos⟩ ∧
        single.files file = some ⟨data, ppos⟩ ∧ Representable ppos := by
  have same := holds.files file
  cases multiFile : multi.files ⟨minor, file⟩ with
  | none =>
      left
      rw [multiFile] at same
      exact ⟨rfl, by simpa using same.symm⟩
  | some opened =>
      right
      rcases opened with ⟨privateData, ppos⟩
      have dataEq := holds.data _ _ multiFile
      change privateData = minor at dataEq
      rw [multiFile] at same
      cases singleFile : single.files file with
      | none => simp [singleFile] at same
      | some other =>
          rcases other with ⟨data, offset⟩
          have offsetEq : ppos = offset := by simpa [singleFile] using same
          have range := holds.range file _ singleFile
          subst offsetEq dataEq
          exact ⟨ppos, data, rfl, rfl, range⟩

theorem stored_offset_representable {ret ppos previous : Int} (new : Representable ppos)
    (old : Representable previous) : Representable (storedOffset ret ppos previous) := by
  unfold storedOffset
  split_ifs
  · exact new
  · exact old

theorem zero_representable : Representable 0 := ⟨Int.le_refl 0, by decide⟩

theorem ex2_write_offset (single : Ex2.Device) (buf : Bytes) (ppos : Int) (copy : UserCopy)
    (representable : Representable ppos) :
    Representable (Ex2.myWrite single buf ppos copy).2.2 := by
  rw [ex2_write]
  split_ifs
  · exact zero_representable
  · exact representable

/-- A call through the minor: both sides answer alike and stay related. -/
theorem syscall_same_minor (abi : Abi) {minor : Fin MultiDevices.numDevices}
    {multi : World MultiDevices.Device Handle} {single : World Ex2.Device Nat}
    (holds : Projects minor multi single) (file : Nat) (call : Call) :
    (syscall (multiDriver abi) minor multi ⟨minor, file⟩ call).2 =
        (syscall (ex2Driver abi) 0 single file call).2 ∧
      Projects minor (syscall (multiDriver abi) minor multi ⟨minor, file⟩ call).1
        (syscall (ex2Driver abi) 0 single file call).1 := by
  rcases projects_lookup holds file with ⟨multiClosed, singleClosed⟩ |
    ⟨ppos, data, multiOpen, singleOpen, representable⟩
  · cases call with
    | openFile => exact ⟨rfl, projects_update holds holds.device file 0 0 zero_representable⟩
    | read count copied => simpa [syscall, multiClosed, singleClosed] using holds
    | write buf copy => simpa [syscall, multiClosed, singleClosed] using holds
    | pread count offset copied => simpa [syscall, multiClosed, singleClosed] using holds
    | pwrite buf offset copy => simpa [syscall, multiClosed, singleClosed] using holds
  · cases call with
    | openFile => exact ⟨rfl, projects_update holds holds.device file 0 0 zero_representable⟩
    | read count copied =>
        have sameRead := read_eq_ex2 abi holds.device count ppos copied representable
        have range := ex2_read_offset abi holds.device.bounded count ppos copied
          representable
        simp only [syscall, multiOpen, singleOpen, multiDriver, ex2Driver, sameRead]
        exact ⟨trivial, projects_update holds holds.device file data _
          (stored_offset_representable range representable)⟩
    | write buf copy =>
        obtain ⟨sameRet, samePos, agrees⟩ := write_agrees holds.device buf ppos copy
        have range := ex2_write_offset single.device buf ppos copy representable
        simp only [syscall, multiOpen, singleOpen, multiDriver, ex2Driver, sameRet, samePos]
        exact ⟨trivial, projects_update holds agrees file data _
          (stored_offset_representable range representable)⟩
    | pread count offset copied =>
        have sameRead := read_eq_ex2 abi holds.device count offset.val copied
          ⟨by omega, by omega⟩
        simp only [syscall, multiOpen, singleOpen, multiDriver, ex2Driver, sameRead]
        exact ⟨trivial, holds⟩
    | pwrite buf offset copy =>
        obtain ⟨sameRet, _, agrees⟩ := write_agrees holds.device buf offset.val copy
        simp only [syscall, multiOpen, singleOpen, multiDriver, ex2Driver, sameRet]
        exact ⟨trivial, agrees, holds.files, holds.data, holds.range⟩

theorem projects_other_file {minor : Fin MultiDevices.numDevices}
    {multi : World MultiDevices.Device Handle} {single : World Ex2.Device Nat}
    (holds : Projects minor multi single) {device : MultiDevices.Device}
    (agrees : RowAgrees minor device single.device) (handle : Handle)
    (apart : handle.minor ≠ minor) (ppos : Int) :
    Projects minor
      (({ multi with device } : World _ _).setFile handle ⟨handle.minor, ppos⟩) single where
  device := agrees
  files := by
    intro file
    have different : (⟨minor, file⟩ : Handle) ≠ handle := by
      intro same
      exact apart (by rw [← same])
    simpa [World.setFile, different] using holds.files file
  data := by
    intro other opened lookup
    unfold World.setFile at lookup
    by_cases same : other = handle
    · have openedEq : (⟨handle.minor, ppos⟩ : File) = opened := by simpa [same] using lookup
      rw [← openedEq, same]
    · exact holds.data other opened (by simpa [same] using lookup)
  range := holds.range

/-- A call through another minor leaves the projection alone. -/
theorem syscall_other_minor (abi : Abi) {minor : Fin MultiDevices.numDevices}
    {multi : World MultiDevices.Device Handle} {single : World Ex2.Device Nat}
    (holds : Projects minor multi single) (handle : Handle) (apart : handle.minor ≠ minor)
    (call : Call) :
    Projects minor (syscall (multiDriver abi) handle.minor multi handle call).1 single := by
  have apartVal : handle.minor.val ≠ minor.val := fun same => apart (Fin.ext same)
  cases opened : multi.files handle with
  | none =>
      cases call with
      | openFile => exact projects_other_file holds holds.device handle apart 0
      | read count copied => simpa [syscall, opened] using holds
      | write buf copy => simpa [syscall, opened] using holds
      | pread count offset copied => simpa [syscall, opened] using holds
      | pwrite buf offset copy => simpa [syscall, opened] using holds
  | some file =>
      rcases file with ⟨privateData, ppos⟩
      have dataEq : privateData = handle.minor := holds.data handle _ opened
      subst dataEq
      cases call with
      | openFile => exact projects_other_file holds holds.device handle apart 0
      | read count copied =>
          simp only [syscall, opened]
          exact projects_other_file holds holds.device handle apart _
      | write buf copy =>
          simp only [syscall, opened, multiDriver]
          exact projects_other_file holds (write_elsewhere holds.device apartVal buf _ copy)
            handle apart _
      | pread count offset copied => simpa [syscall, opened] using holds
      | pwrite buf offset copy =>
          simp only [syscall, opened, multiDriver]
          exact ⟨write_elsewhere holds.device apartVal buf _ copy, holds.files, holds.data,
            holds.range⟩

/-- The run lemma, from any pair of related states. -/
theorem serve_projects (abi : Abi) (minor : Fin MultiDevices.numDevices)
    (calls : List (Handle × Call)) {multi : World MultiDevices.Device Handle}
    {single : World Ex2.Device Nat} (holds : Projects minor multi single) :
    observedThrough minor (serveMulti abi multi calls) =
      (serveEx2 abi single (callsThrough minor calls)).map Prod.snd := by
  induction calls generalizing multi single with
  | nil => rfl
  | cons entry calls ih =>
      rcases entry with ⟨⟨owner, file⟩, call⟩
      unfold serveMulti serveEx2 observedThrough callsThrough at *
      by_cases same : owner = minor
      · subst same
        obtain ⟨sameAnswer, after⟩ := syscall_same_minor abi holds file call
        have tail := ih after
        simp only [serve, decide_true, List.filter_cons_of_pos, List.map_cons, sameAnswer]
        rw [tail]
      · have after := syscall_other_minor abi holds ⟨owner, file⟩ same call
        have tail := ih after
        simp only [serve, same, decide_false, Bool.false_eq_true, not_false_eq_true,
          List.filter_cons_of_neg]
        exact tail

/-- For either width of `size_t` and whatever lies behind the buffers: what the
calls through a minor return is what `ex2.c` returns for these calls alone, so
it does not depend on the calls through other minors. -/
theorem multi_devices_is_product (abi : Abi) (outside beyond : Memory)
    (minor : Fin MultiDevices.numDevices) (calls : List (Handle × Call)) :
    observedThrough minor (serveMulti abi (multiStart outside) calls) =
        (serveEx2 abi (ex2Start beyond) (callsThrough minor calls)).map Prod.snd ∧
      ∀ others, callsThrough minor others = callsThrough minor calls →
        observedThrough minor (serveMulti abi (multiStart outside) others) =
          observedThrough minor (serveMulti abi (multiStart outside) calls) := by
  have product := fun sequence =>
    serve_projects abi minor sequence (projects_start minor outside beyond)
  refine ⟨product calls, ?_⟩
  intro others same
  rw [product others, product calls, same]

end LinuxFff.DeviceProduct
