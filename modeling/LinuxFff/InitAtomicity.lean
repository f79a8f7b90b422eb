import LinuxFff.ResourceLedger
import Mathlib.Data.List.Nodup
import Mathlib.Data.List.Range

/-!
# Loading and unloading `multi_devices.c`

`my_init` acquires a device-number region, a class, the cdev and one device for
each minor number, and undoes what it has done when a call fails. The pointer
members of `mydev` are addressed by their distance from `devices[0]`: `class`
is the member directly before the array. `NUM_DEVICES` is a parameter.
-/

namespace LinuxFff.InitAtomicity

open LinuxFff.ResourceLedger

set_option autoImplicit false

abbrev Pointer := BitVec 64

/-- `IS_ERR`, with `MAX_ERRNO` 4095. -/
def isErr (pointer : Pointer) : Bool := decide (-4095 ≤ pointer.toInt ∧ pointer.toInt < 0)

/-- `PTR_ERR`, returned by a function of type `int`. -/
def ptrErr (pointer : Pointer) : Int := (pointer.truncate 32).toInt

inductive Object where
  | region
  | deviceClass
  | cdev
  | device (minor : Nat)
  deriving DecidableEq

/-- What the kernel calls of one run of `my_init` return. -/
structure Kernel where
  allocChrdevRegion : Int
  classCreate : Pointer
  cdevAdd : Int
  deviceCreate : Nat → Pointer

structure MyDev where
  cells : Int → Pointer
  accesses : List Int
  log : List (Use Object)

def loaded (cells : Int → Pointer) : MyDev := { cells, accesses := [], log := [] }

def classCell : Int := -1

def MyDev.acquire (mydev : MyDev) (object : Object) : MyDev :=
  { mydev with log := mydev.log ++ [.acquire object] }

def MyDev.release (mydev : MyDev) (object : Object) : MyDev :=
  { mydev with log := mydev.log ++ [.release object] }

def MyDev.obtain (mydev : MyDev) (object : Object) (pointer : Pointer) : MyDev :=
  if isErr pointer then mydev else mydev.acquire object

def MyDev.storeClass (mydev : MyDev) (pointer : Pointer) : MyDev :=
  { mydev with cells := Function.update mydev.cells classCell pointer }

def MyDev.storeDevice (mydev : MyDev) (index : Int) (pointer : Pointer) : MyDev :=
  { mydev with
    cells := Function.update mydev.cells index pointer
    accesses := mydev.accesses ++ [index] }

def MyDev.readDevice (mydev : MyDev) (index : Int) : Pointer × MyDev :=
  (mydev.cells index, { mydev with accesses := mydev.accesses ++ [index] })

/-- `while (--i >= 0) device_destroy (...)`, with the value that `i` is left with. -/
def destroyBefore : Nat → MyDev → Int × MyDev
  | 0, mydev => (-1, mydev)
  | i + 1, mydev => destroyBefore i (mydev.release (.device i))

def MyDev.releaseRest (mydev : MyDev) : MyDev :=
  ((mydev.release .deviceClass).release .cdev).release .region

/-- The branch for a failed `device_create` at index `i`. -/
def cleanUp (i : Nat) (mydev : MyDev) : Int × MyDev :=
  let destroyed := destroyBefore i mydev
  let result := destroyed.2.releaseRest.readDevice destroyed.1
  (ptrErr result.1, result.2)

/-- The creation loop from index `i` on. -/
def createDevices (kernel : Kernel) : Nat → Nat → MyDev → Int × MyDev
  | _, 0, mydev => (0, mydev)
  | i, remaining + 1, mydev =>
      let pointer := kernel.deviceCreate i
      let tested := ((mydev.obtain (.device i) pointer).storeDevice i pointer).readDevice i
      if isErr tested.1 then cleanUp i tested.2
      else createDevices kernel (i + 1) remaining tested.2

def myInit (numDevices : Nat) (kernel : Kernel) (mydev : MyDev) : Int × MyDev :=
  if kernel.allocChrdevRegion < 0 then (kernel.allocChrdevRegion, mydev)
  else
    let mydev := mydev.acquire .region
    let mydev := (mydev.obtain .deviceClass kernel.classCreate).storeClass kernel.classCreate
    if isErr (mydev.cells classCell) then
      (ptrErr (mydev.cells classCell), mydev.release .region)
    else if kernel.cdevAdd < 0 then
      (kernel.cdevAdd, (mydev.release .deviceClass).release .region)
    else createDevices kernel 0 numDevices (mydev.acquire .cdev)

def destroyFrom : Nat → Nat → MyDev → MyDev
  | _, 0, mydev => mydev
  | i, remaining + 1, mydev => destroyFrom (i + 1) remaining (mydev.release (.device i))

def myExit (numDevices : Nat) (mydev : MyDev) : MyDev :=
  (destroyFrom 0 numDevices mydev).releaseRest

/-- The error of the first call that fails, in the order of the calls. -/
def Kernel.firstFailure (kernel : Kernel) (numDevices : Nat) : Option Int :=
  if kernel.allocChrdevRegion < 0 then some kernel.allocChrdevRegion
  else if isErr kernel.classCreate then some kernel.classCreate.toInt
  else if kernel.cdevAdd < 0 then some kernel.cdevAdd
  else ((List.range numDevices).find? fun i => isErr (kernel.deviceCreate i)).map
    fun i => (kernel.deviceCreate i).toInt

/-- `my_init` either does everything, and `my_exit` undoes it, or reports the
first failure and has undone what it did; it stays inside `devices`. -/
structure Atomic (numDevices : Nat) (kernel : Kernel) (cells : Int → Pointer) : Prop where
  zero : (myInit numDevices kernel (loaded cells)).1 = 0 ↔
    kernel.firstFailure numDevices = none
  exits : kernel.firstFailure numDevices = none →
    ReleasedOnce () (myExit numDevices (myInit numDevices kernel (loaded cells)).2).log
  errno : ∀ error, kernel.firstFailure numDevices = some error →
    (myInit numDevices kernel (loaded cells)).1 = error
  undone : ∀ error, kernel.firstFailure numDevices = some error →
    ReleasedOnce () (myInit numDevices kernel (loaded cells)).2.log
  bounds : ∀ index ∈ (myInit numDevices kernel (loaded cells)).2.accesses,
    0 ≤ index ∧ index < numDevices

/-- The three calls before the loop succeed and some `device_create` fails. -/
structure DeviceFails (numDevices : Nat) (kernel : Kernel) : Prop where
  region : 0 ≤ kernel.allocChrdevRegion
  deviceClass : isErr kernel.classCreate = false
  cdev : 0 ≤ kernel.cdevAdd
  device : ∃ i < numDevices, isErr (kernel.deviceCreate i) = true

theorem ptr_err_of_is_err {pointer : Pointer} (failed : isErr pointer = true) :
    ptrErr pointer = pointer.toInt ∧ pointer.toInt < 0 := by
  obtain ⟨low, negative⟩ := of_decide_eq_true failed
  refine ⟨?_, negative⟩
  unfold ptrErr
  rw [BitVec.toInt_setWidth]
  have whole := BitVec.toInt_eq_toNat_bmod pointer
  have small := pointer.isLt
  simp only [Int.bmod_def] at whole ⊢
  omega

theorem destroy_before (i : Nat) (mydev : MyDev) :
    destroyBefore i mydev = (-1, { mydev with
      log := mydev.log ++ (((List.range i).reverse).map Object.device).map Use.release }) := by
  induction i generalizing mydev with
  | zero => simp [destroyBefore]
  | succ i ih => simp [destroyBefore, ih, MyDev.release, List.range_succ]

theorem destroy_from (i remaining : Nat) (mydev : MyDev) :
    (destroyFrom i remaining mydev).log =
      mydev.log ++ ((List.range' i remaining).map Object.device).map Use.release := by
  induction remaining generalizing i mydev with
  | zero => simp [destroyFrom]
  | succ remaining ih => simp [destroyFrom, ih, MyDev.release, List.range'_succ]

def created (kernel : Kernel) (i : Nat) (mydev : MyDev) : MyDev :=
  (((mydev.acquire (.device i)).storeDevice i (kernel.deviceCreate i)).readDevice i).2

def createdAll (kernel : Kernel) : Nat → Nat → MyDev → MyDev
  | _, 0, mydev => mydev
  | i, count + 1, mydev => createdAll kernel (i + 1) count (created kernel i mydev)

theorem create_devices_step {kernel : Kernel} {i : Nat} (remaining : Nat) (mydev : MyDev)
    (succeeds : isErr (kernel.deviceCreate i) = false) :
    createDevices kernel i (remaining + 1) mydev =
      createDevices kernel (i + 1) remaining (created kernel i mydev) := by
  simp [createDevices, created, MyDev.obtain, MyDev.readDevice, MyDev.storeDevice, succeeds]

theorem create_devices_fails {kernel : Kernel} {i : Nat} (remaining : Nat) (mydev : MyDev)
    (fails : isErr (kernel.deviceCreate i) = true) :
    createDevices kernel i (remaining + 1) mydev =
      cleanUp i ((mydev.storeDevice i (kernel.deviceCreate i)).readDevice i).2 := by
  simp [createDevices, MyDev.obtain, MyDev.readDevice, MyDev.storeDevice, fails]

theorem create_devices_run (kernel : Kernel) (i count remaining : Nat) (mydev : MyDev)
    (succeed : ∀ j, i ≤ j → j < i + count → isErr (kernel.deviceCreate j) = false) :
    createDevices kernel i (count + remaining) mydev =
      createDevices kernel (i + count) remaining (createdAll kernel i count mydev) := by
  induction count generalizing i mydev with
  | zero => simp [createdAll]
  | succ count ih =>
      have here := succeed i (le_refl i) (by omega)
      rw [show count + 1 + remaining = count + remaining + 1 by omega,
        create_devices_step _ _ here, ih (i + 1) _ fun j low high => succeed j (by omega) (by omega)]
      simp only [createdAll, show i + 1 + count = i + (count + 1) by omega]

theorem created_all_log (kernel : Kernel) (i count : Nat) (mydev : MyDev) :
    (createdAll kernel i count mydev).log =
      mydev.log ++ ((List.range' i count).map Object.device).map Use.acquire := by
  induction count generalizing i mydev with
  | zero => simp [createdAll]
  | succ count ih =>
      simp [createdAll, ih, created, MyDev.readDevice, MyDev.storeDevice, MyDev.acquire,
        List.range'_succ]

theorem created_all_accesses (kernel : Kernel) (i count : Nat) (mydev : MyDev) (index : Int)
    (accessed : index ∈ (createdAll kernel i count mydev).accesses) :
    index ∈ mydev.accesses ∨ (i : Int) ≤ index ∧ index < i + count := by
  induction count generalizing i mydev with
  | zero => exact Or.inl accessed
  | succ count ih =>
      rcases ih (i + 1) (created kernel i mydev) accessed with old | ⟨low, high⟩
      · simp only [created, MyDev.readDevice, MyDev.storeDevice, MyDev.acquire,
          List.append_assoc, List.mem_append, List.mem_singleton, or_self] at old
        rcases old with before | here
        · exact Or.inl before
        · exact Or.inr ⟨by omega, by omega⟩
      · exact Or.inr ⟨by omega, by omega⟩

/-- The cell before the array is not written by the loop. -/
theorem created_all_class (kernel : Kernel) (i count : Nat) (mydev : MyDev) :
    (createdAll kernel i count mydev).cells classCell = mydev.cells classCell := by
  induction count generalizing i mydev with
  | zero => rfl
  | succ count ih =>
      have apart : classCell ≠ (i : Int) := by
        unfold classCell
        omega
      simp [createdAll, ih, created, MyDev.readDevice, MyDev.storeDevice, MyDev.acquire, apart]

/-- The state in which the loop starts when the three calls before it succeed. -/
def opened (kernel : Kernel) (cells : Int → Pointer) : MyDev :=
  (((((loaded cells).acquire .region).acquire .deviceClass).storeClass
    kernel.classCreate).acquire .cdev)

def objectsBefore (count : Nat) : List Object :=
  [.region, .deviceClass, .cdev] ++ (List.range count).map .device

def lastReleased : List Object := [.deviceClass, .cdev, .region]

theorem release_rest_log (mydev : MyDev) :
    mydev.releaseRest.log = mydev.log ++ lastReleased.map Use.release := by
  simp [MyDev.releaseRest, MyDev.release, lastReleased]

theorem objects_before_nodup (count : Nat) : (objectsBefore count).Nodup := by
  have devices : ((List.range count).map Object.device).Nodup := by
    apply List.Nodup.map _ List.nodup_range
    intro i j same
    exact Object.device.inj same
  simp [objectsBefore, devices]

section Outcomes

variable {numDevices : Nat} {kernel : Kernel} {cells : Int → Pointer}

theorem my_init_reaches_loop (region : 0 ≤ kernel.allocChrdevRegion)
    (deviceClass : isErr kernel.classCreate = false) (cdev : 0 ≤ kernel.cdevAdd) :
    myInit numDevices kernel (loaded cells) =
      createDevices kernel 0 numDevices (opened kernel cells) := by
  simp [myInit, opened, MyDev.obtain, MyDev.storeClass, MyDev.acquire, Int.not_lt.mpr region,
    deviceClass, Int.not_lt.mpr cdev]

theorem created_opened_log (count : Nat) :
    (createdAll kernel 0 count (opened kernel cells)).log =
      (objectsBefore count).map Use.acquire := by
  rw [created_all_log, ← List.range_eq_range']
  simp [opened, loaded, MyDev.acquire, MyDev.storeClass, objectsBefore]

theorem my_init_succeeds (region : 0 ≤ kernel.allocChrdevRegion)
    (deviceClass : isErr kernel.classCreate = false) (cdev : 0 ≤ kernel.cdevAdd)
    (devices : ∀ i < numDevices, isErr (kernel.deviceCreate i) = false) :
    myInit numDevices kernel (loaded cells) =
      (0, createdAll kernel 0 numDevices (opened kernel cells)) := by
  have whole := create_devices_run kernel 0 numDevices 0 (opened kernel cells)
    fun j _ high => devices j (by omega)
  rw [my_init_reaches_loop region deviceClass cdev]
  exact whole

theorem exit_releases_all :
    ReleasedOnce () (myExit numDevices
      (createdAll kernel 0 numDevices (opened kernel cells))).log := by
  have shape : (myExit numDevices (createdAll kernel 0 numDevices (opened kernel cells))).log =
      (objectsBefore numDevices).map Use.acquire ++
        ((List.range numDevices).map Object.device ++ lastReleased).map Use.release := by
    rw [myExit, release_rest_log, destroy_from, created_opened_log, ← List.range_eq_range',
      List.map_append, List.append_assoc]
  have sameObjects : ((List.range numDevices).map Object.device ++ lastReleased).Perm
      (objectsBefore numDevices) := by
    apply List.perm_append_comm.trans
    apply List.Perm.append_right
    decide
  rw [shape]
  exact released_once_of_perm sameObjects (objects_before_nodup numDevices)

section DeviceFailure

variable {i : Nat}

theorem my_init_fails_at (region : 0 ≤ kernel.allocChrdevRegion)
    (deviceClass : isErr kernel.classCreate = false) (cdev : 0 ≤ kernel.cdevAdd)
    (within : i < numDevices) (fails : isErr (kernel.deviceCreate i) = true)
    (earlier : ∀ j < i, isErr (kernel.deviceCreate j) = false) :
    myInit numDevices kernel (loaded cells) =
      cleanUp i (((createdAll kernel 0 i (opened kernel cells)).storeDevice i
        (kernel.deviceCreate i)).readDevice i).2 := by
  have iterations := create_devices_run kernel 0 i (numDevices - i - 1 + 1)
    (opened kernel cells) fun j _ high => earlier j (by omega)
  rw [show i + (numDevices - i - 1 + 1) = numDevices by omega, Nat.zero_add,
    create_devices_fails _ _ fails] at iterations
  rw [my_init_reaches_loop region deviceClass cdev]
  exact iterations

theorem clean_up_releases_all (pointer : Pointer) :
    ReleasedOnce () (cleanUp i (((createdAll kernel 0 i (opened kernel cells)).storeDevice i
      pointer).readDevice i).2).2.log := by
  have shape : (cleanUp i (((createdAll kernel 0 i (opened kernel cells)).storeDevice i
        pointer).readDevice i).2).2.log =
      (objectsBefore i).map Use.acquire ++
        ((List.range i).reverse.map Object.device ++ lastReleased).map Use.release := by
    simp only [cleanUp, destroy_before, release_rest_log, MyDev.readDevice, MyDev.storeDevice,
      created_opened_log, List.append_assoc, List.map_append]
  have sameObjects : ((List.range i).reverse.map Object.device ++ lastReleased).Perm
      (objectsBefore i) := by
    apply List.perm_append_comm.trans
    apply List.Perm.append (by decide)
    exact (List.reverse_perm _).map _
  rw [shape]
  exact released_once_of_perm sameObjects (objects_before_nodup i)

/-- The counter is down at -1 when the clean-up makes its return value. -/
theorem clean_up_returns_class (pointer : Pointer) :
    (cleanUp i (((createdAll kernel 0 i (opened kernel cells)).storeDevice i
      pointer).readDevice i).2).1 = ptrErr kernel.classCreate := by
  have apart : classCell ≠ (i : Int) := by
    unfold classCell
    omega
  have stored : (createdAll kernel 0 i (opened kernel cells)).cells classCell =
      kernel.classCreate := by
    rw [created_all_class]
    simp [opened, MyDev.storeClass, MyDev.acquire]
  have read : (cleanUp i (((createdAll kernel 0 i (opened kernel cells)).storeDevice i
      pointer).readDevice i).2).1 =
      ptrErr (Function.update (createdAll kernel 0 i (opened kernel cells)).cells (i : Int)
        pointer classCell) := by
    simp only [cleanUp, destroy_before, MyDev.releaseRest, MyDev.release, MyDev.readDevice,
      MyDev.storeDevice]
    rfl
  rw [read, Function.update_of_ne apart, stored]

/-- What happens when the device of minor number `i` cannot be created: all
that was acquired is released, but the number returned is made from the class
pointer, which is read as `devices[-1]`. -/
theorem device_failure_outcome (region : 0 ≤ kernel.allocChrdevRegion)
    (deviceClass : isErr kernel.classCreate = false) (cdev : 0 ≤ kernel.cdevAdd)
    (within : i < numDevices) (fails : isErr (kernel.deviceCreate i) = true)
    (earlier : ∀ j < i, isErr (kernel.deviceCreate j) = false) :
    (myInit numDevices kernel (loaded cells)).1 = ptrErr kernel.classCreate ∧
      ReleasedOnce () (myInit numDevices kernel (loaded cells)).2.log ∧
      -1 ∈ (myInit numDevices kernel (loaded cells)).2.accesses := by
  rw [my_init_fails_at region deviceClass cdev within fails earlier]
  refine ⟨clean_up_returns_class _, clean_up_releases_all _, ?_⟩
  simp [cleanUp, destroy_before, MyDev.releaseRest, MyDev.release, MyDev.readDevice,
    MyDev.storeDevice]

end DeviceFailure

theorem device_failure_reads_before_array (fails : DeviceFails numDevices kernel) :
    -1 ∈ (myInit numDevices kernel (loaded cells)).2.accesses := by
  obtain ⟨i, found⟩ : ∃ i, (List.range numDevices).find?
      (fun i => isErr (kernel.deviceCreate i)) = some i := by
    obtain ⟨j, within, failed⟩ := fails.device
    exact Option.isSome_iff_exists.mp (List.find?_isSome.mpr ⟨j, List.mem_range.mpr within, failed⟩)
  obtain ⟨failed, within, earlier⟩ := List.find?_range_eq_some.mp found
  exact (device_failure_outcome fails.region fails.deviceClass fails.cdev (List.mem_range.mp within)
    failed fun j below => by simpa using earlier j below).2.2

theorem atomic_of_failure {error : Int} {mydev : MyDev}
    (failure : kernel.firstFailure numDevices = some error) (negative : error < 0)
    (result : myInit numDevices kernel (loaded cells) = (error, mydev))
    (released : ReleasedOnce () mydev.log) (untouched : mydev.accesses = []) :
    Atomic numDevices kernel cells where
  zero := by
    rw [result, failure]
    simp only [reduceCtorEq, iff_false]
    omega
  exits := by simp [failure]
  errno := by
    intro other same
    rw [result]
    exact Option.some.inj (failure.symm.trans same)
  undone := by
    intro other _
    rw [result]
    exact released
  bounds := by
    rw [result]
    simp [untouched]

theorem atomic_of_region_failure (region : kernel.allocChrdevRegion < 0) :
    Atomic numDevices kernel cells := by
  have failure : kernel.firstFailure numDevices = some kernel.allocChrdevRegion := by
    simp [Kernel.firstFailure, region]
  have result : myInit numDevices kernel (loaded cells) =
      (kernel.allocChrdevRegion, loaded cells) := by
    simp [myInit, region]
  have released : ReleasedOnce () ([].map Use.acquire ++ ([] : List Object).map Use.release) :=
    released_once_of_perm (List.Perm.refl _) List.nodup_nil
  exact atomic_of_failure failure region result released rfl

theorem atomic_of_class_failure (region : 0 ≤ kernel.allocChrdevRegion)
    (deviceClass : isErr kernel.classCreate = true) : Atomic numDevices kernel cells := by
  obtain ⟨kept, negative⟩ := ptr_err_of_is_err deviceClass
  have failure : kernel.firstFailure numDevices = some kernel.classCreate.toInt := by
    simp [Kernel.firstFailure, Int.not_lt.mpr region, deviceClass]
  have result : myInit numDevices kernel (loaded cells) = (kernel.classCreate.toInt,
      (((loaded cells).acquire .region).storeClass kernel.classCreate).release .region) := by
    simp [myInit, MyDev.obtain, MyDev.storeClass, MyDev.acquire, MyDev.release, deviceClass,
      Int.not_lt.mpr region, kept]
  have released : ReleasedOnce () ([Object.region].map Use.acquire ++
      [Object.region].map Use.release) :=
    released_once_of_perm (List.Perm.refl _) (by decide)
  exact atomic_of_failure failure negative result released rfl

theorem atomic_of_cdev_failure (region : 0 ≤ kernel.allocChrdevRegion)
    (deviceClass : isErr kernel.classCreate = false) (cdev : kernel.cdevAdd < 0) :
    Atomic numDevices kernel cells := by
  have failure : kernel.firstFailure numDevices = some kernel.cdevAdd := by
    simp [Kernel.firstFailure, Int.not_lt.mpr region, deviceClass, cdev]
  have result : myInit numDevices kernel (loaded cells) = (kernel.cdevAdd,
      (((((loaded cells).acquire .region).acquire .deviceClass).storeClass
        kernel.classCreate).release .deviceClass).release .region) := by
    simp [myInit, MyDev.obtain, MyDev.storeClass, MyDev.acquire, MyDev.release, deviceClass,
      Int.not_lt.mpr region, cdev]
  have released : ReleasedOnce () ([Object.region, .deviceClass].map Use.acquire ++
      [Object.deviceClass, .region].map Use.release) :=
    released_once_of_perm (by decide) (by decide)
  exact atomic_of_failure failure cdev result released rfl

theorem atomic_of_success (region : 0 ≤ kernel.allocChrdevRegion)
    (deviceClass : isErr kernel.classCreate = false) (cdev : 0 ≤ kernel.cdevAdd)
    (devices : ∀ i < numDevices, isErr (kernel.deviceCreate i) = false) :
    Atomic numDevices kernel cells := by
  have failure : kernel.firstFailure numDevices = none := by
    simpa [Kernel.firstFailure, Int.not_lt.mpr region, deviceClass, Int.not_lt.mpr cdev]
      using devices
  have result : myInit numDevices kernel (loaded cells) = _ :=
    my_init_succeeds region deviceClass cdev devices
  constructor
  case zero => simp [result, failure]
  case exits =>
    intro _
    rw [result]
    exact exit_releases_all
  case errno => simp [failure]
  case undone => simp [failure]
  case bounds =>
    intro index accessed
    rw [result] at accessed
    rcases created_all_accesses kernel 0 numDevices _ index accessed with before | within
    · cases before
    · omega

end Outcomes

/-- `my_init` is atomic exactly when no `device_create` that it reaches fails. -/
theorem init_atomic_iff (numDevices : Nat) (kernel : Kernel) (cells : Int → Pointer) :
    Atomic numDevices kernel cells ↔ ¬DeviceFails numDevices kernel := by
  constructor
  · intro atomic fails
    have low := (atomic.bounds (-1) (device_failure_reads_before_array fails)).1
    omega
  · intro created
    by_cases region : kernel.allocChrdevRegion < 0
    · exact atomic_of_region_failure region
    · by_cases deviceClass : isErr kernel.classCreate = true
      · exact atomic_of_class_failure (Int.not_lt.mp region) deviceClass
      · have classOk := Bool.eq_false_iff.mpr deviceClass
        by_cases cdev : kernel.cdevAdd < 0
        · exact atomic_of_cdev_failure (Int.not_lt.mp region) classOk cdev
        · apply atomic_of_success (Int.not_lt.mp region) classOk (Int.not_lt.mp cdev)
          intro i within
          by_contra failed
          exact created ⟨Int.not_lt.mp region, classOk, Int.not_lt.mp cdev, i, within,
            by simpa using failed⟩

/-- The third of four devices fails with `-ENOMEM`. -/
def thirdDeviceFails : Kernel where
  allocChrdevRegion := 0
  classCreate := 0xffff888003a41000
  cdevAdd := 0
  deviceCreate := fun i => if i = 2 then BitVec.ofInt 64 (-12) else 0xffff888003b00000

theorem init_reads_before_array :
    ¬∀ numDevices kernel cells, 1 ≤ numDevices → Atomic numDevices kernel cells := by
  intro atomic
  have fails : DeviceFails 4 thirdDeviceFails :=
    ⟨by decide, by decide, by decide, 2, by decide, by decide⟩
  have bounds := (atomic 4 thirdDeviceFails (fun _ => 0) (by decide)).bounds
  exact absurd (bounds (-1) (device_failure_reads_before_array fails)).1 (by decide)

end LinuxFff.InitAtomicity
