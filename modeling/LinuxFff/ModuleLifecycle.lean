import LinuxFff.Holdings
import LinuxFff.InitAtomicity
import LinuxFff.StepSystem

/-!
# Loading and unloading `ex1.c`, `ex2.c` and `ex3.c` of assignment 11

`my_init` asks the kernel for a device-number region, the cdev, a class and a device, in this
order, and gives back what it has when a call fails that it checks. `ex1.c` and `ex3.c` do not
check `device_create`, so they stay loaded without a device. Over any number of loads and
unloads, whatever the calls return, nothing is released that is not held, and nothing is held
while the module is not loaded.
-/

namespace LinuxFff.ModuleLifecycle

open LinuxFff.Holdings LinuxFff.ResourceLedger LinuxFff.StepSystem
open LinuxFff.InitAtomicity (Pointer isErr ptrErr ptr_err_of_is_err)

set_option autoImplicit false

inductive Object where
  | region
  | cdev
  | deviceClass
  | device
  deriving DecidableEq

/-- What a function of the kernel returns that returns an `int`: 0 or an error number. -/
structure Result where
  code : Int
  noPositive : code ≤ 0

structure Kernel where
  allocChrdevRegion : Result
  cdevAdd : Result
  classCreate : Pointer
  deviceCreate : Pointer

abbrev Log := List (Use Object)

/-- `device_destroy` looks for the device by its number, and does nothing when there is none. -/
def deviceDestroy (log : Log) : Log := releaseAny () log .device

def obtain (log : Log) (object : Object) (pointer : Pointer) : Log :=
  if isErr pointer then log else acquire log object

/-- The functions `my_init` that leave `device_create` unchecked; the two codes are what is
returned when `cdev_add` or `class_create` fails. -/
def initUnchecked (cdevCode classCode : Kernel → Int) (kernel : Kernel) (log : Log) : Int × Log :=
  if kernel.allocChrdevRegion.code < 0 then (kernel.allocChrdevRegion.code, log)
  else
    let log := acquire log .region
    if kernel.cdevAdd.code < 0 then (cdevCode kernel, release log .region)
    else
      let log := acquire log .cdev
      if isErr kernel.classCreate then
        (classCode kernel, release (release log .cdev) .region)
      else
        let log := acquire log .deviceClass
        (0, obtain log .device kernel.deviceCreate)

/-- `my_exit`, which is the same in the three modules. -/
def myExit (log : Log) : Log :=
  release (release (release (deviceDestroy log) .deviceClass) .cdev) .region

namespace Ex1

def myInit : Kernel → Log → Int × Log :=
  initUnchecked (fun kernel => kernel.cdevAdd.code) fun kernel => ptrErr kernel.classCreate

end Ex1

namespace Ex2

def myInit (kernel : Kernel) (log : Log) : Int × Log :=
  if kernel.allocChrdevRegion.code < 0 then (kernel.allocChrdevRegion.code, log)
  else
    let log := acquire log .region
    if kernel.cdevAdd.code < 0 then (kernel.cdevAdd.code, release log .region)
    else
      let log := acquire log .cdev
      if isErr kernel.classCreate then
        (ptrErr kernel.classCreate, release (release log .cdev) .region)
      else
        let log := obtain (acquire log .deviceClass) .device kernel.deviceCreate
        if isErr kernel.deviceCreate then
          (ptrErr kernel.deviceCreate, release (release (release log .deviceClass) .cdev) .region)
        else (0, log)

end Ex2

namespace Ex3

def myInit : Kernel → Log → Int × Log := initUnchecked (fun _ => -1) fun _ => -1

end Ex3

inductive Source where
  | ex1
  | ex2
  | ex3

def Source.myInit : Source → Kernel → Log → Int × Log
  | .ex1 => Ex1.myInit
  | .ex2 => Ex2.myInit
  | .ex3 => Ex3.myInit

def heldBy (hasDevice : Bool) : List Object :=
  if hasDevice then [.device, .deviceClass, .cdev, .region] else [.deviceClass, .cdev, .region]

/-- `loaded` is whether the last `my_init` returned 0 and `my_exit` has not run since; `returned`
lists what the loads were answered. -/
structure State where
  loaded : Bool
  log : Log
  returned : List (Kernel × Int)

def unloaded : State := ⟨false, [], []⟩

inductive Action where
  | insmod (kernel : Kernel)
  | rmmod

def step (source : Source) (state : State) : Action → Option State
  | .insmod kernel =>
      if state.loaded = false then
        let result := source.myInit kernel state.log
        some { loaded := result.1 = 0, log := result.2,
               returned := state.returned ++ [(kernel, result.1)] }
      else none
  | .rmmod => if state.loaded then some { state with loaded := false, log := myExit state.log } else none

/-- The code of the first call that fails, or 0. -/
def firstFailure : List (Bool × Int) → Int
  | [] => 0
  | (failed, code) :: rest => if failed then code else firstFailure rest

/-- The calls that are checked, with what `my_init` returns when they fail. -/
def Source.checked (source : Source) (kernel : Kernel) : List (Bool × Int) :=
  let region := kernel.allocChrdevRegion.code
  let cdev := kernel.cdevAdd.code
  match source with
  | .ex1 => [(region < 0, region), (cdev < 0, cdev),
      (isErr kernel.classCreate, ptrErr kernel.classCreate)]
  | .ex2 => [(region < 0, region), (cdev < 0, cdev),
      (isErr kernel.classCreate, ptrErr kernel.classCreate),
      (isErr kernel.deviceCreate, ptrErr kernel.deviceCreate)]
  | .ex3 => [(region < 0, region), (cdev < 0, -1), (isErr kernel.classCreate, -1)]

/-- What the module should have: it is loaded, and the last load created a device or did not. -/
def State.held (state : State) : List Object :=
  if state.loaded then
    match state.returned.getLast? with
    | some (kernel, _) => heldBy (!isErr kernel.deviceCreate)
    | none => []
  else []

structure Answers (code : Int) (kernel : Kernel) (result : Int × Log) : Prop where
  returned : result.1 = code
  held : Holding () (if code = 0 then heldBy (!isErr kernel.deviceCreate) else []) result.2

section Calls

variable {log : Log} {kernel : Kernel}

theorem obtain_device (holding : Holding () (heldBy false) log) :
    Holding () (heldBy (!isErr kernel.deviceCreate)) (obtain log .device kernel.deviceCreate) := by
  unfold obtain
  cases isErr kernel.deviceCreate with
  | true => exact holding
  | false => exact holding.acquire (by decide)

theorem three_acquired (holding : Holding () [] log) :
    Holding () [.cdev, .region] (acquire (acquire log .region) .cdev) ∧
      Holding () (heldBy false) (acquire (acquire (acquire log .region) .cdev) .deviceClass) := by
  have two : Holding () [.cdev, .region] (acquire (acquire log .region) .cdev) :=
    (holding.acquire (by decide)).acquire (by decide)
  exact ⟨two, two.acquire (by decide)⟩

theorem my_exit_releases {hasDevice : Bool} (holding : Holding () (heldBy hasDevice) log) :
    Holding () [] (myExit log) := by
  have rest : Holding () (heldBy false) (deviceDestroy log) := by
    cases hasDevice with
    | true => exact holding.release_present
    | false => exact holding.release_absent (by decide)
  exact rest.release.release.release

theorem failed_answer {code : Int} (negative : code < 0) (holding : Holding () [] log) :
    Answers code kernel (code, log) where
  returned := rfl
  held := by
    rw [if_neg (by omega)]
    exact holding

theorem init_unchecked_answers {cdevCode classCode : Kernel → Int} (holding : Holding () [] log)
    (cdevNegative : kernel.cdevAdd.code < 0 → cdevCode kernel < 0)
    (classNegative : isErr kernel.classCreate = true → classCode kernel < 0) :
    Answers (firstFailure [(kernel.allocChrdevRegion.code < 0, kernel.allocChrdevRegion.code),
        (kernel.cdevAdd.code < 0, cdevCode kernel), (isErr kernel.classCreate, classCode kernel)])
      kernel (initUnchecked cdevCode classCode kernel log) := by
  obtain ⟨two, three⟩ := three_acquired holding
  unfold initUnchecked
  by_cases region : kernel.allocChrdevRegion.code < 0
  · simp only [firstFailure, region, decide_true, if_true]
    exact failed_answer region holding
  · by_cases cdev : kernel.cdevAdd.code < 0
    · simp only [firstFailure, region, cdev, decide_true, decide_false, if_true, if_false,
        Bool.false_eq_true]
      exact failed_answer (cdevNegative cdev) (holding.acquire (by decide)).release
    · by_cases deviceClass : isErr kernel.classCreate = true
      · simp only [firstFailure, region, cdev, deviceClass, decide_false, if_true, if_false,
          Bool.false_eq_true]
        exact failed_answer (classNegative deviceClass) two.release.release
      · simp only [firstFailure, region, cdev, deviceClass, decide_false, if_false,
          Bool.false_eq_true]
        exact ⟨rfl, obtain_device three⟩

theorem ptr_err_negative {pointer : Pointer} (failed : isErr pointer = true) :
    ptrErr pointer < 0 := by
  obtain ⟨same, negative⟩ := ptr_err_of_is_err failed
  omega

theorem ex2_answers (holding : Holding () [] log) :
    Answers (firstFailure (Source.ex2.checked kernel)) kernel (Ex2.myInit kernel log) := by
  obtain ⟨two, three⟩ := three_acquired holding
  unfold Ex2.myInit Source.checked
  by_cases region : kernel.allocChrdevRegion.code < 0
  · simp only [firstFailure, region, decide_true, if_true]
    exact failed_answer region holding
  · by_cases cdev : kernel.cdevAdd.code < 0
    · simp only [firstFailure, region, cdev, decide_true, decide_false, if_true, if_false,
        Bool.false_eq_true]
      exact failed_answer cdev (holding.acquire (by decide)).release
    · by_cases deviceClass : isErr kernel.classCreate = true
      · simp only [firstFailure, region, cdev, deviceClass, decide_false, if_true, if_false,
          Bool.false_eq_true]
        exact failed_answer (ptr_err_negative deviceClass) two.release.release
      · have four := @obtain_device _ kernel three
        by_cases device : isErr kernel.deviceCreate = true
        · simp only [firstFailure, region, cdev, deviceClass, device, decide_false, if_true,
            if_false, Bool.false_eq_true]
          rw [device] at four
          exact failed_answer (ptr_err_negative device) four.release.release.release
        · simp only [firstFailure, region, cdev, deviceClass, device, decide_false, if_false,
            Bool.false_eq_true]
          exact ⟨rfl, four⟩

/-- What `my_init` leaves behind, and what it returns. -/
theorem my_init_answers (source : Source) (holding : Holding () [] log) :
    Answers (firstFailure (source.checked kernel)) kernel (source.myInit kernel log) := by
  cases source with
  | ex1 =>
      exact @init_unchecked_answers log kernel (fun kernel => kernel.cdevAdd.code)
        (fun kernel => ptrErr kernel.classCreate) holding id ptr_err_negative
  | ex2 => exact ex2_answers holding
  | ex3 =>
      have negative : (-1 : Int) < 0 := by decide
      exact @init_unchecked_answers log kernel (fun _ => -1) (fun _ => -1) holding
        (fun _ => negative) fun _ => negative

theorem first_failure_eq_zero_iff {checks : List (Bool × Int)}
    (negative : ∀ check ∈ checks, check.1 = true → check.2 < 0) :
    firstFailure checks = 0 ↔ ∀ check ∈ checks, check.1 = false := by
  induction checks with
  | nil => simp [firstFailure]
  | cons check rest ih =>
      obtain ⟨failed, code⟩ := check
      have later := ih fun other member => negative other (List.mem_cons_of_mem _ member)
      cases failed with
      | true =>
          have low : code < 0 := negative (true, code) List.mem_cons_self rfl
          have nonzero : code ≠ 0 := by omega
          simp [firstFailure, nonzero]
      | false => simp [firstFailure, later]

theorem checked_negative (source : Source) :
    ∀ check ∈ source.checked kernel, check.1 = true → check.2 < 0 := by
  intro check member failed
  have minusOne : (-1 : Int) < 0 := by decide
  cases source <;>
    simp only [Source.checked, List.mem_cons, List.not_mem_nil, or_false] at member <;>
    rcases member with rfl | rfl | rfl | rfl <;>
    first
      | exact of_decide_eq_true failed
      | exact ptr_err_negative failed
      | exact minusOne

end Calls

/-- The log goes with the state, and every load has returned the code of its first failure. -/
structure Accounted (source : Source) (state : State) : Prop where
  holding : Holding () state.held state.log
  known : state.loaded = true → state.returned.getLast?.isSome = true
  returned : ∀ answer ∈ state.returned, answer.2 = firstFailure (source.checked answer.1)

theorem accounted_unloaded (source : Source) : Accounted source unloaded where
  holding := holding_nil
  known := by
    intro impossible
    cases impossible
  returned := by
    intro answer impossible
    cases impossible

theorem accounted_step {source : Source} {state next : State} {action : Action}
    (accounted : Accounted source state) (stepped : step source state action = some next) :
    Accounted source next := by
  have holding := accounted.holding
  cases action with
  | insmod kernel =>
      simp only [step, Option.ite_none_right_eq_some, Option.some.injEq] at stepped
      obtain ⟨fresh, rfl⟩ := stepped
      rw [State.held, fresh, if_neg Bool.false_ne_true] at holding
      have answers := @my_init_answers _ kernel source holding
      constructor
      case holding =>
        have held := answers.held
        rw [← answers.returned] at held
        simpa only [State.held, List.getLast?_concat, decide_eq_true_eq] using held
      case known => simp
      case returned =>
        intro answer member
        rcases List.mem_append.mp member with old | new
        · exact accounted.returned answer old
        · rw [List.mem_singleton.mp new]
          exact answers.returned
  | rmmod =>
      simp only [step, Option.ite_none_right_eq_some, Option.some.injEq] at stepped
      obtain ⟨loaded, rfl⟩ := stepped
      obtain ⟨⟨kernel, code⟩, last⟩ := Option.isSome_iff_exists.mp (accounted.known loaded)
      rw [State.held, if_pos loaded, last] at holding
      refine ⟨my_exit_releases holding, ?_, accounted.returned⟩
      intro impossible
      cases impossible

/-- Over any number of loads and unloads, whatever the calls of the kernel return: nothing is
released that is not held and nothing acquired twice, an unloaded module holds nothing, a loaded
one its region, cdev and class, and its device if it could be created; and a load succeeds exactly
when none of the calls fails that its `my_init` checks. -/
theorem modules_release_what_they_take (source : Source) (actions : List Action) (state : State)
    (ran : run (step source) unloaded actions = some state) :
    Proper () state.log free ∧
      (∀ object, settle () state.log free object = some () ↔ object ∈ state.held) ∧
      ∀ answer ∈ state.returned, answer.2 = firstFailure (source.checked answer.1) ∧
        (answer.2 = 0 ↔ ∀ check ∈ source.checked answer.1, check.1 = false) := by
  have accounted : Accounted source state :=
    run_keeps_always (fun _ _ _ holds stepped => accounted_step holds stepped)
      (accounted_unloaded source) ran
  refine ⟨accounted.holding.proper, fun object => accounted.holding.holds_iff, ?_⟩
  intro answer member
  have code := accounted.returned answer member
  refine ⟨code, ?_⟩
  rw [code]
  exact first_failure_eq_zero_iff (checked_negative source)

def fine : Result := ⟨0, by decide⟩

/-- `device_create` fails, which `ex3.c` does not notice; the class cannot be created a second time. -/
def loadsOfEx3 : List Action :=
  [.insmod ⟨fine, fine, 0xffff888003a41000, BitVec.ofInt 64 (-12)⟩, .rmmod,
    .insmod ⟨fine, fine, BitVec.ofInt 64 (-17), 0⟩]

theorem modules_release_what_they_take_ex3 :
    ∃ state, run (step .ex3) unloaded loadsOfEx3 = some state ∧
      state.returned.map Prod.snd = [0, -1] ∧ state.held = [] ∧ Proper () state.log free := by
  have observed : ((run (step .ex3) unloaded loadsOfEx3).map fun state =>
      (state.returned.map Prod.snd, state.held)) = some ([0, -1], []) := by
    decide +kernel
  obtain ⟨state, ran, seen⟩ := Option.map_eq_some_iff.mp observed
  exact ⟨state, ran, congrArg Prod.fst seen, congrArg Prod.snd seen,
    (modules_release_what_they_take .ex3 loadsOfEx3 state ran).1⟩

end LinuxFff.ModuleLifecycle
