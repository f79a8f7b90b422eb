import LinuxFff.PlatformDrivers

/-!
# What the platform drivers hold

A probe that fails should hold nothing, a probe that returns 0 should hold what
its remove releases, and a remove should release what the probe of its own
device acquired. The drivers ignore most results of their kernel calls, and the
static record of a driver belongs to whichever of its devices was probed last.
-/

namespace LinuxFff.ProbeBalance

open LinuxFff.CString LinuxFff.KernelMemory LinuxFff.LedDriver LinuxFff.ResourceLedger
open LinuxFff.PlatformDrivers LinuxFff.StepSystem

set_option autoImplicit false

/-- A remove that reads these data would release exactly what the device has. -/
def Releasable (device : Device) (data : Data) (ledger : Ledger Object Device) : Prop :=
  Proper device (data.releases.map .release) ledger ∧
    ∀ object, settle device (data.releases.map .release) ledger object ≠ some device

def ProbeFair (device : Device) (probed : Int × State) : Prop :=
  if probed.1 = 0 then Releasable device (probed.2.data device) probed.2.ledger
  else ∀ object, probed.2.ledger object ≠ some device

def CallFair (state : State) : Action → Prop
  | .ledProbe id node oeValue kernel =>
      ProbeFair (.led id) (ledProbe (.led id) node oeValue kernel state)
  | .ledRemove id => Releasable (.led id) (state.data (.led id)) state.ledger
  | .buttonProbe id kernel => ProbeFair (.button id) (bububuttonProbe (.button id) kernel state)
  | .buttonRemove id => Releasable (.button id) (state.data (.button id)) state.ledger
  | .buttonIrq _ => True
  | .fileOp _ _ _ => True

def Fair (state : State) (action : Action) : Prop :=
  CallFair state action ∧ ∀ next, step state action = some next →
    (∀ device, next.bound device = none) → next.ledger = free

structure Complete (kernel : LedKernel) : Prop where
  region : kernel.allocChrdevRegion.isSome
  cdev : kernel.cdevAdd = true
  ledClass : kernel.classCreate.isSome
  device : kernel.deviceCreate = true

instance (kernel : LedKernel) : Decidable (Complete kernel) :=
  decidable_of_iff (kernel.allocChrdevRegion.isSome ∧ kernel.cdevAdd = true ∧
      kernel.classCreate.isSome ∧ kernel.deviceCreate = true)
    ⟨fun ⟨region, cdev, ledClass, device⟩ => ⟨region, cdev, ledClass, device⟩,
      fun ⟨region, cdev, ledClass, device⟩ => ⟨region, cdev, ledClass, device⟩⟩

/-- The condition on the kernel calls of a probe, and on the static record
that a remove finds. -/
def Orderly (state : State) : Action → Prop
  | .ledProbe _ _ _ kernel => kernel.ofIomap = none ∨ Complete kernel
  | .ledRemove id => state.bound (.led id) = some (state.data (.led id))
  | .buttonProbe _ kernel => gpioIsValid kernel.ofGetNamedGpio = false ∨
      kernel.gpioRequest = kernel.requestThreadedIrq
  | .buttonRemove id => state.bound (.button id) = some (state.data (.button id))
  | .buttonIrq _ => True
  | .fileOp _ _ _ => True

instance (state : State) (action : Action) : Decidable (Orderly state action) :=
  match action with
  | .ledProbe _ _ _ _ => inferInstanceAs (Decidable (_ ∨ _))
  | .ledRemove _ => inferInstanceAs (Decidable (_ = _))
  | .buttonProbe _ _ => inferInstanceAs (Decidable (_ ∨ _))
  | .buttonRemove _ => inferInstanceAs (Decidable (_ = _))
  | .buttonIrq _ => isTrue trivial
  | .fileOp _ _ _ => isTrue trivial

/-- The invariant: the objects in use are those of the bound devices. -/
def Balanced (state : State) : Prop :=
  ∀ device object, state.ledger object = some device ↔
    ∃ data, state.bound device = some data ∧ object ∈ data.releases

private theorem enomem_ne_zero : ¬enomem = 0 := by
  decide

private theorem einval_ne_zero : ¬einval = 0 := by
  decide

theorem balanced_load : Balanced load := by
  intro device object
  simp [load, free]

theorem Balanced.unbound {state : State} (balanced : Balanced state) {device : Device}
    (unbound : state.bound device = none) (object : Object) :
    state.ledger object ≠ some device := by
  rw [ne_eq, balanced device object]
  simp [unbound]

theorem Balanced.all_free {state : State} (balanced : Balanced state)
    (unbound : ∀ device, state.bound device = none) : state.ledger = free := by
  funext object
  cases held : state.ledger object with
  | none => rfl
  | some device => exact absurd held (balanced.unbound (unbound device) object)

theorem releases_nodup (data : Data) : data.releases.Nodup := by
  cases data with
  | led base devNum ledClass => cases base <;> simp [Data.releases]
  | button gpio irq => simp [Data.releases]

theorem mem_led_releases (base : Option Nat) (devNum : Nat) (ledClass : Option Nat)
    (object : Object) :
    object ∈ (Data.led base devNum ledClass).releases ↔
      object = .device ledClass devNum ∨ object = .ledClass ledClass ∨ object = .cdev devNum ∨
        object = .region devNum ∨ ∃ address, base = some address ∧ object = .mapping address := by
  cases base <;> simp [Data.releases]

theorem mem_button_releases (gpio irq : Int) (object : Object) :
    object ∈ (Data.button gpio irq).releases ↔ object = .irq irq ∨ object = .gpio gpio := by
  simp [Data.releases]

theorem releases_injective {first second : Data}
    (same : ∀ object, object ∈ first.releases ↔ object ∈ second.releases) : first = second := by
  cases first with
  | led base devNum ledClass =>
      have device := (same (.device ledClass devNum)).mp (by simp [mem_led_releases])
      cases second with
      | led other otherNum otherClass =>
          simp only [mem_led_releases, Object.device.injEq, reduceCtorEq, and_false, or_false,
            exists_false] at device
          obtain ⟨classEq, numEq⟩ := device
          have bases : ∀ address, base = some address ↔ other = some address := by
            intro address
            simpa [mem_led_releases] using same (.mapping address)
          have baseEq : base = other := Option.ext bases
          rw [baseEq, classEq, numEq]
      | button gpio irq => simp [mem_button_releases] at device
  | button gpio irq =>
      have irqMember := (same (.irq irq)).mp (by simp [mem_button_releases])
      have gpioMember := (same (.gpio gpio)).mp (by simp [mem_button_releases])
      cases second with
      | led base devNum ledClass => simp [mem_led_releases] at irqMember
      | button other otherIrq =>
          simp only [mem_button_releases, Object.irq.injEq, Object.gpio.injEq, reduceCtorEq,
            or_false, false_or] at irqMember gpioMember
          rw [irqMember, gpioMember]

theorem releasable_iff {device : Device} {data : Data} {ledger : Ledger Object Device} :
    Releasable device data ledger ↔
      ∀ object, object ∈ data.releases ↔ ledger object = some device := by
  unfold Releasable
  rw [proper_releases]
  simp only [releases_nodup, true_and, settle_releases]
  constructor
  · rintro ⟨owned, rest⟩ object
    refine ⟨owned object, ?_⟩
    intro held
    by_contra absent
    exact rest object (by rw [if_neg absent, held])
  · intro exactly
    refine ⟨fun object member => (exactly object).mp member, ?_⟩
    intro object
    split_ifs with member
    · simp
    · exact fun held => member ((exactly object).mpr held)

theorem releasable_after_acquires {state : State} (balanced : Balanced state) {device : Device}
    (unbound : state.bound device = none) (data : Data) (objects : List Object) :
    Releasable device data (settle device (objects.map .acquire) state.ledger) ↔
      ∀ object, object ∈ data.releases ↔ object ∈ objects := by
  rw [releasable_iff]
  apply forall_congr'
  intro object
  rw [settle_acquires]
  by_cases member : object ∈ objects
  · simp [member]
  · simp [member, balanced.unbound unbound object]

theorem mem_led_acquires {kernel : LedKernel} {address : Nat} (devNum : Nat)
    (mapped : kernel.ofIomap = some address) (object : Object) :
    object ∈ kernel.acquires devNum ↔
      (∃ stored, kernel.allocChrdevRegion = some stored ∧ object = .region stored) ∨
        (kernel.cdevAdd = true ∧ object = .cdev devNum) ∨
        (kernel.classCreate.isSome ∧ object = .ledClass kernel.classCreate) ∨
        (kernel.classCreate.isSome ∧ kernel.deviceCreate = true ∧
          object = .device kernel.classCreate devNum) ∨
        object = .mapping address := by
  rcases kernel with ⟨ofIomap, region, cdevAdd, classCreate, deviceCreate⟩
  subst mapped
  cases region <;> cases cdevAdd <;> cases classCreate <;> cases deviceCreate <;>
    simp [LedKernel.acquires, or_comm, or_assoc, or_left_comm]

theorem led_acquires_iff_complete {kernel : LedKernel} {address devNum : Nat}
    (mapped : kernel.ofIomap = some address)
    (numbered : ∀ stored, kernel.allocChrdevRegion = some stored → stored = devNum) :
    (∀ object, object ∈ (Data.led (some address) devNum kernel.classCreate).releases ↔
        object ∈ kernel.acquires devNum) ↔ Complete kernel := by
  simp only [mem_led_releases, mem_led_acquires devNum mapped]
  constructor
  · intro same
    have region := (same (.region devNum)).mp (by simp)
    have cdev := (same (.cdev devNum)).mp (by simp)
    have ledClass := (same (.ledClass kernel.classCreate)).mp (by simp)
    have device := (same (.device kernel.classCreate devNum)).mp (by simp)
    simp only [Object.region.injEq, reduceCtorEq, and_false, or_false, exists_eq_right'] at region
    constructor
    case region => simp [region]
    case cdev => simpa using cdev
    case ledClass => simpa using ledClass
    case device =>
      have both : kernel.classCreate.isSome ∧ kernel.deviceCreate = true := by simpa using device
      exact both.2
  · intro complete object
    obtain ⟨stored, region⟩ := Option.isSome_iff_exists.mp complete.region
    have same := numbered stored region
    subst same
    simp only [region, complete.cdev, complete.ledClass, complete.device, Option.some.injEq,
      exists_eq_left', true_and]
    tauto

theorem mem_button_acquires {kernel : ButtonKernel}
    (valid : gpioIsValid kernel.ofGetNamedGpio = true) (object : Object) :
    object ∈ kernel.acquires ↔
      (kernel.gpioRequest = true ∧ object = .gpio kernel.ofGetNamedGpio) ∨
        (kernel.requestThreadedIrq = true ∧ object = .irq kernel.gpioToIrq) := by
  rcases kernel with ⟨gpio, request, irq, requestIrq⟩
  cases request <;> cases requestIrq <;> simp [ButtonKernel.acquires, valid]

section Probes

variable {state : State}

theorem led_probe_fair_iff {id : Nat} (balanced : Balanced state)
    (unbound : state.bound (.led id) = none) (node : Node) (oeValue : BitVec 32)
    (kernel : LedKernel) :
    ProbeFair (.led id) (ledProbe (.led id) node oeValue kernel state) ↔
      kernel.ofIomap = none ∨ Complete kernel := by
  rcases led_probe_cases (.led id) node oeValue kernel state with
    ⟨unmapped, driver, _, _, probed⟩ | ⟨address, write, mapped, driver, base, _, _, probed⟩
  · simp only [probed, ProbeFair, enomem_ne_zero, if_false, unmapped, true_or, iff_true]
    exact balanced.unbound unbound
  · simp only [probed, ProbeFair, if_true, State.data, base]
    rw [releasable_after_acquires balanced unbound, led_acquires_iff_complete mapped]
    · simp [mapped]
    · intro stored region
      simp [LedKernel.devNum, region]

theorem bububutton_probe_fair_iff {id : Nat} (balanced : Balanced state)
    (unbound : state.bound (.button id) = none) (kernel : ButtonKernel) :
    ProbeFair (.button id) (bububuttonProbe (.button id) kernel state) ↔
      gpioIsValid kernel.ofGetNamedGpio = false ∨
        kernel.gpioRequest = kernel.requestThreadedIrq := by
  rcases bububutton_probe_cases (.button id) kernel state with
    ⟨invalid, _, probed⟩ | ⟨valid, probed⟩
  · simp only [probed, ProbeFair, einval_ne_zero, if_false, invalid, true_or, iff_true]
    exact balanced.unbound unbound
  · cases requested : kernel.requestThreadedIrq with
    | true =>
        simp only [probed, requested, ProbeFair, if_true, State.data]
        rw [releasable_after_acquires balanced unbound]
        simp only [mem_button_releases, mem_button_acquires valid, requested, true_and]
        constructor
        · intro same
          have gpio := (same (.gpio kernel.ofGetNamedGpio)).mp (by simp)
          exact Or.inr (by simpa using gpio)
        · rintro (invalid | granted) object
          · simp [valid] at invalid
          · simp [granted, or_comm]
    | false =>
        simp only [probed, requested, ProbeFair, Bool.false_eq_true, if_false, einval_ne_zero,
          settle_acquires, mem_button_acquires valid, false_and, or_false]
        constructor
        · intro nothing
          have gpio := nothing (.gpio kernel.ofGetNamedGpio)
          refine Or.inr (Bool.eq_false_iff.mpr ?_)
          intro granted
          simp [granted] at gpio
        · rintro (invalid | refused) object
          · simp [valid] at invalid
          · simpa [refused] using balanced.unbound unbound object

/-- A device that was bound with some data is released as its probe left it
exactly when the static record still holds these data. -/
theorem remove_fair_iff {device : Device} {stored : Data} (balanced : Balanced state)
    (bound : state.bound device = some stored) :
    Releasable device (state.data device) state.ledger ↔
      state.bound device = some (state.data device) := by
  rw [releasable_iff, bound, Option.some.injEq]
  have held : ∀ object, state.ledger object = some device ↔ object ∈ stored.releases := by
    intro object
    simp [balanced device object, bound]
  simp only [held]
  constructor
  · exact fun same => (releases_injective same).symm
  · rintro same object
    rw [same]

theorem balanced_bind {device : Device} {data : Data} {objects : List Object} {next : State}
    (balanced : Balanced state) (unbound : state.bound device = none)
    (unheld : ∀ object ∈ objects, state.ledger object = none)
    (exactly : ∀ object, object ∈ data.releases ↔ object ∈ objects)
    (ledger : next.ledger = settle device (objects.map .acquire) state.ledger)
    (bound : next.bound = Function.update state.bound device (some data)) : Balanced next := by
  intro other object
  rw [ledger, bound, settle_acquires]
  by_cases same : other = device
  · subst same
    by_cases member : object ∈ objects
    · simp [member, exactly]
    · simp [member, exactly, balanced.unbound unbound object]
  · rw [Function.update_of_ne same, ← balanced other object]
    by_cases member : object ∈ objects
    · simp [member, unheld object member, Ne.symm same]
    · simp [member]

theorem balanced_unbind {device : Device} {data : Data} {next : State}
    (balanced : Balanced state) (bound : state.bound device = some data)
    (ledger : next.ledger = settle device (data.releases.map .release) state.ledger)
    (unbound : next.bound = Function.update state.bound device none) : Balanced next := by
  intro other object
  have held : state.ledger object = some device ↔ object ∈ data.releases := by
    simp [balanced device object, bound]
  rw [ledger, unbound, settle_releases]
  by_cases same : other = device
  · subst same
    by_cases member : object ∈ data.releases <;> simp [member, held]
  · rw [Function.update_of_ne same, ← balanced other object]
    by_cases member : object ∈ data.releases
    · simp [member, held.mpr member, Ne.symm same]
    · simp [member]

theorem balanced_of_same {next : State} (balanced : Balanced state)
    (ledger : next.ledger = state.ledger) (bound : next.bound = state.bound) : Balanced next := by
  intro device object
  rw [ledger, bound]
  exact balanced device object

theorem cdev_free_of_region_free {devNum : Nat} (balanced : Balanced state)
    (region : state.ledger (.region devNum) = none) : state.ledger (.cdev devNum) = none := by
  by_contra held
  obtain ⟨device, owner⟩ := Option.ne_none_iff_exists'.mp held
  obtain ⟨data, bound, member⟩ := (balanced device (.cdev devNum)).mp owner
  have regionMember : Object.region devNum ∈ data.releases := by
    cases data with
    | led base other ledClass =>
        simp only [mem_led_releases, reduceCtorEq, Object.cdev.injEq, and_false, exists_false,
          false_or, or_false] at member
        simp [mem_led_releases, member]
    | button gpio irq => simp [mem_button_releases] at member
  have regionOwner := (balanced device (.region devNum)).mpr ⟨data, bound, regionMember⟩
  rw [region] at regionOwner
  cases regionOwner

theorem balanced_led_probe {id : Nat} {node : Node} {oeValue : BitVec 32} {kernel : LedKernel}
    (balanced : Balanced state) (unbound : state.bound (.led id) = none)
    (fresh : state.Fresh (kernel.acquires (kernel.devNum state)))
    (orderly : kernel.ofIomap = none ∨ Complete kernel) :
    Balanced (bind (.led id) (ledProbe (.led id) node oeValue kernel state)) := by
  rcases led_probe_cases (.led id) node oeValue kernel state with
    ⟨unmapped, driver, _, _, probed⟩ | ⟨address, write, mapped, driver, base, _, _, probed⟩
  · apply balanced_of_same balanced
    · simp [probed]
    · rw [bind_bound_of_error _ _ (by rw [probed]; exact enomem_ne_zero), probed]
  · have complete : Complete kernel := by simpa [mapped] using orderly
    obtain ⟨stored, region⟩ := Option.isSome_iff_exists.mp complete.region
    have number : kernel.devNum state = stored := by simp [LedKernel.devNum, region]
    have regionFree : state.ledger (.region stored) = none := by
      apply fresh (.region stored) _ rfl
      rw [mem_led_acquires _ mapped]
      exact Or.inl ⟨stored, region, rfl⟩
    have unheld : ∀ object ∈ kernel.acquires (kernel.devNum state),
        state.ledger object = none := by
      intro object member
      cases shape : object with
      | cdev other =>
          have same : other = kernel.devNum state := by
            simpa [shape, mem_led_acquires _ mapped, complete.cdev] using member
          rw [same, number]
          exact cdev_free_of_region_free balanced regionFree
      | _ =>
          rw [← shape]
          apply fresh object member
          rw [shape]
          rfl
    have numbered : ∀ other, kernel.allocChrdevRegion = some other →
        other = kernel.devNum state := by
      intro other found
      rw [number]
      exact Option.some.inj (found.symm.trans region)
    have exactly := (led_acquires_iff_complete mapped numbered).mpr complete
    apply balanced_bind balanced unbound unheld exactly
    · simp [probed]
    · rw [bind_bound_of_success _ _ (by rw [probed]), probed]
      simp [State.data, base]

theorem balanced_button_probe {id : Nat} {kernel : ButtonKernel} (balanced : Balanced state)
    (unbound : state.bound (.button id) = none) (fresh : state.Fresh kernel.acquires)
    (orderly : gpioIsValid kernel.ofGetNamedGpio = false ∨
      kernel.gpioRequest = kernel.requestThreadedIrq) :
    Balanced (bind (.button id) (bububuttonProbe (.button id) kernel state)) := by
  rcases bububutton_probe_cases (.button id) kernel state with
    ⟨invalid, _, probed⟩ | ⟨valid, probed⟩
  · apply balanced_of_same balanced
    · simp [probed]
    · rw [bind_bound_of_error _ _ (by rw [probed]; exact einval_ne_zero), probed]
  · have granted : kernel.gpioRequest = kernel.requestThreadedIrq := by simpa [valid] using orderly
    cases requested : kernel.requestThreadedIrq with
    | true =>
        have exactly : ∀ object, object ∈ (Data.button kernel.ofGetNamedGpio
            kernel.gpioToIrq).releases ↔ object ∈ kernel.acquires := by
          intro object
          simp [mem_button_releases, mem_button_acquires valid, granted, requested, or_comm]
        have unheld : ∀ object ∈ kernel.acquires, state.ledger object = none := by
          intro object member
          apply fresh object member
          rcases (mem_button_acquires valid object).mp member with ⟨_, rfl⟩ | ⟨_, rfl⟩ <;> rfl
        apply balanced_bind balanced unbound unheld exactly
        · simp [probed]
        · rw [bind_bound_of_success _ _ (by rw [probed, requested]; rfl), probed]
          rfl
    | false =>
        have nothing : kernel.acquires = [] := by
          simp [ButtonKernel.acquires, granted, requested]
        apply balanced_of_same balanced
        · simp [probed, nothing, settle]
        · rw [bind_bound_of_error _ _ (by rw [probed, requested]; exact einval_ne_zero), probed]

end Probes

theorem balanced_step {state next : State} {action : Action} (balanced : Balanced state)
    (orderly : Orderly state action) (stepped : step state action = some next) :
    Balanced next := by
  cases step_effect stepped with
  | ledProbe id node oeValue kernel unbound fresh =>
      exact balanced_led_probe balanced unbound fresh orderly
  | ledRemove id stored bound => exact balanced_unbind balanced orderly rfl rfl
  | buttonProbe id kernel unbound fresh =>
      exact balanced_button_probe balanced unbound fresh orderly
  | buttonRemove id stored bound => exact balanced_unbind balanced orderly rfl rfl
  | buttonIrq id => exact balanced_of_same balanced rfl rfl
  | fileOp ledClass devNum op => exact balanced_of_same balanced rfl rfl

theorem call_fair_iff_orderly {state next : State} {action : Action} (balanced : Balanced state)
    (stepped : step state action = some next) : CallFair state action ↔ Orderly state action := by
  cases step_effect stepped with
  | ledProbe id node oeValue kernel unbound fresh =>
      exact led_probe_fair_iff balanced unbound node oeValue kernel
  | ledRemove id stored bound => exact remove_fair_iff balanced bound
  | buttonProbe id kernel unbound fresh => exact bububutton_probe_fair_iff balanced unbound kernel
  | buttonRemove id stored bound => exact remove_fair_iff balanced bound
  | buttonIrq id => exact Iff.rfl
  | fileOp ledClass devNum op => exact Iff.rfl

theorem fair_iff_orderly {state next : State} {action : Action} (balanced : Balanced state)
    (stepped : step state action = some next) : Fair state action ↔ Orderly state action := by
  rw [← call_fair_iff_orderly balanced stepped]
  constructor
  · exact fun fair => fair.1
  · intro fair
    refine ⟨fair, ?_⟩
    intro other otherStep unbound
    have orderly := (call_fair_iff_orderly balanced stepped).mp fair
    exact (balanced_step balanced orderly otherStep).all_free unbound

/-- In every run from the loading of the modules: all probes and removes are
fair, and nothing is held while no device is bound, exactly when every call
meets the condition. -/
theorem probes_balance_iff (actions : List Action) (final : State)
    (ran : run step load actions = some final) :
    Meets step Fair load actions ↔ Meets step Orderly load actions :=
  meets_iff_of_run (fun _ _ _ balanced orderly stepped => balanced_step balanced orderly stepped)
    (fun _ _ _ balanced stepped => fair_iff_orderly balanced stepped) balanced_load ran

theorem probes_and_removes_balance :
    Meets step Fair load (bothProbed ++ [.ledRemove 0, .buttonRemove 0]) := by
  have reached : ∃ final,
      run step load (bothProbed ++ [.ledRemove 0, .buttonRemove 0]) = some final := ⟨_, rfl⟩
  obtain ⟨final, ran⟩ := reached
  exact (probes_balance_iff _ final ran).mpr (by decide)

/-- When the interrupt cannot be requested, the GPIO stays requested. -/
theorem failed_probe_keeps_gpio : ¬∀ actions final, run step load actions = some final →
    Meets step Fair load actions := by
  intro fair
  let kernel : ButtonKernel := { buttonSucceeds with requestThreadedIrq := false }
  have reached : ∃ final, run step load [.buttonProbe 0 kernel] = some final := ⟨_, rfl⟩
  obtain ⟨final, ran⟩ := reached
  have call : CallFair load (.buttonProbe 0 kernel) := (fair _ final ran).1.1
  have leaves : ∀ object,
      (bububuttonProbe (.button 0) kernel load).2.ledger object ≠ some (.button 0) := call
  exact leaves (.gpio 27) rfl

end LinuxFff.ProbeBalance
