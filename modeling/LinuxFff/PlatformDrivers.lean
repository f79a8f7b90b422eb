import LinuxFff.LedDriver
import LinuxFff.ResourceLedger
import LinuxFff.StepSystem

/-!
# Binding and unbinding `ledledled.c` and `bububutton.c`

Each driver keeps one static record for all its devices. A probe acquires
kernel objects for its device, and a remove releases whatever the static record
names at that time. The results of the kernel calls are part of the action: a
call that succeeds hands out an object that nobody holds. Two cdevs may cover
one device number, so `cdev_add` has no such guarantee.
-/

namespace LinuxFff.PlatformDrivers

open LinuxFff.CString LinuxFff.KernelMemory LinuxFff.LedDriver LinuxFff.ResourceLedger

set_option autoImplicit false

inductive Device where
  | led (id : Nat)
  | button (id : Nat)
  deriving DecidableEq

/-- A class pointer is `none` when it is NULL or an error pointer. -/
inductive Object where
  | mapping (base : Nat)
  | region (devNum : Nat)
  | cdev (devNum : Nat)
  | ledClass (pointer : Option Nat)
  | device (ledClass : Option Nat) (devNum : Nat)
  | gpio (gpio : Int)
  | irq (irq : Int)
  deriving DecidableEq

def Object.exclusive : Object → Bool
  | .cdev _ => false
  | _ => true

/-- The part of the static record that a remove reads. -/
inductive Data where
  | led (base : Option Nat) (devNum : Nat) (ledClass : Option Nat)
  | button (gpio irq : Int)
  deriving DecidableEq

/-- What `led_remove` and `bububutton_remove` release, in this order. -/
def Data.releases : Data → List Object
  | .led base devNum ledClass =>
      [.device ledClass devNum, .ledClass ledClass, .cdev devNum, .region devNum] ++
        (base.map Object.mapping).toList
  | .button gpio irq => [.irq irq, .gpio gpio]

inductive LedCall where
  | probe (mapped : Bool)
  | remove
  deriving DecidableEq

structure State where
  driver : Driver
  devNum : Nat
  ledClass : Option Nat
  gpio : Int
  irq : Int
  button : Button
  ledger : Ledger Object Device
  /-- The devices that are bound, with the data that their probe left behind. -/
  bound : Device → Option Data
  /-- The base addresses that `ioread32` has used. -/
  reads : List (Option Nat)
  lastLed : Option LedCall

def load : State where
  driver := ledAtLoad
  devNum := 0
  ledClass := none
  gpio := 0
  irq := 0
  button := { ledState := false }
  ledger := free
  bound := fun _ => none
  reads := []
  lastLed := none

def State.data (state : State) : Device → Data
  | .led _ => .led state.driver.led.base state.devNum state.ledClass
  | .button _ => .button state.gpio state.irq

def State.acquire (state : State) (device : Device) (objects : List Object) : State :=
  { state with ledger := settle device (objects.map .acquire) state.ledger }

def State.release (state : State) (device : Device) (objects : List Object) : State :=
  { state with ledger := settle device (objects.map .release) state.ledger }

structure LedKernel where
  ofIomap : Option Nat
  allocChrdevRegion : Option Nat
  cdevAdd : Bool
  classCreate : Option Nat
  deviceCreate : Bool

/-- `device_create` fails on an error pointer for the class. -/
def LedKernel.acquires (kernel : LedKernel) (devNum : Nat) : List Object :=
  (kernel.ofIomap.map Object.mapping).toList ++
    if kernel.ofIomap.isNone then []
    else
      (kernel.allocChrdevRegion.map Object.region).toList ++
        (if kernel.cdevAdd then [.cdev devNum] else []) ++
        if kernel.classCreate.isNone then []
        else
          .ledClass kernel.classCreate ::
            if kernel.deviceCreate then [.device kernel.classCreate devNum] else []

/-- The number that `alloc_chrdev_region` stores; a failure stores nothing. -/
def LedKernel.devNum (kernel : LedKernel) (state : State) : Nat :=
  kernel.allocChrdevRegion.getD state.devNum

def ledProbe (device : Device) (node : Node) (oeValue : BitVec 32) (kernel : LedKernel)
    (state : State) : Int × State :=
  let opened := LedDriver.ledProbe kernel.ofIomap node oeValue state.driver
  match kernel.ofIomap with
  | none => (opened.1, { state with driver := opened.2, lastLed := some (.probe false) })
  | some base =>
      let stored := { state with
        driver := opened.2
        devNum := kernel.devNum state
        ledClass := kernel.classCreate
        reads := state.reads ++ [some base]
        lastLed := some (.probe true) }
      (opened.1, stored.acquire device (kernel.acquires (kernel.devNum state)))

/-- `led_remove` leaves `led.base` as it is. -/
def ledRemove (device : Device) (state : State) : State :=
  { state.release device (state.data device).releases with lastLed := some .remove }

structure ButtonKernel where
  ofGetNamedGpio : Int
  gpioRequest : Bool
  gpioToIrq : Int
  requestThreadedIrq : Bool

def gpioIsValid (gpio : Int) : Bool := decide (0 ≤ gpio)

def ButtonKernel.acquires (kernel : ButtonKernel) : List Object :=
  if gpioIsValid kernel.ofGetNamedGpio then
    (if kernel.gpioRequest then [.gpio kernel.ofGetNamedGpio] else []) ++
      if kernel.requestThreadedIrq then [.irq kernel.gpioToIrq] else []
  else []

/-- `bububutton_probe` on a node that is compatible with the driver. -/
def bububuttonProbe (device : Device) (kernel : ButtonKernel) (state : State) : Int × State :=
  let found := { state with gpio := kernel.ofGetNamedGpio }
  if gpioIsValid kernel.ofGetNamedGpio then
    let requested := { found with irq := kernel.gpioToIrq }.acquire device kernel.acquires
    if kernel.requestThreadedIrq then (0, requested) else (einval, requested)
  else (einval, found)

def bububuttonRemove (device : Device) (state : State) : State :=
  state.release device (state.data device).releases

inductive FileOp where
  | ledOpen
  | ledRelease
  | ledRead (offset : Int) (copyOut : Bool)
  | ledWrite (first : Option Byte) (len : Nat)
  | ledIoctl (cmd : BitVec 32) (user : Option Int) (copyOut : Bool)
  deriving DecidableEq

def FileOp.perform (op : FileOp) (driver : Driver) : Driver :=
  match op with
  | .ledWrite first len => (LedDriver.ledWrite first len driver).2
  | .ledIoctl cmd user copyOut => (LedDriver.ledIoctl cmd user copyOut driver).2.2
  | .ledOpen | .ledRelease | .ledRead _ _ => driver

inductive Action where
  | ledProbe (id : Nat) (node : Node) (oeValue : BitVec 32) (kernel : LedKernel)
  | ledRemove (id : Nat)
  | buttonProbe (id : Nat) (kernel : ButtonKernel)
  | buttonRemove (id : Nat)
  | buttonIrq (id : Nat)
  | fileOp (ledClass : Option Nat) (devNum : Nat) (op : FileOp)

def State.Fresh (state : State) (objects : List Object) : Prop :=
  ∀ object ∈ objects, object.exclusive = true → state.ledger object = none

instance (state : State) (objects : List Object) : Decidable (state.Fresh objects) :=
  List.decidableBAll _ objects

/-- The driver core binds a device when its probe returns 0. -/
def bind (device : Device) (probed : Int × State) : State :=
  if probed.1 = 0 then
    { probed.2 with bound := Function.update probed.2.bound device (some (probed.2.data device)) }
  else probed.2

def unbind (device : Device) (removed : State) : State :=
  { removed with bound := Function.update removed.bound device none }

def step (state : State) : Action → Option State
  | .ledProbe id node oeValue kernel =>
      if state.bound (.led id) = none ∧ state.Fresh (kernel.acquires (kernel.devNum state)) then
        some (bind (.led id) (ledProbe (.led id) node oeValue kernel state))
      else none
  | .ledRemove id =>
      if state.bound (.led id) = none then none
      else some (unbind (.led id) (ledRemove (.led id) state))
  | .buttonProbe id kernel =>
      if state.bound (.button id) = none ∧ state.Fresh kernel.acquires then
        some (bind (.button id) (bububuttonProbe (.button id) kernel state))
      else none
  | .buttonRemove id =>
      if state.bound (.button id) = none then none
      else some (unbind (.button id) (bububuttonRemove (.button id) state))
  | .buttonIrq id =>
      if state.bound (.button id) = none then none
      else
        let handled := buttonIrqHandler state.button state.driver
        some { state with button := handled.1, driver := handled.2 }
  | .fileOp ledClass devNum op =>
      if state.ledger (.device ledClass devNum) = none then none
      else some { state with driver := op.perform state.driver }

inductive Effect (state : State) : Action → State → Prop where
  | ledProbe (id : Nat) (node : Node) (oeValue : BitVec 32) (kernel : LedKernel)
      (unbound : state.bound (.led id) = none)
      (fresh : state.Fresh (kernel.acquires (kernel.devNum state))) :
      Effect state (.ledProbe id node oeValue kernel)
        (bind (.led id) (ledProbe (.led id) node oeValue kernel state))
  | ledRemove (id : Nat) (stored : Data) (bound : state.bound (.led id) = some stored) :
      Effect state (.ledRemove id) (unbind (.led id) (ledRemove (.led id) state))
  | buttonProbe (id : Nat) (kernel : ButtonKernel) (unbound : state.bound (.button id) = none)
      (fresh : state.Fresh kernel.acquires) :
      Effect state (.buttonProbe id kernel)
        (bind (.button id) (bububuttonProbe (.button id) kernel state))
  | buttonRemove (id : Nat) (stored : Data) (bound : state.bound (.button id) = some stored) :
      Effect state (.buttonRemove id) (unbind (.button id) (bububuttonRemove (.button id) state))
  | buttonIrq (id : Nat) :
      Effect state (.buttonIrq id) { state with
        button := (buttonIrqHandler state.button state.driver).1
        driver := (buttonIrqHandler state.button state.driver).2 }
  | fileOp (ledClass : Option Nat) (devNum : Nat) (op : FileOp) :
      Effect state (.fileOp ledClass devNum op) { state with driver := op.perform state.driver }

theorem step_effect {state next : State} {action : Action}
    (stepped : step state action = some next) : Effect state action next := by
  cases action with
  | ledProbe id node oeValue kernel =>
      simp only [step, Option.ite_none_right_eq_some, Option.some.injEq] at stepped
      obtain ⟨⟨unbound, fresh⟩, result⟩ := stepped
      subst result
      exact Effect.ledProbe id node oeValue kernel unbound fresh
  | ledRemove id =>
      simp only [step, Option.ite_none_left_eq_some, Option.some.injEq] at stepped
      obtain ⟨held, result⟩ := stepped
      obtain ⟨stored, bound⟩ := Option.ne_none_iff_exists'.mp held
      subst result
      exact Effect.ledRemove id stored bound
  | buttonProbe id kernel =>
      simp only [step, Option.ite_none_right_eq_some, Option.some.injEq] at stepped
      obtain ⟨⟨unbound, fresh⟩, result⟩ := stepped
      subst result
      exact Effect.buttonProbe id kernel unbound fresh
  | buttonRemove id =>
      simp only [step, Option.ite_none_left_eq_some, Option.some.injEq] at stepped
      obtain ⟨held, result⟩ := stepped
      obtain ⟨stored, bound⟩ := Option.ne_none_iff_exists'.mp held
      subst result
      exact Effect.buttonRemove id stored bound
  | buttonIrq id =>
      simp only [step, Option.ite_none_left_eq_some, Option.some.injEq] at stepped
      obtain ⟨_, result⟩ := stepped
      subst result
      exact Effect.buttonIrq id
  | fileOp ledClass devNum op =>
      simp only [step, Option.ite_none_left_eq_some, Option.some.injEq] at stepped
      obtain ⟨_, result⟩ := stepped
      subst result
      exact Effect.fileOp ledClass devNum op

section Binding

variable (device : Device) (probed : Int × State)

@[simp] theorem bind_driver : (bind device probed).driver = probed.2.driver := by
  unfold bind
  split_ifs <;> rfl

@[simp] theorem bind_ledger : (bind device probed).ledger = probed.2.ledger := by
  unfold bind
  split_ifs <;> rfl

@[simp] theorem bind_reads : (bind device probed).reads = probed.2.reads := by
  unfold bind
  split_ifs <;> rfl

@[simp] theorem bind_last_led : (bind device probed).lastLed = probed.2.lastLed := by
  unfold bind
  split_ifs <;> rfl

theorem bind_bound_of_success (success : probed.1 = 0) : (bind device probed).bound =
    Function.update probed.2.bound device (some (probed.2.data device)) := by
  simp [bind, success]

theorem bind_bound_of_error (error : probed.1 ≠ 0) :
    (bind device probed).bound = probed.2.bound := by
  simp [bind, error]

end Binding

def FileOp.level : FileOp → Option Bool
  | .ledWrite (some c) _ => writtenLevel c
  | .ledIoctl cmd (some val) _ => if cmd = ledIoctlSetCmd then some (val ≠ 0) else none
  | _ => none

theorem file_op_sets_level (op : FileOp) (driver : Driver) :
    op.perform driver = setGivenLevel op.level driver := by
  cases op with
  | ledOpen => rfl
  | ledRelease => rfl
  | ledRead offset copyOut => rfl
  | ledWrite first len =>
      cases first with
      | none => rfl
      | some c => simp only [FileOp.perform, led_write_first, FileOp.level]
  | ledIoctl cmd user copyOut =>
      simp only [FileOp.perform]
      by_cases set : cmd = ledIoctlSetCmd
      · subst set
        cases user with
        | none => rfl
        | some val =>
            rw [led_ioctl_set]
            simp [FileOp.level, setGivenLevel]
      · have untouched : (LedDriver.ledIoctl cmd user copyOut driver).2.2 = driver := by
          simp only [LedDriver.ledIoctl, set, if_false]
          split_ifs <;> rfl
        rw [untouched]
        cases user with
        | none => rfl
        | some val => simp [FileOp.level, set, setGivenLevel]

theorem set_led_state_writes (a : Bool) (driver : Driver) :
    ∃ write : RegWrite, write.base = driver.led.base ∧
      (setLedState a driver).writes = driver.writes ++ [write] ∧
      (setLedState a driver).led.base = driver.led.base := by
  unfold setLedState Driver.driveLevel Driver.iowrite32 Driver.storeState
  cases a with
  | false => exact ⟨⟨driver.led.base, .clr, driver.led.mask⟩, rfl, rfl, rfl⟩
  | true => exact ⟨⟨driver.led.base, .set, driver.led.mask⟩, rfl, rfl, rfl⟩

/-- What `led_probe` does when the registers cannot be mapped, and when they can. -/
theorem led_probe_cases (device : Device) (node : Node) (oeValue : BitVec 32)
    (kernel : LedKernel) (state : State) :
    (kernel.ofIomap = none ∧ ∃ driver : Driver, driver.led.base = none ∧
      driver.writes = state.driver.writes ∧
      ledProbe device node oeValue kernel state =
        (enomem, { state with driver, lastLed := some (.probe false) })) ∨
    ∃ address write, kernel.ofIomap = some address ∧ ∃ driver : Driver,
      driver.led.base = some address ∧ driver.writes = state.driver.writes ++ [write] ∧
      write.base = some address ∧
      ledProbe device node oeValue kernel state =
        (0, { state with
          driver
          devNum := kernel.devNum state
          ledClass := kernel.classCreate
          reads := state.reads ++ [some address]
          lastLed := some (.probe true)
          ledger := settle device ((kernel.acquires (kernel.devNum state)).map .acquire)
            state.ledger }) := by
  cases mapped : kernel.ofIomap with
  | none =>
      refine Or.inl ⟨rfl, { state.driver with led := { state.driver.led with base := none } },
        rfl, rfl, ?_⟩
      simp [PlatformDrivers.ledProbe, mapped, LedDriver.ledProbe]
  | some address =>
      refine Or.inr ⟨address, _, rfl,
        (LedDriver.ledProbe (some address) node oeValue state.driver).2, rfl, rfl, rfl, ?_⟩
      simp [PlatformDrivers.ledProbe, mapped, LedDriver.ledProbe, State.acquire]

theorem bububutton_probe_cases (device : Device) (kernel : ButtonKernel) (state : State) :
    (gpioIsValid kernel.ofGetNamedGpio = false ∧ kernel.acquires = [] ∧
      bububuttonProbe device kernel state =
        (einval, { state with gpio := kernel.ofGetNamedGpio })) ∨
    (gpioIsValid kernel.ofGetNamedGpio = true ∧
      bububuttonProbe device kernel state =
        (if kernel.requestThreadedIrq then 0 else einval, { state with
          gpio := kernel.ofGetNamedGpio
          irq := kernel.gpioToIrq
          ledger := settle device (kernel.acquires.map .acquire) state.ledger })) := by
  unfold bububuttonProbe State.acquire
  cases valid : gpioIsValid kernel.ofGetNamedGpio with
  | false => exact Or.inl ⟨rfl, by simp [ButtonKernel.acquires, valid], rfl⟩
  | true =>
      refine Or.inr ⟨rfl, ?_⟩
      cases kernel.requestThreadedIrq <;> rfl

/-! One LED and one button for which every kernel call succeeds. -/

def gpio17Node : Node := { bit := some 17, set := some 0x1c, clr := some 0x28, oe := some 4 }

def ledSucceeds : LedKernel where
  ofIomap := some 0x1000
  allocChrdevRegion := some 240
  cdevAdd := true
  classCreate := some 0x2000
  deviceCreate := true

def buttonSucceeds : ButtonKernel where
  ofGetNamedGpio := 27
  gpioRequest := true
  gpioToIrq := 55
  requestThreadedIrq := true

def bothProbed : List Action :=
  [.ledProbe 0 gpio17Node 0 ledSucceeds, .buttonProbe 0 buttonSucceeds]

end LinuxFff.PlatformDrivers
