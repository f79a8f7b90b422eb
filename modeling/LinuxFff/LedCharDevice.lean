import LinuxFff.DeviceRegisters
import LinuxFff.Holdings
import LinuxFff.InitAtomicity
import LinuxFff.LedDriver
import LinuxFff.StepSystem

/-!
# The LED as a character device: `led_char_dev.c`

`led_init` makes the device known to the kernel before it maps the registers of the GPIO bank, so
a file that is opened in between reaches `led_write` with no base address. Here every call of the
kernel in `led_init` is a step of its own, with files being opened, written and closed in between,
over any number of loads and unloads. The bank has the registers of the AM335x: what is written to
the set or the clear register changes those bits of the output that are 1 in it.
-/

namespace LinuxFff.LedCharDevice

open LinuxFff.CString LinuxFff.Holdings LinuxFff.KernelMemory LinuxFff.ResourceLedger
open LinuxFff.StepSystem
open LinuxFff.InitAtomicity (Pointer isErr ptrErr)
open LinuxFff.LedDriver (charZero charOne)

set_option autoImplicit false

structure Gpio where
  oe : BitVec 32
  dataOut : BitVec 32
  deriving DecidableEq

def gpio0_30 : BitVec 32 := 1#32 <<< 30

def gpioOe : Nat := 0x134
def gpioClearDataOut : Nat := 0x190
def gpioSetDataOut : Nat := 0x194

def Gpio.ioread32 (gpio : Gpio) (offset : Nat) : BitVec 32 :=
  if offset = gpioOe then gpio.oe else gpio.dataOut

def Gpio.iowrite32 (gpio : Gpio) (value : BitVec 32) (offset : Nat) : Gpio :=
  if offset = gpioOe then { gpio with oe := value }
  else if offset = gpioClearDataOut then { gpio with dataOut := gpio.dataOut &&& ~~~value }
  else if offset = gpioSetDataOut then { gpio with dataOut := gpio.dataOut ||| value }
  else gpio

inductive Object where
  | region
  | cdev
  | deviceClass
  | device
  | mapping
  deriving DecidableEq

/-- Where `led_init` is; `hasDevice` is whether `device_create`, which it does not check, has made
a device. -/
inductive Stage where
  | unloaded
  | registering
  | adding
  | creatingClass
  | creatingDevice
  | mapping (hasDevice : Bool)
  | configuring (hasDevice : Bool)
  | live (hasDevice : Bool)
  deriving DecidableEq

/-- `opened` counts the open files, `faulted` is whether a register has been written through a
base address that is not mapped. `results` is what the loads have returned and `levels` what the
pin has been set to; no step reads them. -/
structure State where
  stage : Stage
  log : List (Use Object)
  gpio : Gpio
  opened : Nat
  faulted : Bool
  results : List Int
  levels : List Bool

def unloaded (gpio : Gpio) : State := ⟨.unloaded, [], gpio, 0, false, [], []⟩

/-- The calls of `led_init` with what the kernel returns, the file operations, and `led_exit`. -/
inductive Action where
  | insmod
  | allocChrdevRegion (ret : Int)
  | cdevAdd (ret : Int)
  | classCreate (pointer : Pointer)
  | deviceCreate (pointer : Pointer)
  | ioremap (base : Pointer)
  | configure
  | openFile
  | write (buf : Bytes) (count : Nat) (copied : Bool)
  | closeFile
  | rmmod

/-- `led_write`: what it returns, and the level that it sets. -/
def ledWrite (buf : Bytes) (count : Nat) (copied : Bool) : Int × Option Bool :=
  if count < 1 ∨ 2 < count then (einval, none)
  else if !copied then (efault, none)
  else
    let kbuf := buf.take count ++ [0, 0]
    if kbuf.head? = some charOne then (count, some true)
    else if kbuf.head? = some charZero then (count, some false)
    else (einval, none)

def Gpio.drive (gpio : Gpio) (level : Bool) : Gpio :=
  gpio.iowrite32 gpio0_30 (if level then gpioSetDataOut else gpioClearDataOut)

/-- `v = ioread32 (...); v &= ~GPIO0_30; iowrite32 (v, ...)`. -/
def Gpio.makeOutput (gpio : Gpio) : Gpio :=
  gpio.iowrite32 (gpio.ioread32 gpioOe &&& ~~~gpio0_30) gpioOe

def Stage.mapped : Stage → Bool
  | .configuring _ => true
  | .live _ => true
  | _ => false

/-- The device number leads to the cdev, and the module is not going. -/
def Stage.published : Stage → Bool
  | .unloaded => false
  | .registering => false
  | .adding => false
  | _ => true

def State.fail (state : State) (log : List (Use Object)) (code : Int) : State :=
  { state with stage := .unloaded, log, results := state.results ++ [code] }

/-- The clean-up from `device_destroy` on. -/
def destroyAll (log : List (Use Object)) : List (Use Object) :=
  release (release (release (releaseAny () log .device) .deviceClass) .cdev) .region

def step (state : State) : Action → Option State
  | .insmod => if state.stage = .unloaded then some { state with stage := .registering } else none
  | .allocChrdevRegion ret =>
      if state.stage = .registering then
        if ret ≠ 0 then some (state.fail state.log (-1))
        else some { state with stage := .adding, log := acquire state.log .region }
      else none
  | .cdevAdd ret =>
      if state.stage = .adding then
        if ret ≠ 0 then some (state.fail (release state.log .region) (-1))
        else some { state with stage := .creatingClass, log := acquire state.log .cdev }
      else none
  | .classCreate pointer =>
      if state.stage = .creatingClass then
        if isErr pointer then
          some (state.fail (release (release state.log .cdev) .region) (ptrErr pointer))
        else some { state with stage := .creatingDevice, log := acquire state.log .deviceClass }
      else none
  | .deviceCreate pointer =>
      if state.stage = .creatingDevice then
        if isErr pointer then some { state with stage := .mapping false }
        else some { state with stage := .mapping true, log := acquire state.log .device }
      else none
  | .ioremap base =>
      match state.stage with
      | .mapping hasDevice =>
          if base = 0 then some (state.fail (destroyAll state.log) enomem)
          else some { state with
            stage := .configuring hasDevice, log := acquire state.log .mapping }
      | _ => none
  | .configure =>
      match state.stage with
      | .configuring hasDevice =>
          some { state with
            stage := .live hasDevice
            gpio := state.gpio.makeOutput
            results := state.results ++ [0] }
      | _ => none
  | .openFile => if state.stage.published then some { state with opened := state.opened + 1 } else none
  | .write buf count copied =>
      if 0 < state.opened then
        match (ledWrite buf count copied).2 with
        | none => some state
        | some level =>
            if state.stage.mapped then
              some { state with gpio := state.gpio.drive level, levels := state.levels ++ [level] }
            else some { state with faulted := true }
      else none
  | .closeFile => if 0 < state.opened then some { state with opened := state.opened - 1 } else none
  | .rmmod =>
      match state.stage with
      | .live _ =>
          -- the files that are open keep the module
          if state.opened = 0 then
            some { state with
              stage := .unloaded
              log := destroyAll (release state.log .mapping)
              gpio := state.gpio.drive false
              levels := state.levels ++ [false] }
          else none
      | _ => none

/-- What the module has at each point of `led_init`, and while it is loaded. -/
def Stage.held : Stage → List Object
  | .unloaded => []
  | .registering => []
  | .adding => [.region]
  | .creatingClass => [.cdev, .region]
  | .creatingDevice => [.deviceClass, .cdev, .region]
  | .mapping hasDevice => deviceIf hasDevice
  | .configuring hasDevice => .mapping :: deviceIf hasDevice
  | .live hasDevice => .mapping :: deviceIf hasDevice
where
  deviceIf (hasDevice : Bool) : List Object :=
    if hasDevice then [.device, .deviceClass, .cdev, .region] else [.deviceClass, .cdev, .region]

def Stage.ready : Stage → Bool
  | .live _ => true
  | _ => false

/-- Nobody opens the device before `led_init` has returned. -/
def Patient (state : State) : Action → Prop
  | .openFile => state.stage.ready = true
  | _ => True

instance decidablePatient (state : State) (action : Action) : Decidable (Patient state action) := by
  unfold Patient
  cases action <;> infer_instance

def ledInit : List Action :=
  [.insmod, .allocChrdevRegion 0, .cdevAdd 0, .classCreate 0xffff888003a41000,
    .deviceCreate 0xffff888003b00000, .ioremap 0xffffc90000c07000, .configure]

/-- A file that is opened and written before the registers are mapped. -/
example : ((run step (unloaded ⟨0xffffffff, 0⟩)
    (ledInit.take 5 ++ [.openFile, .write [charOne] 1 true])).map State.faulted) = some true := by
  decide +kernel

section Registers

variable {gpio : Gpio} {pin : Nat}

theorem drive_bit (level : Bool) (inWord : pin < 32) :
    (gpio.drive level).dataOut.getLsbD pin =
      if pin = 30 then level else gpio.dataOut.getLsbD pin := by
  have mask : gpio0_30.getLsbD pin = decide (pin = 30) := DeviceRegisters.one_shift_bit inWord
  cases level with
  | true =>
      have driven : (gpio.drive true).dataOut = gpio.dataOut ||| gpio0_30 := rfl
      rw [driven, BitVec.getLsbD_or, mask]
      by_cases own : pin = 30 <;> simp [own]
  | false =>
      have driven : (gpio.drive false).dataOut = gpio.dataOut &&& ~~~gpio0_30 := rfl
      rw [driven, BitVec.getLsbD_and, BitVec.getLsbD_not, mask]
      by_cases own : pin = 30 <;> simp [own, inWord]

theorem drive_oe (level : Bool) : (gpio.drive level).oe = gpio.oe := by
  cases level <;> rfl

theorem make_output_bit (inWord : pin < 32) :
    gpio.makeOutput.oe.getLsbD pin = (gpio.oe.getLsbD pin && !decide (pin = 30)) := by
  have mask : gpio0_30.getLsbD pin = decide (pin = 30) := DeviceRegisters.one_shift_bit inWord
  have made : gpio.makeOutput.oe = gpio.oe &&& ~~~gpio0_30 := rfl
  rw [made, BitVec.getLsbD_and, BitVec.getLsbD_not, mask]
  simp [inWord]

theorem make_output_data : gpio.makeOutput.dataOut = gpio.dataOut := rfl

end Registers

def lastLevel (start : Gpio) (levels : List Bool) : Bool :=
  levels.getLast?.getD (start.dataOut.getLsbD 30)

/-- The bank is as at the start but for pin 30, which has the level set last, and is an output
while the module is loaded. -/
structure Driven (start : Gpio) (state : State) : Prop where
  oe : ∀ pin < 32, pin ≠ 30 → state.gpio.oe.getLsbD pin = start.oe.getLsbD pin
  dataOut : ∀ pin < 32, pin ≠ 30 → state.gpio.dataOut.getLsbD pin = start.dataOut.getLsbD pin
  level : state.gpio.dataOut.getLsbD 30 = lastLevel start state.levels
  output : state.stage.ready = true → state.gpio.oe.getLsbD 30 = false

structure Accounted (start : Gpio) (state : State) : Prop where
  holding : Holding () state.stage.held state.log
  driven : Driven start state

section Steps

variable {start : Gpio} {state next : State} {action : Action}

theorem accounted_unloaded (gpio : Gpio) : Accounted gpio (unloaded gpio) where
  holding := holding_nil
  driven := by
    refine ⟨fun _ _ _ => rfl, fun _ _ _ => rfl, rfl, ?_⟩
    intro impossible
    cases impossible

theorem Driven.keep (driven : Driven start state) (gpio : next.gpio = state.gpio)
    (levels : next.levels = state.levels)
    (ready : next.stage.ready = true → state.stage.ready = true) : Driven start next where
  oe := gpio ▸ driven.oe
  dataOut := gpio ▸ driven.dataOut
  level := by
    rw [gpio, levels]
    exact driven.level
  output := by
    rw [gpio]
    exact fun loaded => driven.output (ready loaded)

theorem Driven.set (driven : Driven start state) (level : Bool)
    (gpio : next.gpio = state.gpio.drive level) (levels : next.levels = state.levels ++ [level])
    (ready : next.stage.ready = true → state.stage.ready = true) : Driven start next where
  oe := by
    rw [gpio, drive_oe]
    exact driven.oe
  dataOut := by
    intro pin inWord other
    rw [gpio, drive_bit level inWord, if_neg other]
    exact driven.dataOut pin inWord other
  level := by
    rw [gpio, drive_bit level (by decide), levels]
    simp [lastLevel]
  output := by
    rw [gpio, drive_oe]
    exact fun loaded => driven.output (ready loaded)

theorem Driven.configure (driven : Driven start state) (gpio : next.gpio = state.gpio.makeOutput)
    (levels : next.levels = state.levels) : Driven start next where
  oe := by
    intro pin inWord other
    rw [gpio, make_output_bit inWord, decide_eq_false other]
    simpa using driven.oe pin inWord other
  dataOut := by
    rw [gpio, make_output_data]
    exact driven.dataOut
  level := by
    rw [gpio, make_output_data, levels]
    exact driven.level
  output := by
    intro _
    rw [gpio, make_output_bit (by decide)]
    simp

theorem destroy_all {hasDevice : Bool} {log : List (Use Object)}
    (holding : Holding () (Stage.held.deviceIf hasDevice) log) :
    Holding () [] (destroyAll log) := by
  have rest : Holding () [Object.deviceClass, .cdev, .region] (releaseAny () log .device) := by
    cases hasDevice with
    | true => exact holding.release_present
    | false => exact holding.release_absent (by decide)
  exact rest.release.release.release

theorem accounted_step (accounted : Accounted start state)
    (stepped : step state action = some next) : Accounted start next := by
  have ⟨holding, driven⟩ := accounted
  cases action with
  | insmod =>
      simp only [step, Option.ite_none_right_eq_some, Option.some.injEq] at stepped
      obtain ⟨here, rfl⟩ := stepped
      rw [here] at holding
      exact ⟨holding, driven.keep rfl rfl (by simp [Stage.ready])⟩
  | allocChrdevRegion ret =>
      simp only [step, Option.ite_none_right_eq_some] at stepped
      obtain ⟨here, stepped⟩ := stepped
      rw [here] at holding
      split at stepped
      · cases stepped
        exact ⟨holding, driven.keep rfl rfl (by simp [State.fail, Stage.ready])⟩
      · cases stepped
        exact ⟨holding.acquire (by decide), driven.keep rfl rfl (by simp [Stage.ready])⟩
  | cdevAdd ret =>
      simp only [step, Option.ite_none_right_eq_some] at stepped
      obtain ⟨here, stepped⟩ := stepped
      rw [here] at holding
      split at stepped
      · cases stepped
        exact ⟨holding.release, driven.keep rfl rfl (by simp [State.fail, Stage.ready])⟩
      · cases stepped
        exact ⟨holding.acquire (by decide), driven.keep rfl rfl (by simp [Stage.ready])⟩
  | classCreate pointer =>
      simp only [step, Option.ite_none_right_eq_some] at stepped
      obtain ⟨here, stepped⟩ := stepped
      rw [here] at holding
      split at stepped
      · cases stepped
        exact ⟨holding.release.release, driven.keep rfl rfl (by simp [State.fail, Stage.ready])⟩
      · cases stepped
        exact ⟨holding.acquire (by decide), driven.keep rfl rfl (by simp [Stage.ready])⟩
  | deviceCreate pointer =>
      simp only [step, Option.ite_none_right_eq_some] at stepped
      obtain ⟨here, stepped⟩ := stepped
      rw [here] at holding
      split at stepped
      · cases stepped
        exact ⟨holding, driven.keep rfl rfl (by simp [Stage.ready])⟩
      · cases stepped
        exact ⟨holding.acquire (by decide), driven.keep rfl rfl (by simp [Stage.ready])⟩
  | ioremap base =>
      simp only [step] at stepped
      split at stepped
      case h_1 hasDevice here =>
        rw [here] at holding
        split at stepped
        · cases stepped
          exact ⟨destroy_all holding, driven.keep rfl rfl (by simp [State.fail, Stage.ready])⟩
        · cases stepped
          refine ⟨holding.acquire ?_, driven.keep rfl rfl (by simp [Stage.ready])⟩
          cases hasDevice <;> decide
      case h_2 => cases stepped
  | configure =>
      simp only [step] at stepped
      split at stepped
      case h_1 hasDevice here =>
        rw [here] at holding
        cases stepped
        exact ⟨holding, driven.configure rfl rfl⟩
      case h_2 => cases stepped
  | openFile =>
      simp only [step, Option.ite_none_right_eq_some, Option.some.injEq] at stepped
      obtain ⟨_, rfl⟩ := stepped
      exact ⟨holding, driven.keep rfl rfl id⟩
  | write buf count copied =>
      simp only [step, Option.ite_none_right_eq_some] at stepped
      obtain ⟨_, stepped⟩ := stepped
      split at stepped
      case h_1 =>
        cases stepped
        exact accounted
      case h_2 level _ =>
        split at stepped
        · cases stepped
          exact ⟨holding, driven.set level rfl rfl id⟩
        · cases stepped
          exact ⟨holding, driven.keep rfl rfl id⟩
  | closeFile =>
      simp only [step, Option.ite_none_right_eq_some, Option.some.injEq] at stepped
      obtain ⟨_, rfl⟩ := stepped
      exact ⟨holding, driven.keep rfl rfl id⟩
  | rmmod =>
      simp only [step] at stepped
      split at stepped
      case h_1 hasDevice here =>
        simp only [Option.ite_none_right_eq_some, Option.some.injEq] at stepped
        obtain ⟨_, rfl⟩ := stepped
        rw [here] at holding
        exact ⟨destroy_all holding.release, driven.set false rfl rfl (by simp [Stage.ready])⟩
      case h_2 => cases stepped

/-- Only a loaded module has open files, and no register has been written without a mapping. -/
structure Safe (state : State) : Prop where
  opened : 0 < state.opened → state.stage.ready = true
  faulted : state.faulted = false

theorem Safe.closed (safe : Safe state) (early : state.stage.ready = false) : state.opened = 0 := by
  by_contra positive
  have ready := safe.opened (Nat.pos_of_ne_zero positive)
  rw [early] at ready
  cases ready

theorem Safe.move (safe : Safe state) (early : state.stage.ready = false)
    (opened : next.opened = state.opened) (faulted : next.faulted = state.faulted) : Safe next where
  opened := by
    rw [opened, safe.closed early]
    intro impossible
    cases impossible
  faulted := faulted.trans safe.faulted

theorem safe_step (safe : Safe state) (patient : Patient state action)
    (stepped : step state action = some next) : Safe next := by
  cases action with
  | insmod =>
      simp only [step, Option.ite_none_right_eq_some, Option.some.injEq] at stepped
      obtain ⟨here, rfl⟩ := stepped
      exact safe.move (by rw [here]; rfl) rfl rfl
  | allocChrdevRegion ret =>
      simp only [step, Option.ite_none_right_eq_some] at stepped
      obtain ⟨here, stepped⟩ := stepped
      split at stepped <;> cases stepped <;> exact safe.move (by rw [here]; rfl) rfl rfl
  | cdevAdd ret =>
      simp only [step, Option.ite_none_right_eq_some] at stepped
      obtain ⟨here, stepped⟩ := stepped
      split at stepped <;> cases stepped <;> exact safe.move (by rw [here]; rfl) rfl rfl
  | classCreate pointer =>
      simp only [step, Option.ite_none_right_eq_some] at stepped
      obtain ⟨here, stepped⟩ := stepped
      split at stepped <;> cases stepped <;> exact safe.move (by rw [here]; rfl) rfl rfl
  | deviceCreate pointer =>
      simp only [step, Option.ite_none_right_eq_some] at stepped
      obtain ⟨here, stepped⟩ := stepped
      split at stepped <;> cases stepped <;> exact safe.move (by rw [here]; rfl) rfl rfl
  | ioremap base =>
      simp only [step] at stepped
      split at stepped
      case h_1 hasDevice here =>
        split at stepped <;> cases stepped <;> exact safe.move (by rw [here]; rfl) rfl rfl
      case h_2 => cases stepped
  | configure =>
      simp only [step] at stepped
      split at stepped
      case h_1 hasDevice here =>
        cases stepped
        exact ⟨fun _ => rfl, safe.faulted⟩
      case h_2 => cases stepped
  | openFile =>
      simp only [step, Option.ite_none_right_eq_some, Option.some.injEq] at stepped
      obtain ⟨_, rfl⟩ := stepped
      exact ⟨fun _ => patient, safe.faulted⟩
  | write buf count copied =>
      simp only [step, Option.ite_none_right_eq_some] at stepped
      obtain ⟨positive, stepped⟩ := stepped
      have mapped : state.stage.mapped = true := by
        have ready := safe.opened positive
        cases here : state.stage <;> simp_all [Stage.ready, Stage.mapped]
      split at stepped
      case h_1 =>
        cases stepped
        exact safe
      case h_2 level _ =>
        rw [if_pos mapped] at stepped
        cases stepped
        exact ⟨safe.opened, safe.faulted⟩
  | closeFile =>
      simp only [step, Option.ite_none_right_eq_some, Option.some.injEq] at stepped
      obtain ⟨positive, rfl⟩ := stepped
      exact ⟨fun _ => safe.opened positive, safe.faulted⟩
  | rmmod =>
      simp only [step] at stepped
      split at stepped
      case h_1 hasDevice here =>
        simp only [Option.ite_none_right_eq_some, Option.some.injEq] at stepped
        obtain ⟨closed, rfl⟩ := stepped
        refine ⟨?_, safe.faulted⟩
        intro positive
        change 0 < state.opened at positive
        omega
      case h_2 => cases stepped

end Steps

/-- Over any number of loads and unloads, whatever the kernel answers and however files are
opened, written and closed in between: the module has acquired and released its resources
properly and has those of the point where it is, none when it is not loaded; of the GPIO bank
only pin 30 changes, which has the level that a write or an unload has set last and is an output
while the module is loaded; and when nobody opens the device before `led_init` has returned, no
register is written without a mapping. -/
theorem loads_and_writes (gpio : Gpio) (actions : List Action) (state : State)
    (ran : run step (unloaded gpio) actions = some state) :
    Proper () state.log free ∧
      (∀ object, settle () state.log free object = some () ↔ object ∈ state.stage.held) ∧
      Driven gpio state ∧
      (Meets step Patient (unloaded gpio) actions → state.faulted = false) := by
  have accounted : Accounted gpio state :=
    run_keeps_always (fun _ _ _ holds stepped => accounted_step holds stepped)
      (accounted_unloaded gpio) ran
  refine ⟨accounted.holding.proper, fun object => accounted.holding.holds_iff,
    accounted.driven, ?_⟩
  intro patient
  have start : Safe (unloaded gpio) := by
    refine ⟨?_, rfl⟩
    intro impossible
    cases impossible
  exact (run_keeps (fun _ _ _ holds met stepped => safe_step holds met stepped) start patient
    ran).faulted

/-- The LED is turned on, the module unloaded and loaded again, which fails at `ioremap`. -/
def onAndUnloaded : List Action :=
  ledInit ++ [.openFile, .write [charOne, 10] 2 true, .closeFile, .rmmod] ++
    [.insmod, .allocChrdevRegion 0, .cdevAdd 0, .classCreate 0xffff888003a41000,
      .deviceCreate (BitVec.ofInt 64 (-12)), .ioremap 0]

theorem loads_and_writes_on_and_unloaded :
    ∃ state, run step (unloaded ⟨0xffffffff, 0⟩) onAndUnloaded = some state ∧
      state.levels = [true, false] ∧ state.results = [0, enomem] ∧
      state.gpio = ⟨0xbfffffff, 0⟩ ∧ state.faulted = false ∧
      ∀ object, settle () state.log free object = some () ↔ object ∈ state.stage.held := by
  have observed : ((run step (unloaded ⟨0xffffffff, 0⟩) onAndUnloaded).map fun state =>
      (state.levels, state.results, state.gpio)) =
        some ([true, false], [0, enomem], ⟨0xbfffffff, 0⟩) := by
    decide +kernel
  obtain ⟨state, ran, seen⟩ := Option.map_eq_some_iff.mp observed
  simp only [Prod.mk.injEq] at seen
  obtain ⟨levels, results, gpio⟩ := seen
  have patient : Meets step Patient (unloaded ⟨0xffffffff, 0⟩) onAndUnloaded := by
    decide +kernel
  obtain ⟨_, held, _, safe⟩ := loads_and_writes _ onAndUnloaded state ran
  exact ⟨state, ran, levels, results, gpio, safe patient, held⟩

end LinuxFff.LedCharDevice
