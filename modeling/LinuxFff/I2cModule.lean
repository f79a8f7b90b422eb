import LinuxFff.Holdings
import LinuxFff.I2cSender
import LinuxFff.InitAtomicity

/-!
# Loading and unloading `i2c_test.c`

`i2c_api_sender_init` gets the I2C adapter, makes the character device and starts the sender
thread, and `i2c_api_sender_exit` stops the thread before it puts the adapter back. Every call of
the kernel is a step, the thread goes on between them, and so do the calls from user space. The
look at `kthread_should_stop` is a step of its own, so that the stop may come between it and
the transfer.
-/

namespace LinuxFff.I2cModule

open LinuxFff.Holdings LinuxFff.I2cValue LinuxFff.ResourceLedger LinuxFff.StepSystem
open LinuxFff.I2cSender (Tracks latestSent tracks_step tracks_started)
open LinuxFff.InitAtomicity (Pointer isErr ptrErr)

set_option autoImplicit false

inductive Object where
  | adapter
  | region
  | cdev
  | deviceClass
  | device
  deriving DecidableEq

/-- Where `i2c_api_sender_init` or `i2c_api_sender_exit` is; `hasDevice` is whether
`device_create` has made a device. -/
inductive Stage where
  | unloaded
  | gettingAdapter
  | registering
  | adding
  | creatingClass
  | creatingDevice
  | startingThread (hasDevice : Bool)
  | live (hasDevice : Bool)
  | stopping (hasDevice : Bool)
  deriving DecidableEq

/-- `sender` has `last_sent_value` and the thread, `checked` is whether the thread has looked and
goes on. `faulted` is whether a transfer has used an adapter that is not held, `sinceStop` what
the thread has done since it was told to stop; no step reads them. -/
structure State where
  stage : Stage
  log : List (Use Object)
  sender : I2cSender.State
  checked : Bool
  opened : Nat
  faulted : Bool
  sinceStop : Nat
  results : List Int

def unloaded : State := ⟨.unloaded, [], I2cSender.started, false, 0, false, 0, []⟩

inductive Action where
  | insmod
  | i2cGetAdapter (found : Bool)
  | allocChrdevRegion (ret : Int)
  | cdevAdd (ret : Int)
  | classCreate (pointer : Pointer)
  | deviceCreate (pointer : Pointer)
  | kthreadRun (pointer : Pointer)
  | check
  | transfer (ret : Int)
  | store
  | openFile
  | ioctl (cmd : BitVec 32) (copied : Bool)
  | read (request : Request) (ppos : Int)
  | closeFile
  | rmmod
  | release

def enodev : Int := -19

def Stage.running : Stage → Bool
  | .live _ => true
  | .stopping _ => true
  | _ => false

def Stage.isStopping : Stage → Bool
  | .stopping _ => true
  | _ => false

/-- The device number leads to the cdev, and the module is not going. -/
def Stage.published : Stage → Bool
  | .creatingClass => true
  | .creatingDevice => true
  | .startingThread _ => true
  | .live _ => true
  | _ => false

/-- `device_destroy` to `unregister_chrdev_region`. -/
def destroyAll (log : List (Use Object)) : List (Use Object) :=
  Holdings.release (Holdings.release (Holdings.release (releaseAny () log .device) .deviceClass)
    .cdev) .region

def State.onThread (state : State) (action : I2cSender.Action) (checked : Bool) : Option State :=
  (I2cSender.step state.sender action).map fun sender =>
    { state with
      sender
      checked
      sinceStop := state.sinceStop + if state.stage.isStopping = true then 1 else 0 }

def step (state : State) : Action → Option State
  | .insmod =>
      if state.stage = .unloaded then
        some { state with stage := .gettingAdapter, sender := I2cSender.started, checked := false }
      else none
  | .i2cGetAdapter found =>
      if state.stage = .gettingAdapter then
        if found then
          some { state with stage := .registering, log := acquire state.log .adapter }
        else some { state with stage := .unloaded, results := state.results ++ [enodev] }
      else none
  | .allocChrdevRegion ret =>
      if state.stage = .registering then
        -- nobody looks at `ret`, here and in the next three calls
        some { state with
          stage := .adding
          log := if ret = 0 then acquire state.log .region else state.log }
      else none
  | .cdevAdd ret =>
      if state.stage = .adding then
        some { state with
          stage := .creatingClass
          log := if ret = 0 then acquire state.log .cdev else state.log }
      else none
  | .classCreate pointer =>
      if state.stage = .creatingClass then
        some { state with
          stage := .creatingDevice
          log := if isErr pointer then state.log else acquire state.log .deviceClass }
      else none
  | .deviceCreate pointer =>
      if state.stage = .creatingDevice then
        some { state with
          stage := .startingThread (!isErr pointer)
          log := if isErr pointer then state.log else acquire state.log .device }
      else none
  | .kthreadRun pointer =>
      match state.stage with
      | .startingThread hasDevice =>
          if isErr pointer then
            some { state with
              stage := .unloaded
              log := Holdings.release (destroyAll state.log) .adapter
              results := state.results ++ [ptrErr pointer] }
          else some { state with stage := .live hasDevice, results := state.results ++ [0] }
      | _ => none
  | .check =>
      if state.stage.running = true ∧ state.checked = false then
        if state.stage.isStopping = true then state.onThread .stop false
        else if state.sender.phase = .looping then some { state with checked := true }
        else none
      else none
  | .transfer ret =>
      if state.stage.running = true ∧ state.checked = true then
        (state.onThread (.transfer ret) false).map fun next =>
          { next with
            faulted := state.faulted || decide (settle () state.log free .adapter ≠ some ()) }
      else none
  | .store => if state.stage.running = true then state.onThread .store state.checked else none
  | .openFile => if state.stage.published then some { state with opened := state.opened + 1 } else none
  | .ioctl cmd copied =>
      if 0 < state.opened then
        (I2cSender.step state.sender (.ioctl cmd copied)).map fun sender => { state with sender }
      else none
  | .read request ppos =>
      if 0 < state.opened then
        (I2cSender.step state.sender (.read request ppos)).map fun sender => { state with sender }
      else none
  | .closeFile => if 0 < state.opened then some { state with opened := state.opened - 1 } else none
  | .rmmod =>
      match state.stage with
      | .live hasDevice =>
          if state.opened = 0 then
            some { state with stage := .stopping hasDevice, sinceStop := 0 }
          else none
      | _ => none
  | .release =>
      -- `kthread_stop` has returned
      if state.stage.isStopping = true ∧ state.sender.phase = .stopped then
        some { state with
          stage := .unloaded
          log := destroyAll (Holdings.release state.log .adapter) }
      else none

/-- The calls that `i2c_api_sender_init` does not check do what they are asked for. -/
def Obtained (_ : State) : Action → Prop
  | .allocChrdevRegion ret => ret = 0
  | .cdevAdd ret => ret = 0
  | .classCreate pointer => isErr pointer = false
  | _ => True

instance decidableObtained (state : State) (action : Action) : Decidable (Obtained state action) := by
  unfold Obtained
  cases action <;> infer_instance

/-- What the module has at each point. -/
def Stage.held : Stage → List Object
  | .unloaded => []
  | .gettingAdapter => []
  | .registering => [.adapter]
  | .adding => [.region, .adapter]
  | .creatingClass => [.cdev, .region, .adapter]
  | .creatingDevice => [.deviceClass, .cdev, .region, .adapter]
  | .startingThread hasDevice => everything hasDevice
  | .live hasDevice => everything hasDevice
  | .stopping hasDevice => everything hasDevice
where
  everything (hasDevice : Bool) : List Object :=
    if hasDevice then [.device, .deviceClass, .cdev, .region, .adapter]
    else [.deviceClass, .cdev, .region, .adapter]

/-- The steps of the thread before it ends, once it has been told to stop. -/
def stepsLeft (state : State) : Nat :=
  match state.sender.phase with
  | .looping => if state.checked = true then 3 else 1
  | .returned _ => 2
  | .stopped => 0

structure Accounted (state : State) : Prop where
  holding : Holding () state.stage.held state.log
  unfaulted : state.faulted = false
  tracks : Tracks state.sender
  looping : state.checked = true → state.sender.phase = .looping
  soon : state.stage.isStopping = true → state.sinceStop + stepsLeft state ≤ 3

section Steps

variable {state next : State} {action : Action} {hasDevice : Bool}

theorem accounted_unloaded : Accounted unloaded where
  holding := holding_nil
  unfaulted := rfl
  tracks := tracks_started
  looping := by
    intro impossible
    cases impossible
  soon := by
    intro impossible
    cases impossible

/-- The clean-up of the character device; the adapter stays. -/
theorem destroy_all {held : List Object} {log : List (Use Object)}
    (holding : Holding () ((if hasDevice then [Object.device, .deviceClass, .cdev, .region]
      else [.deviceClass, .cdev, .region]) ++ held) log)
    (absent : Object.device ∉ held) : Holding () held (destroyAll log) := by
  have rest : Holding () ([Object.deviceClass, .cdev, .region] ++ held)
      (releaseAny () log .device) := by
    cases hasDevice with
    | true => exact holding.release_present
    | false => exact holding.release_absent (by simpa using absent)
  exact rest.release.release.release

theorem init_releases {log : List (Use Object)}
    (holding : Holding () (Stage.held.everything hasDevice) log) :
    Holding () [] (Holdings.release (destroyAll log) .adapter) := by
  have split : Holding () ((if hasDevice then [Object.device, .deviceClass, .cdev, .region]
      else [.deviceClass, .cdev, .region]) ++ [.adapter]) log := by
    cases hasDevice <;> exact holding
  exact (destroy_all split (by decide)).release

theorem exit_releases {log : List (Use Object)}
    (holding : Holding () (Stage.held.everything hasDevice) log) :
    Holding () [] (destroyAll (Holdings.release log .adapter)) := by
  have first : Holding () (.adapter :: ((if hasDevice then
      [Object.device, .deviceClass, .cdev, .region]
      else [.deviceClass, .cdev, .region]) ++ [])) log := by
    refine holding.perm ?_
    cases hasDevice <;> decide
  exact destroy_all first.release (by simp)

theorem adapter_held (holding : Holding () state.stage.held state.log)
    (running : state.stage.running = true) :
    settle () state.log free .adapter = some () := by
  refine holding.holds_iff.mpr ?_
  cases here : state.stage with
  | live hasDevice => cases hasDevice <;> decide
  | stopping hasDevice => cases hasDevice <;> decide
  | _ => simp [here, Stage.running] at running

theorem Accounted.move (accounted : Accounted state)
    (holding : Holding () next.stage.held next.log) (sender : next.sender = state.sender)
    (checked : next.checked = state.checked) (faulted : next.faulted = state.faulted)
    (going : next.stage.isStopping = false) : Accounted next where
  holding := holding
  unfaulted := faulted.trans accounted.unfaulted
  tracks := sender ▸ accounted.tracks
  looping := by
    rw [checked, sender]
    exact accounted.looping
  soon := by
    intro stopping
    rw [going] at stopping
    cases stopping

theorem on_thread_cases {threadAction : I2cSender.Action} {checked : Bool}
    (stepped : state.onThread threadAction checked = some next) :
    ∃ sender, I2cSender.step state.sender threadAction = some sender ∧
      next = { state with
        sender
        checked
        sinceStop := state.sinceStop + if state.stage.isStopping = true then 1 else 0 } := by
  unfold State.onThread at stepped
  obtain ⟨sender, senderStep, same⟩ := Option.map_eq_some_iff.mp stepped
  exact ⟨sender, senderStep, same.symm⟩

theorem Accounted.sender (accounted : Accounted state) (tracks : Tracks next.sender)
    (stage : next.stage = state.stage) (log : next.log = state.log)
    (faulted : next.faulted = state.faulted)
    (looping : next.checked = true → next.sender.phase = .looping)
    (soon : state.stage.isStopping = true → next.sinceStop + stepsLeft next ≤ 3) :
    Accounted next where
  holding := by
    rw [stage, log]
    exact accounted.holding
  unfaulted := faulted.trans accounted.unfaulted
  tracks := tracks
  looping := looping
  soon := by
    rw [stage]
    exact soon

theorem Accounted.call {sender : I2cSender.State} (accounted : Accounted state)
    (tracks : Tracks sender) (phase : sender.phase = state.sender.phase) :
    Accounted { state with sender } := by
  refine accounted.sender tracks rfl rfl rfl ?_ ?_
  · exact fun checked => phase.trans (accounted.looping checked)
  · intro stopping
    have same : stepsLeft { state with sender } = stepsLeft state := by simp [stepsLeft, phase]
    rw [same]
    exact accounted.soon stopping

theorem accounted_step (accounted : Accounted state) (obtained : Obtained state action)
    (stepped : step state action = some next) : Accounted next := by
  have holding := accounted.holding
  cases action with
  | insmod =>
      simp only [step, Option.ite_none_right_eq_some, Option.some.injEq] at stepped
      obtain ⟨here, rfl⟩ := stepped
      rw [here] at holding
      refine ⟨holding, accounted.unfaulted, tracks_started, ?_, ?_⟩
      · intro impossible
        cases impossible
      · intro impossible
        cases impossible
  | i2cGetAdapter found =>
      simp only [step, Option.ite_none_right_eq_some] at stepped
      obtain ⟨here, stepped⟩ := stepped
      rw [here] at holding
      split at stepped
      · cases stepped
        exact accounted.move (holding.acquire (by decide)) rfl rfl rfl rfl
      · cases stepped
        exact accounted.move holding rfl rfl rfl rfl
  | allocChrdevRegion ret =>
      simp only [step, Option.ite_none_right_eq_some, Option.some.injEq] at stepped
      obtain ⟨here, rfl⟩ := stepped
      rw [here] at holding
      refine accounted.move ?_ rfl rfl rfl rfl
      simp only [if_pos (show ret = 0 from obtained)]
      exact holding.acquire (by decide)
  | cdevAdd ret =>
      simp only [step, Option.ite_none_right_eq_some, Option.some.injEq] at stepped
      obtain ⟨here, rfl⟩ := stepped
      rw [here] at holding
      refine accounted.move ?_ rfl rfl rfl rfl
      simp only [if_pos (show ret = 0 from obtained)]
      exact holding.acquire (by decide)
  | classCreate pointer =>
      simp only [step, Option.ite_none_right_eq_some, Option.some.injEq] at stepped
      obtain ⟨here, rfl⟩ := stepped
      rw [here] at holding
      have good : isErr pointer = false := obtained
      refine accounted.move ?_ rfl rfl rfl rfl
      simp only [good, Bool.false_eq_true, if_false]
      exact holding.acquire (by decide)
  | deviceCreate pointer =>
      simp only [step, Option.ite_none_right_eq_some, Option.some.injEq] at stepped
      obtain ⟨here, rfl⟩ := stepped
      rw [here] at holding
      refine accounted.move ?_ rfl rfl rfl rfl
      cases isErr pointer with
      | true => exact holding
      | false => exact holding.acquire (by decide)
  | kthreadRun pointer =>
      simp only [step] at stepped
      split at stepped
      case h_1 hasDevice here =>
        rw [here] at holding
        split at stepped
        · cases stepped
          exact accounted.move (init_releases holding) rfl rfl rfl rfl
        · cases stepped
          exact accounted.move holding rfl rfl rfl rfl
      case h_2 => cases stepped
  | check =>
      simp only [step, Option.ite_none_right_eq_some] at stepped
      obtain ⟨⟨running, unchecked⟩, stepped⟩ := stepped
      split at stepped
      case isTrue stopping =>
        obtain ⟨sender, senderStep, rfl⟩ := on_thread_cases stepped
        have stopped : sender.phase = .stopped := by
          cases I2cSender.step_effect senderStep with
          | stop looping => rfl
        have looping : state.sender.phase = .looping := by
          cases I2cSender.step_effect senderStep with
          | stop looping => exact looping
        refine accounted.sender (tracks_step accounted.tracks senderStep) rfl rfl rfl ?_ ?_
        · intro impossible
          cases impossible
        · intro _
          have soon := accounted.soon stopping
          simp only [stepsLeft, looping, unchecked, Bool.false_eq_true, if_false] at soon
          simp only [stepsLeft, stopped, stopping, if_true]
          omega
      case isFalse going =>
        simp only [Option.ite_none_right_eq_some, Option.some.injEq] at stepped
        obtain ⟨looping, rfl⟩ := stepped
        refine accounted.sender accounted.tracks rfl rfl rfl (fun _ => looping) ?_
        exact fun stopping => absurd stopping going
  | transfer ret =>
      simp only [step, Option.ite_none_right_eq_some] at stepped
      obtain ⟨⟨running, checked⟩, stepped⟩ := stepped
      obtain ⟨middle, threadStep, rfl⟩ := Option.map_eq_some_iff.mp stepped
      obtain ⟨sender, senderStep, rfl⟩ := on_thread_cases threadStep
      have returned : sender.phase = .returned ret := by
        cases I2cSender.step_effect senderStep with
        | transfer _ looping => rfl
      have held := adapter_held holding running
      refine accounted.sender (tracks_step accounted.tracks senderStep) rfl rfl ?_ ?_ ?_
      · simp [held]
      · intro impossible
        cases impossible
      · intro stopping
        have soon := accounted.soon stopping
        simp only [stepsLeft, accounted.looping checked, checked, if_true] at soon
        simp only [stepsLeft, returned, stopping, if_true]
        omega
  | store =>
      simp only [step, Option.ite_none_right_eq_some] at stepped
      obtain ⟨running, stepped⟩ := stepped
      obtain ⟨sender, senderStep, rfl⟩ := on_thread_cases stepped
      obtain ⟨ret, returned⟩ : ∃ ret, state.sender.phase = .returned ret := by
        cases I2cSender.step_effect senderStep with
        | store ret returned => exact ⟨ret, returned⟩
      have looping : sender.phase = .looping := by
        cases I2cSender.step_effect senderStep with
        | store ret returned => rfl
      have unchecked : state.checked = false := by
        by_contra checked
        have here := accounted.looping (by simpa using checked)
        rw [returned] at here
        cases here
      refine accounted.sender (tracks_step accounted.tracks senderStep) rfl rfl rfl
        (fun _ => looping) ?_
      intro stopping
      have soon := accounted.soon stopping
      simp only [stepsLeft, returned] at soon
      simp only [stepsLeft, looping, unchecked, Bool.false_eq_true, if_false, stopping, if_true]
      omega
  | openFile =>
      simp only [step, Option.ite_none_right_eq_some, Option.some.injEq] at stepped
      obtain ⟨_, rfl⟩ := stepped
      exact accounted.sender accounted.tracks rfl rfl rfl accounted.looping accounted.soon
  | ioctl cmd copied =>
      simp only [step, Option.ite_none_right_eq_some] at stepped
      obtain ⟨_, stepped⟩ := stepped
      obtain ⟨sender, senderStep, rfl⟩ := Option.map_eq_some_iff.mp stepped
      refine accounted.call (tracks_step accounted.tracks senderStep) ?_
      cases senderStep
      rfl
  | read request ppos =>
      simp only [step, Option.ite_none_right_eq_some] at stepped
      obtain ⟨_, stepped⟩ := stepped
      obtain ⟨sender, senderStep, rfl⟩ := Option.map_eq_some_iff.mp stepped
      refine accounted.call (tracks_step accounted.tracks senderStep) ?_
      cases senderStep
      rfl
  | closeFile =>
      simp only [step, Option.ite_none_right_eq_some, Option.some.injEq] at stepped
      obtain ⟨_, rfl⟩ := stepped
      exact accounted.sender accounted.tracks rfl rfl rfl accounted.looping accounted.soon
  | rmmod =>
      simp only [step] at stepped
      split at stepped
      case h_1 hasDevice here =>
        simp only [Option.ite_none_right_eq_some, Option.some.injEq] at stepped
        obtain ⟨_, rfl⟩ := stepped
        rw [here] at holding
        refine ⟨holding, accounted.unfaulted, accounted.tracks, accounted.looping, ?_⟩
        intro _
        simp only [stepsLeft]
        split
        · split <;> decide
        · decide
        · decide
      case h_2 => cases stepped
  | release =>
      simp only [step, Option.ite_none_right_eq_some, Option.some.injEq] at stepped
      obtain ⟨⟨stopping, stopped⟩, rfl⟩ := stepped
      obtain ⟨hasDevice, here⟩ : ∃ hasDevice, state.stage = .stopping hasDevice := by
        cases here : state.stage with
        | stopping hasDevice => exact ⟨hasDevice, rfl⟩
        | _ => simp [here, Stage.isStopping] at stopping
      rw [here] at holding
      exact accounted.move (exit_releases holding) rfl rfl rfl rfl

theorem stopping_goes_on (stopping : state.stage.isStopping = true) :
    ∃ action ∈ [Action.check, .transfer 1, .store, .release],
      (step state action).isSome = true := by
  have running : state.stage.running = true := by
    cases here : state.stage <;> simp_all [Stage.isStopping, Stage.running]
  cases phase : state.sender.phase with
  | looping =>
      cases checked : state.checked with
      | true =>
          refine ⟨.transfer 1, by simp, ?_⟩
          simp [step, running, checked, State.onThread, I2cSender.step, phase]
      | false =>
          refine ⟨.check, by simp, ?_⟩
          simp [step, running, checked, stopping, State.onThread, I2cSender.step, phase]
  | returned ret =>
      refine ⟨.store, by simp, ?_⟩
      simp [step, running, State.onThread, I2cSender.step, phase]
  | stopped =>
      refine ⟨.release, by simp, ?_⟩
      simp [step, stopping, phase]

end Steps

/-- Over any number of loads and unloads, with the thread and the calls from user space between
the calls of the kernel, when those that are not checked do what they are asked for: what the
module holds is acquired and released properly and is that of the point it has reached; every
transfer uses an adapter that is held; the value for user space is the one stored last since the
module was loaded; and an unload waits for at most three steps of the thread, one of which can
always be taken until the adapter is put back. -/
theorem transfers_hold_the_adapter (actions : List Action) (state : State)
    (ran : run step unloaded actions = some state)
    (obtained : Meets step Obtained unloaded actions) :
    Proper () state.log free ∧
      (∀ object, settle () state.log free object = some () ↔ object ∈ state.stage.held) ∧
      state.faulted = false ∧
      state.sender.sender.lastSent = latestSent state.sender.recorded ∧
      (state.stage.isStopping = true → state.sinceStop ≤ 3 ∧
        ∃ action ∈ [Action.check, .transfer 1, .store, .release],
          (step state action).isSome = true) := by
  have accounted : Accounted state :=
    run_keeps (fun _ _ _ holds met stepped => accounted_step holds met stepped)
      accounted_unloaded obtained ran
  refine ⟨accounted.holding.proper, fun object => accounted.holding.holds_iff,
    accounted.unfaulted, accounted.tracks.latest, ?_⟩
  intro stopping
  exact ⟨Nat.le_of_add_right_le (accounted.soon stopping), stopping_goes_on stopping⟩

/-- The thread has looked when `rmmod` comes, and sends once more. -/
def sentAfterStop : List Action :=
  [.insmod, .i2cGetAdapter true, .allocChrdevRegion 0, .cdevAdd 0,
    .classCreate 0xffff888003a41000, .deviceCreate 0xffff888003b00000,
    .kthreadRun 0xffff888003c00000, .check, .transfer 1, .store, .check, .rmmod, .transfer 1,
    .store]

theorem transfers_hold_the_adapter_after_stop :
    ∃ state, run step unloaded sentAfterStop = some state ∧
      state.sender.sender.lastSent = 1 ∧ state.faulted = false ∧ state.sinceStop ≤ 3 := by
  have observed : ((run step unloaded sentAfterStop).map fun state =>
      (state.sender.sender.lastSent, state.stage)) = some (1, .stopping true) := by
    decide +kernel
  obtain ⟨state, ran, seen⟩ := Option.map_eq_some_iff.mp observed
  simp only [Prod.mk.injEq] at seen
  obtain ⟨lastSent, stage⟩ := seen
  have obtained : Meets step Obtained unloaded sentAfterStop := by
    decide +kernel
  obtain ⟨_, _, unfaulted, _, soon⟩ :=
    transfers_hold_the_adapter sentAfterStop state ran obtained
  exact ⟨state, ran, lastSent, unfaulted, (soon (by rw [stage]; rfl)).1⟩

end LinuxFff.I2cModule
