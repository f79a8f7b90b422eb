import LinuxFff.I2cSender
import LinuxFff.KeyLoop
import LinuxFff.LedLatch

/-!
# The LED application on its drivers

`mock_application/test.c` sets the LED through `/dev/ledled` and shows the state of the LED and
the value of the I2C device. Here its key loop and its two threads run against the driver
`ledledled.c`, the button handler of `bububutton.c` and the sender thread of `i2c_test.c`. What
the calls of the application return is what the drivers return, and every step of each part is a
step of its own, so main's `ioctl`, a button press and a status line may overlap.
-/

namespace LinuxFff.LedApplication

open LinuxFff.ButtonLed LinuxFff.LedDriver LinuxFff.StepSystem
open LinuxFff.I2cSender (i2cIoctl latestSent)
open LinuxFff.KeyLoop (getch lastSetting setting)

set_option autoImplicit false

/-- `_IOC`: direction, size, type and number. -/
def ioc (dir type nr size : Nat) : BitVec 32 :=
  BitVec.ofNat 32 (dir * 2 ^ 30 + size * 2 ^ 16 + type * 2 ^ 8 + nr)

def iow (type nr size : Nat) : BitVec 32 := ioc 1 type nr size

def ior (type nr size : Nat) : BitVec 32 := ioc 2 type nr size

/-- The codes of the application; an `int` has four bytes. -/
def ledbtnSet : BitVec 32 := iow 99 0 4
def ledbtnGet : BitVec 32 := ior 99 1 4
def i2cGetLastValue : BitVec 32 := ior 0x99 0 4

/-- The application and the drivers use the same codes. -/
example : ledbtnSet = ledIoctlSetCmd ∧ ledbtnGet = ledIoctlGetCmd ∧
    i2cGetLastValue = I2cSender.i2cGetValue := by
  decide

/-- The thread of main's `ioctl` and the threaded handler of the button. -/
def mainThread : Nat := 0
def irqThread : Nat := 1

/-- A level that somebody has set, by a key or by the button. -/
structure Order where
  byKey : Bool
  level : Bool
  deriving DecidableEq

/-- A line of `led_status_thread`, with the level of the pin at that moment and whether nobody
was setting it. -/
structure Status where
  on : Bool
  pin : Bool
  quiet : Bool
  deriving DecidableEq

/-- A line of `i2c_value_thread`, with the byte of the latest transfer that the sender thread
had seen succeed. -/
structure Shown where
  val : Int
  latest : Int
  deriving DecidableEq

/-- `orders`, `status` and `shown` are read by no step. -/
structure State where
  app : KeyLoop.State
  led : LedLatch.State
  sender : I2cSender.State
  orders : List Order
  status : List Status
  shown : List Shown

def started (input : List UInt8) (led : LedLatch.State) : State :=
  ⟨KeyLoop.started input, led, I2cSender.started, [], [], []⟩

inductive Action where
  | key
  | stored
  | press
  | pressStored
  | join
  | led
  | i2c
  | sender (action : I2cSender.Action)

/-- Nobody is between the register write and the store of a setting. -/
def State.quiet (state : State) : Bool :=
  (state.led.pending mainThread).isNone && (state.led.pending irqThread).isNone

def State.ledAnswer (state : State) : Int × Int :=
  let answer := ledIoctl ledbtnGet none true state.led.system.driver
  (answer.1, answer.2.1.getD 0)

def State.i2cAnswer (state : State) : Int × Int :=
  let answer := i2cIoctl state.sender.sender.lastSent i2cGetLastValue true
  (answer.1, answer.2.getD 0)

def State.begin (state : State) (thread : Nat) (operation : Operation) (order : Order) :
    Option State :=
  (LedLatch.step state.led (.begin thread operation)).map fun led =>
    { state with led, orders := state.orders ++ [order] }

def State.finish (state : State) (thread : Nat) : Option State :=
  (LedLatch.step state.led (.finish thread)).map fun led => { state with led }

/-- `main` waits for its `ioctl`. -/
def step (state : State) : Action → Option State
  | .key =>
      if state.led.pending mainThread = none then
        match KeyLoop.step state.app (.key 0), setting (getch state.app.input).1 with
        | some app, some val =>
            { state with app }.begin mainThread (.ioctlSet val) ⟨true, val ≠ 0⟩
        | some app, none => some { state with app }
        | none, _ => none
      else none
  | .stored => state.finish mainThread
  | .press => state.begin irqThread .press ⟨false, !state.led.system.button.ledState⟩
  | .pressStored => state.finish irqThread
  | .join =>
      if state.led.pending mainThread = none then
        (KeyLoop.step state.app .join).map fun app => { state with app }
      else none
  | .led =>
      (KeyLoop.step state.app (.led state.ledAnswer.1 state.ledAnswer.2)).map fun app =>
        { state with
          app
          status := if state.app.led = .polling then
              state.status ++ [⟨decide (state.ledAnswer.2 ≠ 0), state.led.latch, state.quiet⟩]
            else state.status }
  | .i2c =>
      (KeyLoop.step state.app (.i2c state.i2cAnswer.1 state.i2cAnswer.2)).map fun app =>
        { state with
          app
          shown := if state.app.i2c = .polling then
              state.shown ++ [⟨state.i2cAnswer.2, latestSent state.sender.recorded⟩]
            else state.shown }
  | .sender action =>
      (I2cSender.step state.sender action).map fun sender => { state with sender }

inductive Effect (state : State) : Action → State → Prop where
  | set (app : KeyLoop.State) (val : Int) (led : LedLatch.State)
      (here : state.app.main = .reading) (round : app = state.app.round)
      (asked : setting (getch state.app.input).1 = some val)
      (idle : state.led.pending mainThread = none)
      (began : LedLatch.step state.led (.begin mainThread (.ioctlSet val)) = some led) :
      Effect state .key { state with app, led, orders := state.orders ++ [⟨true, val ≠ 0⟩] }
  | key (app : KeyLoop.State) (here : state.app.main = .reading) (round : app = state.app.round)
      (none : setting (getch state.app.input).1 = none) : Effect state .key { state with app }
  | stored (led : LedLatch.State)
      (finished : LedLatch.step state.led (.finish mainThread) = some led) :
      Effect state .stored { state with led }
  | press (led : LedLatch.State)
      (began : LedLatch.step state.led (.begin irqThread .press) = some led) :
      Effect state .press { state with
        led, orders := state.orders ++ [⟨false, !state.led.system.button.ledState⟩] }
  | pressStored (led : LedLatch.State)
      (finished : LedLatch.step state.led (.finish irqThread) = some led) :
      Effect state .pressStored { state with led }
  | join (app : KeyLoop.State) (joined : KeyLoop.step state.app .join = some app) :
      Effect state .join { state with app }
  | led (app : KeyLoop.State)
      (went : KeyLoop.step state.app (.led state.ledAnswer.1 state.ledAnswer.2) = some app) :
      Effect state .led { state with
        app
        status := if state.app.led = .polling then
            state.status ++ [⟨decide (state.ledAnswer.2 ≠ 0), state.led.latch, state.quiet⟩]
          else state.status }
  | i2c (app : KeyLoop.State)
      (went : KeyLoop.step state.app (.i2c state.i2cAnswer.1 state.i2cAnswer.2) = some app) :
      Effect state .i2c { state with
        app
        shown := if state.app.i2c = .polling then
            state.shown ++ [⟨state.i2cAnswer.2, latestSent state.sender.recorded⟩]
          else state.shown }
  | sender (action : I2cSender.Action) (sender : I2cSender.State)
      (sent : I2cSender.step state.sender action = some sender) :
      Effect state (.sender action) { state with sender }

theorem step_effect {state next : State} {action : Action}
    (stepped : step state action = some next) : Effect state action next := by
  cases action with
  | key =>
      simp only [step, Option.ite_none_right_eq_some] at stepped
      obtain ⟨idle, stepped⟩ := stepped
      have round : ∀ app, KeyLoop.step state.app (.key 0) = some app →
          state.app.main = .reading ∧ app = state.app.round := by
        intro app went
        simp only [KeyLoop.step, Option.ite_none_right_eq_some, Option.some.injEq] at went
        exact ⟨went.1, went.2.symm⟩
      split at stepped
      case h_1 app val went asked =>
        obtain ⟨led, began, rfl⟩ := Option.map_eq_some_iff.mp stepped
        obtain ⟨here, same⟩ := round app went
        exact Effect.set app val led here same asked idle began
      case h_2 app went nothing =>
        cases stepped
        obtain ⟨here, same⟩ := round app went
        exact Effect.key app here same nothing
      case h_3 => cases stepped
  | stored =>
      obtain ⟨led, finished, rfl⟩ := Option.map_eq_some_iff.mp stepped
      exact Effect.stored led finished
  | press =>
      obtain ⟨led, began, rfl⟩ := Option.map_eq_some_iff.mp stepped
      exact Effect.press led began
  | pressStored =>
      obtain ⟨led, finished, rfl⟩ := Option.map_eq_some_iff.mp stepped
      exact Effect.pressStored led finished
  | join =>
      simp only [step, Option.ite_none_right_eq_some, Option.map_eq_some_iff] at stepped
      obtain ⟨_, app, joined, rfl⟩ := stepped
      exact Effect.join app joined
  | led =>
      obtain ⟨app, went, rfl⟩ := Option.map_eq_some_iff.mp stepped
      exact Effect.led app went
  | i2c =>
      obtain ⟨app, went, rfl⟩ := Option.map_eq_some_iff.mp stepped
      exact Effect.i2c app went
  | sender action =>
      obtain ⟨sender, sent, rfl⟩ := Option.map_eq_some_iff.mp stepped
      exact Effect.sender action sender sent

section Latch

variable {led next : LedLatch.State} {thread : Nat} {operation : Operation} {level : Bool}

theorem begin_latch (asked : LedLatch.settingOf led.system.button operation = some level)
    (began : LedLatch.step led (.begin thread operation) = some next) :
    next.latch = level ∧ next.pending = Function.update led.pending thread (some level) := by
  simp only [LedLatch.step, asked] at began
  split at began
  case h_1 same =>
    cases began
    cases same
    refine ⟨?_, rfl⟩
    rw [LedLatch.State.latch, drive_level_led]
    exact drive_level_latch _ _ _
  case h_2 => cases began

theorem finish_latch (finished : LedLatch.step led (.finish thread) = some next) :
    next.latch = led.latch ∧ next.pending = Function.update led.pending thread none := by
  simp only [LedLatch.step] at finished
  split at finished
  case h_1 level lookup =>
    cases finished
    exact ⟨latch_level_store _ _ _, rfl⟩
  case h_2 => cases finished

end Latch

def lastLevel (start : Bool) (orders : List Order) : Bool :=
  (orders.getLast?.map Order.level).getD start

theorem last_level_snoc (start : Bool) (orders : List Order) (order : Order) :
    lastLevel start (orders ++ [order]) = order.level := by
  simp [lastLevel]

/-- The pin has the level that was set last, the levels set by keys are those that the key loop
has asked for, and a value shown is the latest one sent. -/
structure Consistent (start : Bool) (state : State) : Prop where
  pin : state.led.latch = lastLevel start state.orders
  keys : (state.orders.filter Order.byKey).map Order.level =
    state.app.requests.map fun val => decide (val ≠ 0)
  idle : ∀ thread, thread ≠ mainThread → thread ≠ irqThread → state.led.pending thread = none
  tracks : I2cSender.Tracks state.sender
  shown : ∀ line ∈ state.shown, line.val = line.latest

section Run

variable {start : Bool} {state next : State} {action : Action}

theorem consistent_started (input : List UInt8) {led : LedLatch.State}
    (quiet : LedLatch.Quiescent led) : Consistent led.latch (started input led) where
  pin := rfl
  keys := rfl
  idle := fun thread _ _ => quiet thread
  tracks := I2cSender.tracks_started
  shown := by
    intro line impossible
    cases impossible

theorem round_requests (app : KeyLoop.State) :
    app.round.requests = app.requests ++ (setting (getch app.input).1).toList := by
  cases asked : setting (getch app.input).1 with
  | some val => simp only [KeyLoop.State.round, asked, Option.toList_some]
  | none =>
      simp only [KeyLoop.State.round, asked, Option.toList_none, List.append_nil]
      split <;> rfl

theorem poll_requests {app : KeyLoop.State} {ret val : Int}
    (went : KeyLoop.step state.app (.led ret val) = some app ∨
      KeyLoop.step state.app (.i2c ret val) = some app ∨
      KeyLoop.step state.app .join = some app) : app.requests = state.app.requests := by
  rcases went with went | went | went
  · cases KeyLoop.step_effect went with
    | led ret val phase screen moved => rfl
  · cases KeyLoop.step_effect went with
    | i2c ret val phase screen moved => rfl
  · cases KeyLoop.step_effect went with
    | joinLed here => rfl
    | joinI2c here => rfl

theorem idle_update {pending : Nat → Option Bool} {thread : Nat} {moved : Option Bool}
    (idle : ∀ other, other ≠ mainThread → other ≠ irqThread → pending other = none)
    (known : thread = mainThread ∨ thread = irqThread) :
    ∀ other, other ≠ mainThread → other ≠ irqThread →
      Function.update pending thread moved other = none := by
  intro other notMain notIrq
  have apart : other ≠ thread := by
    rcases known with same | same <;> rw [same] <;> assumption
  rw [Function.update_of_ne apart]
  exact idle other notMain notIrq

theorem Consistent.finish (consistent : Consistent start state) {thread : Nat}
    {led : LedLatch.State} (known : thread = mainThread ∨ thread = irqThread)
    (finished : LedLatch.step state.led (.finish thread) = some led) :
    Consistent start { state with led } := by
  obtain ⟨latch, pending⟩ := finish_latch finished
  refine ⟨latch.trans consistent.pin, consistent.keys, ?_, consistent.tracks, consistent.shown⟩
  change ∀ other, other ≠ mainThread → other ≠ irqThread → led.pending other = none
  rw [pending]
  exact idle_update consistent.idle known

theorem consistent_step (consistent : Consistent start state)
    (stepped : step state action = some next) : Consistent start next := by
  have ⟨pin, keys, idle, tracks, shown⟩ := consistent
  cases step_effect stepped with
  | set app val led here round asked free began =>
      obtain ⟨latch, pending⟩ := begin_latch rfl began
      refine ⟨?_, ?_, ?_, tracks, shown⟩
      · rw [last_level_snoc]
        exact latch
      · rw [round, round_requests, asked, List.filter_append, List.map_append, keys,
          List.map_append]
        rfl
      · change ∀ other, other ≠ mainThread → other ≠ irqThread → led.pending other = none
        rw [pending]
        exact idle_update idle (Or.inl rfl)
  | key app here round nothing =>
      refine ⟨pin, ?_, idle, tracks, shown⟩
      rw [round, round_requests, nothing, Option.toList_none, List.append_nil]
      exact keys
  | stored led finished => exact consistent.finish (Or.inl rfl) finished
  | press led began =>
      obtain ⟨latch, pending⟩ := begin_latch rfl began
      refine ⟨?_, ?_, ?_, tracks, shown⟩
      · rw [last_level_snoc]
        exact latch
      · rw [List.filter_append, List.map_append, keys]
        exact List.append_nil _
      · change ∀ other, other ≠ mainThread → other ≠ irqThread → led.pending other = none
        rw [pending]
        exact idle_update idle (Or.inr rfl)
  | pressStored led finished => exact consistent.finish (Or.inr rfl) finished
  | join app joined =>
      refine ⟨pin, ?_, idle, tracks, shown⟩
      rw [@poll_requests state app 0 0 (Or.inr (Or.inr joined))]
      exact keys
  | led app went =>
      refine ⟨pin, ?_, idle, tracks, shown⟩
      rw [poll_requests (Or.inl went)]
      exact keys
  | i2c app went =>
      refine ⟨pin, ?_, idle, tracks, ?_⟩
      · rw [poll_requests (Or.inr (Or.inl went))]
        exact keys
      · intro line member
        change line ∈ ite _ _ _ at member
        split at member
        · rcases List.mem_append.mp member with old | new
          · exact shown line old
          · rw [List.mem_singleton.mp new]
            exact tracks.latest
        · exact shown line member
  | sender action sender sent =>
      exact ⟨pin, keys, idle, I2cSender.tracks_step tracks sent, shown⟩

theorem step_matched (stepped : step state action = some next) :
    Matched KeyLoop.step state.app next.app := by
  cases step_effect stepped with
  | set app val led here round asked free began =>
      refine Or.inr ⟨.key 0, ?_⟩
      rw [round]
      exact if_pos here
  | key app here round nothing =>
      refine Or.inr ⟨.key 0, ?_⟩
      rw [round]
      exact if_pos here
  | stored led finished => exact Or.inl rfl
  | press led began => exact Or.inl rfl
  | pressStored led finished => exact Or.inl rfl
  | join app joined => exact Or.inr ⟨_, joined⟩
  | led app went => exact Or.inr ⟨_, went⟩
  | i2c app went => exact Or.inr ⟨_, went⟩
  | sender action sender sent => exact Or.inl rfl

end Run

theorem app_run {input : List UInt8} {led : LedLatch.State} {actions : List Action} {state : State}
    (ran : run step (started input led) actions = some state) :
    ∃ keyActions, run KeyLoop.step (KeyLoop.started input) keyActions = some state.app := by
  have always : ∀ state action next, True → step state action = some next → True :=
    fun _ _ _ _ _ => trivial
  exact run_refines always (fun _ _ _ _ stepped => step_matched stepped) trivial ran

/-- However the application, the button and the sender thread take turns: the application is the
key loop, the pin has the level set last by a key or by the button, every value shown is the one
that the thread has stored last, and behind the loop, when nobody has pressed the button, the pin
has the level of the last key. -/
theorem pin_follows_orders (input : List UInt8) (led : LedLatch.State)
    (quiet : LedLatch.Quiescent led) (actions : List Action) (state : State)
    (ran : run step (started input led) actions = some state) :
    (∃ keyActions, run KeyLoop.step (KeyLoop.started input) keyActions = some state.app) ∧
      state.led.latch = lastLevel led.latch state.orders ∧
      (state.orders.filter Order.byKey).map Order.level =
        (state.app.requests.map fun val => decide (val ≠ 0)) ∧
      (∀ line ∈ state.shown, line.val = line.latest) ∧
      (state.app.main ≠ .reading → (∀ order ∈ state.orders, order.byKey = true) →
        state.led.latch =
          ((lastSetting input).map fun val => decide (val ≠ 0)).getD led.latch) := by
  have consistent : Consistent led.latch state :=
    run_keeps_always (fun _ _ _ holds stepped => consistent_step holds stepped)
      (consistent_started input quiet) ran
  obtain ⟨keyActions, appRan⟩ := app_run ran
  refine ⟨⟨keyActions, appRan⟩, consistent.pin, consistent.keys, consistent.shown, ?_⟩
  intro behind unpressed
  have keys := consistent.keys
  rw [List.filter_eq_self.mpr unpressed] at keys
  obtain ⟨_, requests⟩ := (KeyLoop.follows_run appRan).behind behind
  rw [consistent.pin, lastLevel, ← List.getLast?_map, keys, List.getLast?_map, requests]
  rfl

/-- The user turns the LED on and quits; a status line comes between the two halves. -/
def onAndQuit : List UInt8 := [KeyLoop.keyCode '1', KeyLoop.keyCode 'q']

def darkPin : LedLatch.State := LedLatch.firstProbe false

def turnOn : List Action :=
  [.key, .led, .led, .sender (.transfer 1), .stored, .sender .store, .i2c, .led, .led, .i2c, .key]

theorem pin_follows_orders_turn_on :
    ∃ state, run step (started onAndQuit darkPin) turnOn = some state ∧
      state.shown = [⟨0, 0⟩] ∧ state.led.latch = true ∧
      state.led.latch = ((lastSetting onAndQuit).map fun val => decide (val ≠ 0)).getD false := by
  have observed : ((run step (started onAndQuit darkPin) turnOn).map fun state =>
      (state.shown, state.led.latch, state.app.main, state.orders)) =
        some ([⟨0, 0⟩], true, .joiningLed, [⟨true, true⟩]) := by
    decide +kernel
  obtain ⟨state, ran, seen⟩ := Option.map_eq_some_iff.mp observed
  simp only [Prod.mk.injEq] at seen
  obtain ⟨shown, latch, main, orders⟩ := seen
  refine ⟨state, ran, shown, latch, ?_⟩
  exact (pin_follows_orders onAndQuit darkPin (fun _ => rfl) turnOn state ran).2.2.2.2
    (by rw [main]; decide) (by rw [orders]; decide)

/-- Nobody sets one level while another thread is between the two halves of setting the other. -/
def Unopposed (state : State) : Action → Prop
  | .key => ∀ val ∈ setting (getch state.app.input).1,
      state.led.pending irqThread ≠ some (decide (val = 0))
  | .press => state.led.pending mainThread ≠ some state.led.system.button.ledState
  | _ => True

instance decidableUnopposed (state : State) (action : Action) :
    Decidable (Unopposed state action) := by
  unfold Unopposed
  cases action <;> infer_instance

/-- What the driver believes, and what has been shown. -/
structure Faithful (state : State) : Prop where
  settled : LedLatch.Settled state.led
  idle : ∀ thread, thread ≠ mainThread → thread ≠ irqThread → state.led.pending thread = none
  status : ∀ line ∈ state.status, line.quiet = true → line.on = line.pin

section Faith

variable {state next : State} {action : Action}

theorem quiescent_of_quiet
    (idle : ∀ thread, thread ≠ mainThread → thread ≠ irqThread → state.led.pending thread = none)
    (quiet : state.quiet = true) : LedLatch.Quiescent state.led := by
  rw [State.quiet, Bool.and_eq_true, Option.isNone_iff_eq_none, Option.isNone_iff_eq_none] at quiet
  intro thread
  by_cases isMain : thread = mainThread
  · rw [isMain]
    exact quiet.1
  · by_cases isIrq : thread = irqThread
    · rw [isIrq]
      exact quiet.2
    · exact idle thread isMain isIrq

theorem led_answer (state : State) :
    decide (state.ledAnswer.2 ≠ 0) = state.led.system.driver.led.state := by
  have code : ledbtnGet ≠ ledIoctlSetCmd := by decide
  have same : ledbtnGet = ledIoctlGetCmd := by decide
  unfold State.ledAnswer ledIoctl
  rw [if_neg code, if_pos same]
  cases state.led.system.driver.led.state <;> rfl

theorem Faithful.finish (faithful : Faithful state) {thread : Nat} {led : LedLatch.State}
    (known : thread = mainThread ∨ thread = irqThread)
    (finished : LedLatch.step state.led (.finish thread) = some led) :
    Faithful { state with led } := by
  obtain ⟨_, pending⟩ := finish_latch finished
  have met : LedLatch.Unopposed state.led (.finish thread) := trivial
  refine ⟨LedLatch.settled_step faithful.settled met finished, ?_, faithful.status⟩
  change ∀ other, other ≠ mainThread → other ≠ irqThread → led.pending other = none
  rw [pending]
  exact idle_update faithful.idle known

/-- A setting that begins while the other thread has none, or one of the same level. -/
theorem Faithful.begin (faithful : Faithful state) {thread other : Nat} {operation : Operation}
    {level : Bool} {led : LedLatch.State} (orders : List Order) (app : KeyLoop.State)
    (both : thread = mainThread ∧ other = irqThread ∨ thread = irqThread ∧ other = mainThread)
    (asked : LedLatch.settingOf state.led.system.button operation = some level)
    (unopposed : ∀ held, state.led.pending other = some held → held = level)
    (began : LedLatch.step state.led (.begin thread operation) = some led) :
    Faithful { state with app, led, orders } := by
  obtain ⟨_, pending⟩ := begin_latch asked began
  have own : state.led.pending thread = none := by
    simp only [LedLatch.step, asked] at began
    split at began
    case h_1 idle _ => exact idle
    case h_2 => cases began
  have met : LedLatch.Unopposed state.led (.begin thread operation) := by
    intro holder given held lookup given_asked
    have same : given = level := Option.some.inj (given_asked.symm.trans asked)
    rw [same]
    by_cases isOther : holder = other
    · exact unopposed held (isOther ▸ lookup)
    · have none : state.led.pending holder = none := by
        by_cases isOwn : holder = thread
        · rw [isOwn]
          exact own
        · rcases both with ⟨main, irq⟩ | ⟨irq, main⟩
          · exact faithful.idle holder (main ▸ isOwn) (irq ▸ isOther)
          · exact faithful.idle holder (main ▸ isOther) (irq ▸ isOwn)
      rw [none] at lookup
      cases lookup
  refine ⟨LedLatch.settled_step faithful.settled met began, ?_, faithful.status⟩
  change ∀ other, other ≠ mainThread → other ≠ irqThread → led.pending other = none
  rw [pending]
  apply idle_update faithful.idle
  rcases both with ⟨main, _⟩ | ⟨irq, _⟩
  · exact Or.inl main
  · exact Or.inr irq

theorem faithful_step (faithful : Faithful state) (unopposed : Unopposed state action)
    (stepped : step state action = some next) : Faithful next := by
  cases step_effect stepped with
  | set app val led here round asked free began =>
      refine faithful.begin _ app (Or.inl ⟨rfl, rfl⟩) rfl ?_ began
      intro held lookup
      have apart := unopposed val asked
      rw [lookup] at apart
      by_cases zero : val = 0 <;> cases held <;> simp_all
  | key app here round nothing => exact ⟨faithful.settled, faithful.idle, faithful.status⟩
  | stored led finished => exact faithful.finish (Or.inl rfl) finished
  | press led began =>
      refine faithful.begin _ state.app (Or.inr ⟨rfl, rfl⟩) rfl ?_ began
      intro held lookup
      have apart : state.led.pending mainThread ≠ some state.led.system.button.ledState := unopposed
      rw [lookup] at apart
      cases held <;> simp_all
  | pressStored led finished => exact faithful.finish (Or.inr rfl) finished
  | join app joined => exact ⟨faithful.settled, faithful.idle, faithful.status⟩
  | led app went =>
      refine ⟨faithful.settled, faithful.idle, ?_⟩
      intro line member quiet
      change line ∈ ite _ _ _ at member
      split at member
      · rcases List.mem_append.mp member with old | new
        · exact faithful.status line old quiet
        · rw [List.mem_singleton.mp new] at quiet ⊢
          rw [led_answer]
          exact faithful.settled.quiet (quiescent_of_quiet faithful.idle quiet)
      · exact faithful.status line member quiet
  | i2c app went => exact ⟨faithful.settled, faithful.idle, faithful.status⟩
  | sender action sender sent => exact ⟨faithful.settled, faithful.idle, faithful.status⟩

end Faith

/-- When the driver knows the level of the pin at its probe, and no key sets a level while the
button handler is between the two halves of setting the other one or the other way round, then
every status line that is shown while nobody is setting the LED shows the level of the pin, and
the driver knows that level whenever nobody is setting it. -/
theorem status_shows_the_pin (input : List UInt8) (base : Nat) (node : Node) (oeValue : BitVec 32)
    (led : Led) (button : Button) (powerOn : Bool) (agree : led.state = powerOn)
    (actions : List Action) (state : State)
    (unopposed : Meets step Unopposed
      (started input (LedLatch.afterProbe base node oeValue led button powerOn)) actions)
    (ran : run step (started input (LedLatch.afterProbe base node oeValue led button powerOn))
      actions = some state) :
    (∀ line ∈ state.status, line.quiet = true → line.on = line.pin) ∧
      (state.quiet = true → state.led.system.driver.led.state = state.led.latch) := by
  have start : Faithful
      (started input (LedLatch.afterProbe base node oeValue led button powerOn)) := by
    refine ⟨LedLatch.settled_after_probe base node oeValue led button powerOn agree,
      fun _ _ _ => rfl, ?_⟩
    intro line impossible
    cases impossible
  have faithful : Faithful state :=
    run_keeps (fun _ _ _ holds met stepped => faithful_step holds met stepped) start unopposed ran
  exact ⟨faithful.status,
    fun quiet => faithful.settled.quiet (quiescent_of_quiet faithful.idle quiet)⟩

theorem status_shows_the_pin_turn_on :
    ∃ state, run step (started onAndQuit darkPin) turnOn = some state ∧
      state.status = [⟨false, true, false⟩, ⟨true, true, true⟩] ∧
      ∀ line ∈ state.status, line.quiet = true → line.on = line.pin := by
  have observed : ((run step (started onAndQuit darkPin) turnOn).map State.status) =
      some [⟨false, true, false⟩, ⟨true, true, true⟩] := by
    decide +kernel
  obtain ⟨state, ran, seen⟩ := Option.map_eq_some_iff.mp observed
  have unopposed : Meets step Unopposed (started onAndQuit darkPin) turnOn := by
    decide +kernel
  exact ⟨state, ran, seen,
    (status_shows_the_pin onAndQuit _ _ _ _ _ _ rfl turnOn state unopposed ran).1⟩

end LinuxFff.LedApplication
