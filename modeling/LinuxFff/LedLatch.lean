import LinuxFff.ButtonLed
import LinuxFff.StepSystem

/-!
# The cached LED state against the output latch

Set operations run in any threads and consist of two steps: the register write
and the store to `led.state`. The cache is right in every quiescent state when
it was right at the probe and no operation writes its register while an
operation for the other level is between its two steps.
-/

namespace LinuxFff.LedLatch

open LinuxFff.StepSystem LinuxFff.LedDriver LinuxFff.ButtonLed

set_option autoImplicit false

/-- `powerOn` is the level of the latch before the probe. -/
structure State where
  powerOn : Bool
  system : System
  pending : Nat → Option Bool

def State.latch (state : State) : Bool :=
  latchLevel state.system.driver.led state.powerOn state.system.driver.writes

inductive Action where
  | begin (thread : Nat) (operation : Operation)
  | finish (thread : Nat)

/-- The level that an operation sets, the button's being its toggled copy. -/
def settingOf (button : Button) : Operation → Option Bool
  | .press => some (!button.ledState)
  | operation => commanded operation

def buttonAfter (button : Button) : Operation → Button
  | .press => { button with ledState := !button.ledState }
  | _ => button

def step (state : State) : Action → Option State
  | .begin thread operation =>
      match state.pending thread, settingOf state.system.button operation with
      | none, some level => some { state with
          system := { button := buttonAfter state.system.button operation
                      driver := state.system.driver.driveLevel level }
          pending := Function.update state.pending thread (some level) }
      | _, _ => none
  | .finish thread =>
      match state.pending thread with
      | some level => some { state with
          system := { state.system with driver := state.system.driver.storeState level }
          pending := Function.update state.pending thread none }
      | none => none

def Quiescent (state : State) : Prop := ∀ thread, state.pending thread = none

/-- Just after `led_probe` returned 0, with any static data before it. -/
def afterProbe (base : Nat) (node : Node) (oeValue : BitVec 32) (led : Led) (button : Button)
    (powerOn : Bool) : State :=
  { powerOn
    system := { button, driver := (ledProbe (some base) node oeValue ⟨led, []⟩).2 }
    pending := fun _ => none }

/-- No operation for the other level is between its two steps. -/
def Unopposed (state : State) : Action → Prop
  | .begin _ operation => ∀ thread level other, state.pending thread = some other →
      settingOf state.system.button operation = some level → other = level
  | .finish _ => True

/-- The two steps of an operation that nothing interrupts are the operation. -/
theorem begin_finish_perform (state : State) (thread : Nat) (operation : Operation) (level : Bool)
    (idle : state.pending thread = none)
    (setting : settingOf state.system.button operation = some level) :
    run step state [.begin thread operation, .finish thread] =
      some { state with system := perform state.system operation } := by
  have pendingBack : Function.update (Function.update state.pending thread (some level))
      thread none = state.pending := by
    rw [Function.update_idem, ← idle, Function.update_eq_self]
  have performed : perform state.system operation =
      { button := buttonAfter state.system.button operation
        driver := (state.system.driver.driveLevel level).storeState level } := by
    cases operation with
    | press =>
        have levelEq : (!state.system.button.ledState) = level := by
          simpa [settingOf] using setting
        subst levelEq
        rfl
    | ioctlSet val =>
        rw [perform_command _ _ (by simp), show commanded (.ioctlSet val) = some level from setting]
        rfl
    | write first rest =>
        rw [perform_command _ _ (by simp),
          show commanded (.write first rest) = some level from setting]
        rfl
  simp [run, step, idle, setting, pendingBack, performed]

/-- Every pending operation has driven the level that the latch has, and with
no pending operation the cache has it too. -/
structure Settled (state : State) : Prop where
  pending : ∀ thread level, state.pending thread = some level → level = state.latch
  quiet : Quiescent state → state.system.driver.led.state = state.latch

theorem settled_after_probe (base : Nat) (node : Node) (oeValue : BitVec 32) (led : Led)
    (button : Button) (powerOn : Bool) (agree : led.state = powerOn) :
    Settled (afterProbe base node oeValue led button powerOn) := by
  constructor
  · intro thread level impossible
    simp [afterProbe] at impossible
  · intro _
    exact agree

theorem settled_step {state next : State} {action : Action} (holds : Settled state)
    (met : Unopposed state action) (stepped : step state action = some next) :
    Settled next := by
  cases action with
  | begin thread operation =>
      simp only [step] at stepped
      split at stepped
      case h_2 => cases stepped
      case h_1 level idle setting =>
        cases stepped
        have latched : latchLevel (state.system.driver.driveLevel level).led state.powerOn
            (state.system.driver.driveLevel level).writes = level := by
          rw [drive_level_led]
          exact drive_level_latch _ _ _
        constructor
        · intro other otherLevel lookup
          simp only [State.latch, latched]
          by_cases same : other = thread
          · simpa [same, eq_comm] using lookup
          · exact met other level otherLevel (by simpa [same] using lookup) setting
        · intro quiet
          have busy := quiet thread
          simp at busy
  | finish thread =>
      simp only [step] at stepped
      split at stepped
      case h_2 => cases stepped
      case h_1 level lookup =>
        cases stepped
        have latched := holds.pending thread level lookup
        constructor
        · intro other otherLevel otherLookup
          by_cases same : other = thread
          · simp [same] at otherLookup
          · exact holds.pending other otherLevel (by simpa [same] using otherLookup)
        · intro _
          exact latched

/-- The cached state is the latch in every quiescent state of every run that
starts with the two equal and never overlaps opposing operations. -/
theorem led_state_is_latch (base : Nat) (node : Node) (oeValue : BitVec 32) (led : Led)
    (button : Button) (powerOn : Bool) (actions : List Action) (final : State)
    (agree : led.state = powerOn)
    (met : Meets step Unopposed (afterProbe base node oeValue led button powerOn) actions)
    (ran : run step (afterProbe base node oeValue led button powerOn) actions = some final)
    (quiet : Quiescent final) :
    final.system.driver.led.state = final.latch := by
  have settled := run_keeps (fun _ _ _ here cond moved => settled_step here cond moved)
    (settled_after_probe base node oeValue led button powerOn agree) met ran
  exact settled.quiet quiet

/-- A first probe after the module was loaded, with this level on the pin. -/
def firstProbe (powerOn : Bool) : State :=
  afterProbe 0 ⟨some 21, some 400, some 404, some 308⟩ 0 ledAtLoad.led ⟨false⟩ powerOn

/-- Two operations that turn the LED on, overlapping each other. -/
def agreeingOperations : List Action :=
  [.begin 0 (.ioctlSet 1), .begin 1 (.write charOne []), .finish 0, .finish 1]

theorem led_state_is_latch_agreeing :
    ∃ final, run step (firstProbe false) agreeingOperations = some final ∧ Quiescent final ∧
      final.latch = true ∧ final.system.driver.led.state = final.latch := by
  obtain ⟨final, ran, quiet, high⟩ : ∃ final,
      run step (firstProbe false) agreeingOperations = some final ∧ Quiescent final ∧
        final.latch = true := by
    refine ⟨_, rfl, ?_, rfl⟩
    intro thread
    by_cases first : thread = 0
    · simp [first, firstProbe, afterProbe]
    · by_cases second : thread = 1
      · simp [second, firstProbe, afterProbe]
      · simp [first, second, firstProbe, afterProbe]
  refine ⟨final, ran, quiet, high, ?_⟩
  apply led_state_is_latch _ _ _ _ _ _ agreeingOperations final rfl _ ran quiet
  refine meets_cons ?_ rfl (meets_cons ?_ rfl (meets_cons trivial rfl
    (meets_cons trivial rfl trivial)))
  · intro thread level other lookup
    simp [afterProbe] at lookup
  · intro thread level other lookup setting
    have levelEq : level = true := by simpa [settingOf, commanded, writtenLevel] using setting.symm
    by_cases first : thread = 0
    · have otherEq : other = true := by simpa [first, afterProbe] using lookup.symm
      rw [levelEq, otherEq]
    · simp [first, afterProbe] at lookup

/-- The stores of two opposing operations in the other order than their writes. -/
def opposingOperations : List Action :=
  [.begin 0 (.ioctlSet 1), .begin 1 (.ioctlSet 0), .finish 1, .finish 0]

/-- A pin that is high at the probe is reported off, and after opposing
operations a pin that is low is reported on. -/
theorem led_state_not_latch :
    (Quiescent (firstProbe true) ∧ (firstProbe true).system.driver.led.state = false ∧
        (firstProbe true).latch = true) ∧
      ∃ final, run step (firstProbe false) opposingOperations = some final ∧
        Quiescent final ∧ final.system.driver.led.state = true ∧ final.latch = false := by
  constructor
  · exact ⟨fun _ => rfl, rfl, rfl⟩
  · refine ⟨_, rfl, ?_, rfl, rfl⟩
    intro thread
    by_cases first : thread = 0
    · simp [first, firstProbe, afterProbe]
    · by_cases second : thread = 1
      · simp [second, firstProbe, afterProbe]
      · simp [first, second, firstProbe, afterProbe]

end LinuxFff.LedLatch
