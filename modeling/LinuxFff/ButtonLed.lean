import LinuxFff.LedDriver

/-!
# Button presses against the other ways to set the LED

`bububutton.c` toggles a copy of the LED state of its own and hands the copy to
`set_led_state`; the ioctl and the write of `ledledled.c` never touch the copy.
A press therefore inverts the LED exactly when the two agree just before it,
which is a condition on the commands given since the previous press.
-/

namespace LinuxFff.ButtonLed

open LinuxFff.CString LinuxFff.LedDriver

set_option autoImplicit false

/-- Complete operations on the two drivers. A write passes a buffer with a
first byte. -/
inductive Operation where
  | ioctlSet (val : Int)
  | write (first : Byte) (rest : Bytes)
  | press
  deriving DecidableEq

structure System where
  button : Button
  driver : Driver

def perform (system : System) : Operation → System
  | .ioctlSet val =>
      { system with driver := (ledIoctl ledIoctlSetCmd (some val) true system.driver).2.2 }
  | .write first rest =>
      { system with driver := (ledWrite (some first) (rest.length + 1) system.driver).2 }
  | .press =>
      let handled := buttonIrqHandler system.button system.driver
      ⟨handled.1, handled.2⟩

def performAll (system : System) (operations : List Operation) : System :=
  operations.foldl perform system

/-- The level that an operation other than a press sets the LED to. -/
def commanded : Operation → Option Bool
  | .ioctlSet val => some (val ≠ 0)
  | .write first _ => writtenLevel first
  | .press => none

/-- The press inverts `led.state`, and the level last written to the pin is
the new one whatever the level of the pin was at first. -/
def PressInverts (before : System) : Prop :=
  let after := perform before .press
  after.driver.led.state = !before.driver.led.state ∧
    ∀ start, latchLevel after.driver.led start after.driver.writes = !before.driver.led.state

def copyAfter (copy : Bool) (operations : List Operation) : Bool :=
  operations.foldl (fun current operation => if operation = .press then !current else current)
    copy

/-- The level set since the last press, or the level at the start when there
was no press; nothing when a press came last. -/
def settingSincePress (start : Bool) (operations : List Operation) : Option Bool :=
  operations.foldl (fun last operation =>
    if operation = .press then none else (commanded operation).or last) (some start)

theorem perform_press_state (system : System) :
    (perform system .press).driver.led.state = !system.button.ledState := rfl

theorem perform_press_copy (system : System) :
    (perform system .press).button.ledState = !system.button.ledState := rfl

theorem perform_command (system : System) (operation : Operation)
    (notPress : operation ≠ .press) :
    perform system operation =
      { system with driver := setGivenLevel (commanded operation) system.driver } := by
  cases operation with
  | ioctlSet val =>
      simp only [perform, commanded, led_ioctl_set, setGivenLevel]
  | write first rest =>
      simp only [perform, commanded, led_write_first]
  | press => exact absurd rfl notPress

theorem set_led_state_state (level : Bool) (driver : Driver) :
    (setLedState level driver).led.state = level := rfl

/-- A press inverts the LED exactly when the button's copy is the LED's state. -/
theorem press_inverts_iff_copy (system : System) :
    PressInverts system ↔ system.driver.led.state = system.button.ledState := by
  have latch : ∀ start, latchLevel (perform system .press).driver.led start
      (perform system .press).driver.writes = !system.button.ledState := by
    intro start
    have driven := drive_level_latch system.driver start (!system.button.ledState)
    rw [← drive_level_led system.driver (!system.button.ledState)] at driven
    exact (latch_level_store _ _ _).trans driven
  constructor
  · intro inverts
    have state := inverts.1
    rw [perform_press_state] at state
    simpa using state.symm
  · intro same
    refine ⟨?_, ?_⟩
    · rw [perform_press_state, same]
    · intro start
      rw [latch start, same]

theorem perform_all_append (system : System) (operations : List Operation)
    (operation : Operation) :
    performAll system (operations ++ [operation]) =
      perform (performAll system operations) operation := by
  simp [performAll]

/-- The run lemma: both copies after any operations, from any start. -/
theorem copies_after (start : System) (operations : List Operation) :
    (performAll start operations).button.ledState =
        copyAfter start.button.ledState operations ∧
      (performAll start operations).driver.led.state =
        (settingSincePress start.driver.led.state operations).getD
          (copyAfter start.button.ledState operations) := by
  induction operations using List.reverseRecOn with
  | nil => exact ⟨rfl, rfl⟩
  | append_singleton operations operation ih =>
      obtain ⟨copy, state⟩ := ih
      rw [perform_all_append]
      unfold copyAfter settingSincePress at *
      simp only [List.foldl_append, List.foldl_cons, List.foldl_nil]
      by_cases press : operation = .press
      · rw [if_pos press, if_pos press, press, perform_press_copy, perform_press_state, copy]
        exact ⟨rfl, rfl⟩
      · rw [if_neg press, if_neg press, perform_command _ _ press]
        refine ⟨copy, ?_⟩
        cases level : commanded operation with
        | none => simpa [setGivenLevel] using state
        | some level => simp [setGivenLevel, set_led_state_state]

/-- In every run, every press inverts the LED exactly when before every press
the level set since the previous press, if any, is the one the presses so far
have left in the button's copy. -/
theorem every_press_inverts_iff (start : System) (operations : List Operation) :
    (∀ before after, operations = before ++ .press :: after →
        PressInverts (performAll start before)) ↔
      ∀ before after, operations = before ++ .press :: after →
        ∀ level ∈ settingSincePress start.driver.led.state before,
          level = copyAfter start.button.ledState before := by
  have pointwise : ∀ before, PressInverts (performAll start before) ↔
      ∀ level ∈ settingSincePress start.driver.led.state before,
        level = copyAfter start.button.ledState before := by
    intro before
    obtain ⟨copy, state⟩ := copies_after start before
    rw [press_inverts_iff_copy, copy, state]
    cases settingSincePress start.driver.led.state before with
    | none => simp
    | some level => simp
  constructor
  · intro inverts before after split
    exact (pointwise before).mp (inverts before after split)
  · intro agree before after split
    exact (pointwise before).mpr (agree before after split)

def probed (base : Nat) (node : Node) (oeValue : BitVec 32) : System :=
  { button := ⟨false⟩, driver := (ledProbe (some base) node oeValue ledAtLoad).2 }

/-- An ioctl turns the LED on and the first press leaves it on. -/
theorem press_after_ioctl_keeps_led_on :
    ¬ ∀ before after, [Operation.ioctlSet 1, .press] = before ++ .press :: after →
      PressInverts (performAll (probed 0 ⟨some 21, some 400, some 404, some 308⟩ 0) before) := by
  intro inverts
  have inverted := inverts [.ioctlSet 1] [] rfl
  have state := inverted.1
  exact absurd state (by decide)

end LinuxFff.ButtonLed
