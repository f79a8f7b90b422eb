import LinuxFff.PlatformDrivers

/-!
# Register accesses of `ledledled.c` over the life of the two drivers

`led_remove` unmaps the registers and keeps `led.base`, and the button module
may call `set_led_state` at any time while one of its devices is bound. An
access goes through a mapping exactly when the last call of `led_probe` or
`led_remove` was a `led_probe` that mapped the registers.
-/

namespace LinuxFff.DriverLifecycle

open LinuxFff.CString LinuxFff.LedDriver LinuxFff.ResourceLedger LinuxFff.PlatformDrivers
open LinuxFff.StepSystem

set_option autoImplicit false

/-- An address that a successful `of_iomap` returned and that is still mapped. -/
def Mapped (state : State) (base : Option Nat) : Prop :=
  ∃ address, base = some address ∧ state.ledger (.mapping address) ≠ none

def accesses (before after : State) : List (Option Nat) :=
  after.reads.drop before.reads.length ++
    (after.driver.writes.drop before.driver.writes.length).map RegWrite.base

def Safe (state : State) (action : Action) : Prop :=
  ∀ next, step state action = some next → ∀ base ∈ accesses state next, Mapped next base

def setsLed : Action → Bool
  | .buttonIrq _ => true
  | .fileOp _ _ op => op.level.isSome
  | _ => false

def AfterMapping (state : State) (action : Action) : Prop :=
  setsLed action = true → state.lastLed = some (.probe true)

instance (state : State) (action : Action) : Decidable (AfterMapping state action) :=
  inferInstanceAs (Decidable (_ → _))

/-- The invariant: `led.base` is mapped exactly after a probe that mapped it. -/
def Linked (state : State) : Prop :=
  state.lastLed = some (.probe true) ↔ Mapped state state.driver.led.base

theorem linked_load : Linked load := by
  constructor
  · intro probed
    cases probed
  · rintro ⟨address, same, _⟩
    cases same

theorem linked_of_same {state next : State} (linked : Linked state)
    (last : next.lastLed = state.lastLed) (base : next.driver.led.base = state.driver.led.base)
    (mappings : ∀ address, next.ledger (.mapping address) = state.ledger (.mapping address)) :
    Linked next := by
  unfold Linked Mapped at linked ⊢
  rw [last, base, linked]
  simp only [mappings]

theorem set_given_level_base (level : Option Bool) (driver : Driver) :
    (setGivenLevel level driver).led.base = driver.led.base := by
  cases level with
  | none => rfl
  | some level =>
      obtain ⟨_, _, _, base⟩ := set_led_state_writes level driver
      exact base

theorem mapping_of_led_acquires {kernel : LedKernel} {address : Nat}
    (mapped : kernel.ofIomap = some address) (devNum : Nat) :
    Object.mapping address ∈ kernel.acquires devNum := by
  simp [LedKernel.acquires, mapped]

theorem mapping_of_button_acquires (device : Device) (kernel : ButtonKernel)
    (ledger : Ledger Object Device) (address : Nat) :
    settle device (kernel.acquires.map .acquire) ledger (.mapping address) =
      ledger (.mapping address) := by
  have absent : Object.mapping address ∉ kernel.acquires := by
    unfold ButtonKernel.acquires
    split_ifs <;> simp
  rw [settle_acquires, if_neg absent]

theorem linked_step {state next : State} {action : Action} (linked : Linked state)
    (stepped : step state action = some next) : Linked next := by
  cases step_effect stepped with
  | ledProbe id node oeValue kernel unbound fresh =>
      rcases led_probe_cases (.led id) node oeValue kernel state with
        ⟨_, driver, base, _, probed⟩ | ⟨address, write, mapped, driver, base, _, _, probed⟩
      · simp [Linked, Mapped, probed, base]
      · have held := mapping_of_led_acquires mapped (kernel.devNum state)
        simp [Linked, Mapped, probed, base, settle_acquires, held]
  | ledRemove id stored bound =>
      constructor
      · intro probed
        cases probed
      · rintro ⟨address, same, mapped⟩
        have released : Object.mapping address ∈ (state.data (.led id)).releases := by
          change state.driver.led.base = some address at same
          simp [State.data, Data.releases, same]
        refine absurd ?_ mapped
        change settle (.led id) ((state.data (.led id)).releases.map .release) state.ledger
          (.mapping address) = none
        rw [settle_releases, if_pos released]
  | buttonProbe id kernel unbound fresh =>
      rcases bububutton_probe_cases (.button id) kernel state with ⟨_, _, probed⟩ | ⟨_, probed⟩
      · apply linked_of_same linked <;> simp [probed]
      · apply linked_of_same linked <;> simp [probed, mapping_of_button_acquires]
  | buttonRemove id stored bound =>
      apply linked_of_same linked rfl rfl
      intro address
      change settle (.button id) ((state.data (.button id)).releases.map .release) state.ledger
        (.mapping address) = _
      rw [settle_releases, if_neg (by simp [State.data, Data.releases])]
  | buttonIrq id =>
      exact linked_of_same linked rfl (set_given_level_base (some _) _) fun _ => rfl
  | fileOp ledClass devNum op =>
      have base : (op.perform state.driver).led.base = state.driver.led.base := by
        rw [file_op_sets_level]
        exact set_given_level_base _ _
      exact linked_of_same linked rfl base fun _ => rfl

/-- A step that sets the LED makes one access, at `led.base`, and changes no mapping. -/
theorem setting_step {state next : State} {action : Action} (sets : setsLed action = true)
    (stepped : step state action = some next) :
    accesses state next = [state.driver.led.base] ∧ next.ledger = state.ledger := by
  have one : ∀ level, ((setLedState level state.driver).writes.drop
      state.driver.writes.length).map RegWrite.base = [state.driver.led.base] := by
    intro level
    obtain ⟨write, base, writes, _⟩ := set_led_state_writes level state.driver
    rw [writes, List.drop_left, List.map_singleton, base]
  cases step_effect stepped with
  | ledProbe id node oeValue kernel unbound fresh => simp [setsLed] at sets
  | ledRemove id stored bound => simp [setsLed] at sets
  | buttonProbe id kernel unbound fresh => simp [setsLed] at sets
  | buttonRemove id stored bound => simp [setsLed] at sets
  | buttonIrq id => simp [accesses, buttonIrqHandler, one]
  | fileOp ledClass devNum op =>
      obtain ⟨level, known⟩ := Option.isSome_iff_exists.mp sets
      simp [accesses, file_op_sets_level, known, setGivenLevel, one]

theorem other_step {state next : State} {action : Action} (sets : setsLed action = false)
    (stepped : step state action = some next) :
    ∀ base ∈ accesses state next, Mapped next base := by
  have nothing : next.reads = state.reads → next.driver.writes = state.driver.writes →
      ∀ base ∈ accesses state next, Mapped next base := by
    intro reads writes base accessed
    simp [accesses, reads, writes] at accessed
  cases step_effect stepped with
  | ledProbe id node oeValue kernel unbound fresh =>
      rcases led_probe_cases (.led id) node oeValue kernel state with
        ⟨_, driver, _, writes, probed⟩ | ⟨address, write, mapped, driver, _, writes, base, probed⟩
      · apply nothing
        · simp [probed]
        · simp [probed, writes]
      · have held := mapping_of_led_acquires mapped (kernel.devNum state)
        intro used accessed
        have same : used = some address := by simpa [accesses, probed, writes, base] using accessed
        exact ⟨address, same, by simp [probed, settle_acquires, held]⟩
  | ledRemove id stored bound => exact nothing rfl rfl
  | buttonProbe id kernel unbound fresh =>
      rcases bububutton_probe_cases (.button id) kernel state with ⟨_, _, probed⟩ | ⟨_, probed⟩
      · apply nothing <;> simp [probed]
      · apply nothing <;> simp [probed]
  | buttonRemove id stored bound => exact nothing rfl rfl
  | buttonIrq id => simp [setsLed] at sets
  | fileOp ledClass devNum op =>
      have silent : op.level = none := by simpa [setsLed] using sets
      apply nothing rfl
      simp [file_op_sets_level, silent, setGivenLevel]

theorem safe_iff_after_mapping {state next : State} {action : Action} (linked : Linked state)
    (stepped : step state action = some next) :
    Safe state action ↔ AfterMapping state action := by
  have single : Safe state action ↔ ∀ base ∈ accesses state next, Mapped next base := by
    constructor
    · intro safe
      exact safe next stepped
    · intro safe other otherStep
      cases Option.some.inj (stepped.symm.trans otherStep)
      exact safe
  rw [single]
  unfold AfterMapping
  cases sets : setsLed action with
  | false => simpa using other_step sets stepped
  | true =>
      obtain ⟨access, ledger⟩ := setting_step sets stepped
      have after : state.lastLed = some (.probe true) ↔ Mapped state state.driver.led.base := linked
      rw [after, access]
      simp [Mapped, ledger]

/-- In every run from the loading of the modules: all register accesses use
mapped addresses exactly when the LED is set only after a mapping probe. -/
theorem accesses_mapped_iff (actions : List Action) (final : State)
    (ran : run step load actions = some final) :
    Meets step Safe load actions ↔ Meets step AfterMapping load actions :=
  meets_iff_of_run (fun _ _ _ linked _ stepped => linked_step linked stepped)
    (fun _ _ _ linked stepped => safe_iff_after_mapping linked stepped) linked_load ran

theorem press_between_probe_and_remove : Meets step Safe load (bothProbed ++ [.buttonIrq 0]) := by
  have reached : ∃ final, run step load (bothProbed ++ [.buttonIrq 0]) = some final :=
    ⟨_, rfl⟩
  obtain ⟨final, ran⟩ := reached
  exact (accesses_mapped_iff _ final ran).mpr (by decide)

/-- A press after `led_remove` writes through the address that was unmapped. -/
theorem press_after_led_remove : ¬∀ actions final, run step load actions = some final →
    Meets step Safe load actions := by
  intro safe
  have reached : ∃ final, run step load (bothProbed ++ [.ledRemove 0, .buttonIrq 0]) = some final :=
    ⟨_, rfl⟩
  obtain ⟨final, ran⟩ := reached
  have press := (((safe _ final ran).2 _ rfl).2 _ rfl).2 _ rfl
  obtain ⟨address, same, held⟩ := press.1 _ rfl (some 0x1000) (by decide)
  cases same
  exact held rfl

end LinuxFff.DriverLifecycle
