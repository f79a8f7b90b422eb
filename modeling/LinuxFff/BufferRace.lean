import LinuxFff.BufferDevice
import LinuxFff.StepSystem

/-!
# Overlapping calls of the buffer drivers

`my_read` loads the shared size at its test, at its comparison and at its
subtraction, and no lock keeps a write or a clear from storing a new size in
between. A read copies within the buffer, and no more than its caller asked
for, exactly when the sizes that its last two loads return fit its offset and
its count.
-/

namespace LinuxFff.BufferRace

open LinuxFff.StepSystem LinuxFff.SizeArith LinuxFff.BufferDevice

set_option autoImplicit false

inductive Driver where
  | ex2
  | ex3
  | multiDevices
  deriving DecidableEq

def Driver.minors : Driver → Nat
  | .ex2 => 1
  | .ex3 => 1
  | .multiDevices => MultiDevices.numDevices

def Driver.clears : Driver → Bool
  | .ex3 => true
  | _ => false

inductive ReadPhase where
  | testing
  | comparing
  | subtracting
  | copying (len : Nat)
  | returned
  deriving DecidableEq

inductive WritePhase where
  | copying
  | storing
  | returned
  deriving DecidableEq

/-- A call in progress. A clear is the part of `my_ioctl` after its switch. -/
inductive Call where
  | reading (count : Nat) (offset : LOff) (phase : ReadPhase)
  | writing (count : Nat) (phase : WritePhase)
  | clearing (stored : Bool)
  deriving DecidableEq

structure Thread where
  minor : Nat
  call : Call
  deriving DecidableEq

structure State where
  size : Nat → Nat
  threads : Nat → Option Thread

inductive Action where
  | startRead (thread minor count : Nat) (offset : LOff)
  | startWrite (thread minor count : Nat)
  | startClear (thread : Nat)
  | advance (thread : Nat) (copied : Bool)

/-- One step of a call that finds this size in the shared variable: the call
afterwards and the size afterwards. -/
def Call.advance (abi : Abi) (size : Nat) (copied : Bool) : Call → Option (Call × Nat)
  | .reading count offset .testing =>
      if abi.offsetOperand offset.val ≥ size then
        some (.reading count offset .returned, size)
      else some (.reading count offset .comparing, size)
  | .reading count offset .comparing =>
      if (count : Int) > abi.sizeSubOffset size offset.val then
        some (.reading count offset .subtracting, size)
      else some (.reading count offset (.copying count), size)
  | .reading count offset .subtracting =>
      some (.reading count offset (.copying (abi.toSize (abi.sizeSubOffset size offset.val))),
        size)
  | .reading count offset (.copying _) => some (.reading count offset .returned, size)
  | .reading _ _ .returned => none
  | .writing count .copying =>
      if copied then some (.writing count .storing, size)
      else some (.writing count .returned, size)
  | .writing count .storing => some (.writing count .returned, min count bufSize)
  | .writing _ .returned => none
  | .clearing false => some (.clearing true, 0)
  | .clearing true => none

def State.setThread (state : State) (index : Nat) (thread : Thread) : State :=
  { state with threads := Function.update state.threads index (some thread) }

def State.start (driver : Driver) (state : State) (index minor : Nat) (call : Call) :
    Option State :=
  match state.threads index with
  | some _ => none
  | none => if minor < driver.minors then some (state.setThread index ⟨minor, call⟩) else none

def step (driver : Driver) (abi : Abi) (state : State) : Action → Option State
  | .startRead index minor count offset =>
      state.start driver index minor (.reading count offset .testing)
  | .startWrite index minor count => state.start driver index minor (.writing count .copying)
  | .startClear index =>
      if driver.clears then state.start driver index 0 (.clearing false) else none
  | .advance index copied =>
      match state.threads index with
      | none => none
      | some thread =>
          match thread.call.advance abi (state.size thread.minor) copied with
          | none => none
          | some (call, size) =>
              some { state.setThread index { thread with call } with
                size := Function.update state.size thread.minor size }

def initial : State := { size := fun _ => 0, threads := fun _ => none }

/-- At `copy_to_user` the range lies in the buffer and is no longer than the
count of the caller. -/
def Call.InBounds : Call → Prop
  | .reading count offset (.copying len) => offset.val + len ≤ bufSize ∧ len ≤ count
  | _ => True

def BoundsHold (state : State) : Prop :=
  ∀ index thread, state.threads index = some thread → thread.call.InBounds

/-- The size that a read loads at its comparison has not fallen below the
offset (or it does no harm that it has), and the size that it loads at its
subtraction lies between the offset and the end of the range asked for. -/
def Call.LoadFits (abi : Abi) (size : Nat) : Call → Prop
  | .reading count offset .comparing =>
      offset.val ≤ size ∨ offset.val + count ≤ bufSize ∨
        abi.sizeSubOffset size offset.val < count
  | .reading count offset .subtracting => offset.val ≤ size ∧ size ≤ offset.val + count
  | _ => True

def LoadsFit (abi : Abi) (state : State) : Action → Prop
  | .advance index _ => ∀ thread, state.threads index = some thread →
      thread.call.LoadFits abi (state.size thread.minor)
  | _ => True

/-- The steps of a read compute `readLength` of the sizes that they load. -/
theorem read_advances (abi : Abi) (count : Nat) (offset : LOff) (first second third : Nat)
    (copied : Bool) :
    match readLength abi count offset.val first second third with
    | none => (Call.reading count offset .testing).advance abi first copied =
        some (.reading count offset .returned, first)
    | some len =>
        (Call.reading count offset .testing).advance abi first copied =
            some (.reading count offset .comparing, first) ∧
          ((Call.reading count offset .comparing).advance abi second copied =
              some (.reading count offset (.copying len), second) ∨
            (Call.reading count offset .comparing).advance abi second copied =
                some (.reading count offset .subtracting, second) ∧
              (Call.reading count offset .subtracting).advance abi third copied =
                some (.reading count offset (.copying len), third)) := by
  unfold readLength
  simp only [Call.advance]
  by_cases past : abi.offsetOperand offset.val ≥ first
  · simp [past]
  · by_cases more : (count : Int) > abi.sizeSubOffset second offset.val
    · simp [past, more]
    · simp [past, more]

def Call.Started : Call → Prop
  | .reading _ offset .comparing => offset.val < bufSize
  | .reading _ offset .subtracting => offset.val < bufSize
  | _ => True

structure Sound (state : State) : Prop where
  sizes : ∀ minor, state.size minor ≤ bufSize
  started : ∀ index thread, state.threads index = some thread → thread.call.Started

theorem advance_started (abi : Abi) (size : Nat) (copied : Bool) {call next : Call} {after : Nat}
    (small : size ≤ bufSize) (started : call.Started)
    (advanced : call.advance abi size copied = some (next, after)) :
    next.Started ∧ after ≤ bufSize := by
  cases call with
  | reading count offset phase =>
      cases phase with
      | testing =>
          have value := Abi.offset_operand_small abi offset.val (by omega) (by omega)
          simp only [Call.advance, value] at advanced
          split_ifs at advanced with past
          · cases advanced
            exact ⟨trivial, small⟩
          · cases advanced
            have inside : offset.val < bufSize := by omega
            exact ⟨inside, small⟩
      | comparing =>
          simp only [Call.advance] at advanced
          split_ifs at advanced
          · cases advanced
            exact ⟨started, small⟩
          · cases advanced
            exact ⟨trivial, small⟩
      | subtracting =>
          cases advanced
          exact ⟨trivial, small⟩
      | copying len =>
          cases advanced
          exact ⟨trivial, small⟩
      | returned => cases advanced
  | writing count phase =>
      cases phase with
      | copying =>
          simp only [Call.advance] at advanced
          split_ifs at advanced <;> cases advanced <;> exact ⟨trivial, small⟩
      | storing =>
          cases advanced
          exact ⟨trivial, Nat.min_le_right _ _⟩
      | returned => cases advanced
  | clearing stored =>
      cases stored with
      | false =>
          cases advanced
          exact ⟨trivial, Nat.zero_le _⟩
      | true => cases advanced

/-- One step of a call: its load fits exactly when what it goes on to copy is
in bounds. -/
theorem load_fits_iff (abi : Abi) (size : Nat) (copied : Bool) {call next : Call} {after : Nat}
    (small : size ≤ bufSize) (started : call.Started)
    (advanced : call.advance abi size copied = some (next, after)) :
    call.LoadFits abi size ↔ next.InBounds := by
  cases call with
  | reading count offset phase =>
      cases phase with
      | testing =>
          simp only [Call.advance] at advanced
          split_ifs at advanced <;> cases advanced <;> exact Iff.rfl
      | comparing =>
          have inside : offset.val < bufSize := started
          simp only [Call.advance] at advanced
          split_ifs at advanced with more
          · cases advanced
            simp only [Call.LoadFits, Call.InBounds, iff_true]
            exact Or.inr (Or.inr more)
          · cases advanced
            simp only [Call.LoadFits, Call.InBounds, le_refl, and_true]
            constructor
            · intro fits
              rcases fits with above | fits | less
              · have difference := Abi.size_sub_offset_within abi size offset.val
                  (by unfold bufSize at small; omega) (by omega) (by omega)
                rw [difference] at more
                omega
              · exact fits
              · exact absurd less more
            · intro fits
              exact Or.inr (Or.inl fits)
      | subtracting =>
          have inside : offset.val < bufSize := started
          cases advanced
          simp only [Call.LoadFits, Call.InBounds]
          by_cases above : offset.val ≤ size
          · have difference := Abi.size_sub_offset_within abi size offset.val
              (by unfold bufSize at small; omega) (by omega) (by omega)
            rw [difference, Abi.to_size_small abi _ (by omega)
              (by unfold bufSize at small; omega)]
            omega
          · have huge := Abi.to_size_wraps abi size offset.val (by omega)
              (by unfold bufSize at inside; omega)
            unfold bufSize at *
            omega
      | copying len =>
          cases advanced
          exact Iff.rfl
      | returned => cases advanced
  | writing count phase =>
      cases phase with
      | copying =>
          simp only [Call.advance] at advanced
          split_ifs at advanced <;> cases advanced <;> exact Iff.rfl
      | storing =>
          cases advanced
          exact Iff.rfl
      | returned => cases advanced
  | clearing stored =>
      cases stored with
      | false =>
          cases advanced
          exact Iff.rfl
      | true => cases advanced

def Call.Fresh : Call → Prop
  | .reading _ _ phase => phase = .testing
  | .writing _ phase => phase = .copying
  | .clearing stored => stored = false

theorem start_cases {driver : Driver} {state next : State} {index minor : Nat} {call : Call}
    (started : state.start driver index minor call = some next) :
    next = state.setThread index ⟨minor, call⟩ := by
  unfold State.start at started
  split at started
  · cases started
  · split_ifs at started
    exact (Option.some.inj started).symm

theorem step_cases {driver : Driver} {abi : Abi} {state next : State} {action : Action}
    (stepped : step driver abi state action = some next) :
    (∃ index thread, thread.call.Fresh ∧ next = state.setThread index thread ∧
      LoadsFit abi state action) ∨
    ∃ index copied thread call size, action = .advance index copied ∧
      state.threads index = some thread ∧
      thread.call.advance abi (state.size thread.minor) copied = some (call, size) ∧
      next = { state.setThread index { thread with call } with
        size := Function.update state.size thread.minor size } := by
  cases action with
  | startRead index minor count offset =>
      exact Or.inl ⟨index, ⟨minor, .reading count offset .testing⟩, rfl, start_cases stepped, trivial⟩
  | startWrite index minor count =>
      exact Or.inl ⟨index, ⟨minor, .writing count .copying⟩, rfl, start_cases stepped, trivial⟩
  | startClear index =>
      simp only [step] at stepped
      split_ifs at stepped
      exact Or.inl ⟨index, ⟨0, .clearing false⟩, rfl, start_cases stepped, trivial⟩
  | advance index copied =>
      right
      simp only [step] at stepped
      split at stepped
      · cases stepped
      · rename_i thread lookup
        split at stepped
        · cases stepped
        · rename_i call size advanced
          exact ⟨index, copied, thread, call, size, rfl, lookup, advanced,
            (Option.some.inj stepped).symm⟩

theorem fresh_started {call : Call} (fresh : call.Fresh) : call.Started := by
  cases call with
  | reading count offset phase =>
      cases fresh
      trivial
  | writing count phase => trivial
  | clearing stored => trivial

theorem fresh_in_bounds {call : Call} (fresh : call.Fresh) : call.InBounds := by
  cases call with
  | reading count offset phase =>
      cases fresh
      trivial
  | writing count phase => trivial
  | clearing stored => trivial

theorem sound_step {driver : Driver} {abi : Abi} {state next : State} {action : Action}
    (sound : Sound state) (stepped : step driver abi state action = some next) : Sound next := by
  rcases step_cases stepped with ⟨index, thread, fresh, nextEq, _⟩ |
    ⟨index, copied, thread, call, size, _, lookup, advanced, nextEq⟩
  · subst nextEq
    exact ⟨sound.sizes, (forall_update_iff sound.started).mpr (fresh_started fresh)⟩
  · subst nextEq
    obtain ⟨started, small⟩ := advance_started abi _ copied (sound.sizes thread.minor)
      (sound.started index thread lookup) advanced
    constructor
    · intro minor
      by_cases same : minor = thread.minor
      · simpa [same] using small
      · simpa [same] using sound.sizes minor
    · exact (forall_update_iff sound.started).mpr started

theorem loads_fit_step {driver : Driver} {abi : Abi} {state next : State} {action : Action}
    (sound : Sound state) (bounds : BoundsHold state)
    (stepped : step driver abi state action = some next) :
    LoadsFit abi state action ↔ BoundsHold next := by
  rcases step_cases stepped with ⟨index, thread, fresh, nextEq, fits⟩ |
    ⟨index, copied, thread, call, size, actionEq, lookup, advanced, nextEq⟩
  · subst nextEq
    have nextBounds : BoundsHold (state.setThread index thread) :=
      (forall_update_iff bounds).mpr (fresh_in_bounds fresh)
    exact ⟨fun _ => nextBounds, fun _ => fits⟩
  · subst actionEq nextEq
    have loadIff := load_fits_iff abi _ copied (sound.sizes thread.minor)
      (sound.started index thread lookup) advanced
    have nextIff : (∀ other found, Function.update state.threads index
        (some { thread with call }) other = some found → found.call.InBounds) ↔ call.InBounds :=
      forall_update_iff bounds
    constructor
    · intro fits
      exact nextIff.mpr (loadIff.mp (fits thread lookup))
    · intro nextBounds found foundLookup
      have same : found = thread := Option.some.inj (foundLookup.symm.trans lookup)
      rw [same]
      exact loadIff.mpr (nextIff.mp nextBounds)

theorem load_fits_of_stuck (abi : Abi) (size : Nat) (copied : Bool) {call : Call}
    (stuck : call.advance abi size copied = none) : call.LoadFits abi size := by
  cases call with
  | reading count offset phase =>
      cases phase with
      | comparing =>
          simp only [Call.advance] at stuck
          split_ifs at stuck
      | subtracting => cases stuck
      | testing => trivial
      | copying len => trivial
      | returned => trivial
  | writing count phase => trivial
  | clearing stored => trivial

theorem loads_fit_disabled {driver : Driver} {abi : Abi} {state : State} {action : Action}
    (disabled : step driver abi state action = none) : LoadsFit abi state action := by
  cases action with
  | advance index copied =>
      intro thread lookup
      simp only [step, lookup] at disabled
      split at disabled
      · rename_i stuck
        exact load_fits_of_stuck abi _ copied stuck
      · cases disabled
  | startRead index minor count offset => trivial
  | startWrite index minor count => trivial
  | startClear index => trivial

theorem sound_initial : Sound initial :=
  ⟨fun _ => Nat.zero_le _, fun _ _ lookup => by simp [initial] at lookup⟩

theorem bounds_initial : BoundsHold initial :=
  fun _ _ lookup => by simp [initial] at lookup

/-- For each driver and either width of `size_t`: in a run, every read that
reaches `copy_to_user` stays in bounds exactly when every load fits. -/
theorem reads_in_bounds_iff (driver : Driver) (abi : Abi) (actions : List Action) :
    (∀ before after reached, actions = before ++ after →
        run (step driver abi) initial before = some reached → BoundsHold reached) ↔
      Meets (step driver abi) (LoadsFit abi) initial actions :=
  meets_iff_always_good (fun _ _ _ sound stepped => sound_step sound stepped)
    (fun _ _ _ sound bounds stepped => loads_fit_step sound bounds stepped)
    (fun _ _ disabled => loads_fit_disabled disabled) sound_initial bounds_initial actions

/-- A read of 2000 bytes at offset 1000 of a full buffer, which a write shrinks
to 5 bytes between the comparison and the subtraction. -/
def shrinkingWrite : List Action :=
  [.startWrite 0 0 1024, .advance 0 true, .advance 0 true,
    .startRead 1 0 2000 ⟨1000, by decide⟩, .advance 1 true, .advance 1 true,
    .startWrite 2 0 5, .advance 2 true, .advance 2 true, .advance 1 true]

theorem shrinking_write_out_of_bounds (driver : Driver) (abi : Abi) :
    ∃ final, run (step driver abi) initial shrinkingWrite = some final ∧
      ¬BoundsHold final := by
  obtain ⟨final, ran, thread⟩ : ∃ final,
      run (step driver abi) initial shrinkingWrite = some final ∧
        final.threads 1 = some ⟨0, .reading 2000 ⟨1000, by decide⟩
          (.copying (abi.toSize (abi.sizeSubOffset 5 1000)))⟩ := by
    cases driver <;> cases abi <;> exact ⟨_, rfl, rfl⟩
  refine ⟨final, ran, ?_⟩
  intro bounds
  have inBounds := (bounds 1 _ thread).1
  have huge := Abi.to_size_wraps abi 5 1000 (by decide) (by decide)
  unfold bufSize at inBounds
  omega

theorem reads_leave_the_buffer :
    (∃ final, run (step .ex2 .lp64) initial shrinkingWrite = some final ∧ ¬BoundsHold final) ∧
    (∃ final, run (step .ex3 .lp64) initial shrinkingWrite = some final ∧ ¬BoundsHold final) ∧
    ∃ final, run (step .multiDevices .lp64) initial shrinkingWrite = some final ∧
      ¬BoundsHold final :=
  ⟨shrinking_write_out_of_bounds .ex2 .lp64, shrinking_write_out_of_bounds .ex3 .lp64,
    shrinking_write_out_of_bounds .multiDevices .lp64⟩

end LinuxFff.BufferRace
