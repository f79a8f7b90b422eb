import LinuxFff.Serialization
import Mathlib.Algebra.BigOperators.Group.Finset.Basic
import Mathlib.Algebra.Group.Action.Defs
import Mathlib.Algebra.Order.BigOperators.Group.Finset

/-!
# The counter with a mutex

`ex2.c` of assignment 7 (`ex1.c` of assignment 8 is the same program): `NUM_THREADS`
threads run `increment`, whose loop locks `counter_mutex`, adds one to `counter` with a load
and a store, and unlocks. The numbers of threads and of rounds are left open. With those of the
program the counter ends at 100000, which an `int` holds.
-/

namespace LinuxFff.SharedCounter

open LinuxFff.Serialization LinuxFff.StepSystem

set_option autoImplicit false

section Sums

def total (threads : Nat) (amount : Nat → Nat) : Nat :=
  ∑ thread ∈ Finset.range threads, amount thread

variable {threads thread bound : Nat} {before after : Nat → Nat}

theorem total_zero : total threads (fun _ => 0) = 0 := Finset.sum_const_zero

theorem total_add {extra : Nat} (inside : thread < threads)
    (here : after thread = before thread + extra)
    (others : ∀ other, other ≠ thread → after other = before other) :
    total threads after = total threads before + extra := by
  have member : thread ∈ Finset.range threads := Finset.mem_range.mpr inside
  have rest : ∑ other ∈ (Finset.range threads).erase thread, after other =
      ∑ other ∈ (Finset.range threads).erase thread, before other :=
    Finset.sum_congr rfl fun other elsewhere => others other (Finset.ne_of_mem_erase elsewhere)
  unfold total
  rw [← Finset.add_sum_erase _ after member, ← Finset.add_sum_erase _ before member, rest, here]
  omega

theorem total_congr (same : ∀ other, other < threads → after other = before other) :
    total threads after = total threads before :=
  Finset.sum_congr rfl fun other member => same other (Finset.mem_range.mp member)

theorem total_le (limited : ∀ other, other < threads → before other ≤ bound) :
    total threads before ≤ threads * bound := by
  have each := Finset.sum_le_card_nsmul (Finset.range threads) before bound fun other member =>
    limited other (Finset.mem_range.mp member)
  rwa [Finset.card_range, smul_eq_mul] at each

theorem total_const (each : ∀ other, other < threads → before other = bound) :
    total threads before = threads * bound := by
  have all := Finset.sum_const_nat (s := Finset.range threads) fun other member =>
    each other (Finset.mem_range.mp member)
  rwa [Finset.card_range] at all

theorem exists_of_total_pos (positive : 0 < total threads before) :
    ∃ other, other < threads ∧ 0 < before other := by
  by_contra none
  have all : ∀ other, other < threads → before other = 0 := by
    intro other inside
    by_contra something
    exact none ⟨other, inside, Nat.pos_of_ne_zero something⟩
  rw [total_const all, Nat.mul_zero] at positive
  exact absurd positive (Nat.lt_irrefl 0)

theorem le_total (inside : thread < threads) : before thread ≤ total threads before :=
  Finset.single_le_sum_of_canonicallyOrdered (Finset.mem_range.mpr inside)

end Sums

inductive Local where
  | loading
  | storing (value : Nat)
  deriving DecidableEq

def increment : Code Unit Local Nat Unit where
  enter _ := .loading
  access
    | .loading, counter => (counter, .inl (.storing counter))
    | .storing value, _ => (value + 1, .inr ())

/-- `core.shared` is `counter`, and `i` the loop variable of each thread. -/
structure State where
  core : Serialization.State Unit Local Nat Unit
  i : Nat → Nat

def initial : State := ⟨begin 0, fun _ => 0⟩

section Program

variable (numThreads numIncrements : Nat)

/-- The loop test stands before the call, `i++` behind the unlock. -/
def step (state : State) : Action Unit → Option State
  | .call thread () =>
      if thread < numThreads ∧ state.i thread < numIncrements then
        (Serialization.step increment state.core (.call thread ())).map fun core =>
          { state with core }
      else none
  | .unlock thread =>
      (Serialization.step increment state.core (.unlock thread)).map fun core =>
        ⟨core, Function.update state.i thread (state.i thread + 1)⟩
  | action =>
      (Serialization.step increment state.core action).map fun core => { state with core }

/-- Every thread has left its loop, so that `main` has joined all of them. -/
def Returned (state : State) : Prop :=
  ∀ thread, thread < numThreads →
    state.core.phases thread = none ∧ state.i thread = numIncrements

end Program

/-- Alone, the body of the loop adds one. -/
theorem increment_adds_one :
    Implements increment (fun _ (counter : Nat) => (counter + 1, ())) := by
  apply implements_of_invariant
    (fun _ before here between => between = before ∧ (here = .loading ∨ here = .storing before))
  case starts => exact fun _ _ => ⟨rfl, Or.inl rfl⟩
  case kept =>
    rintro _ before here between moved after ⟨same, place⟩ accessed
    cases here with
    | loading =>
        cases accessed
        exact ⟨same, Or.inr (by rw [same])⟩
    | storing value => cases accessed
  case ends =>
    rintro _ before here between result after ⟨same, place⟩ accessed
    cases here with
    | loading => cases accessed
    | storing value =>
        cases accessed
        rcases place with impossible | stored
        · cases impossible
        · cases stored
          rfl

/-- The accesses and lock operations of the current round that are done. -/
def place : Option (Phase Unit Local Unit) → Nat
  | none => 0
  | some (.waiting _) => 1
  | some (.inside _ .loading) => 2
  | some (.inside _ (.storing _)) => 3
  | some (.leaving _ _) => 4

def done (state : State) (thread : Nat) : Nat :=
  5 * state.i thread + place (state.core.phases thread)

inductive Effect (numThreads numIncrements : Nat) (state : State) (thread : Nat) : State → Prop where
  | within (new : Phase Unit Local Unit) (core : Serialization.State Unit Local Nat Unit)
      (admitted : state.core.phases thread = none →
        thread < numThreads ∧ state.i thread < numIncrements)
      (further : place (some new) = place (state.core.phases thread) + 1)
      (phases : core.phases = Function.update state.core.phases thread (some new))
      (served : core.served = state.core.served) :
      Effect numThreads numIncrements state thread { state with core }
  | unlock (result : Unit) (core : Serialization.State Unit Local Nat Unit) (i : Nat → Nat)
      (lookup : state.core.phases thread = some (.leaving () result))
      (phases : core.phases = Function.update state.core.phases thread none)
      (served : core.served.length = state.core.served.length + 1)
      (here : i thread = state.i thread + 1)
      (others : ∀ other, other ≠ thread → i other = state.i other) :
      Effect numThreads numIncrements state thread ⟨core, i⟩

section Steps

variable {numThreads numIncrements : Nat} {state next : State} {action : Action Unit}

theorem step_core (stepped : step numThreads numIncrements state action = some next) :
    Serialization.step increment state.core action = some next.core := by
  cases action with
  | call thread call =>
      simp only [step, Option.ite_none_right_eq_some, Option.map_eq_some_iff] at stepped
      obtain ⟨_, core, coreStep, same⟩ := stepped
      rw [← same]
      exact coreStep
  | lock thread =>
      obtain ⟨core, coreStep, same⟩ := Option.map_eq_some_iff.mp stepped
      rw [← same]
      exact coreStep
  | access thread =>
      obtain ⟨core, coreStep, same⟩ := Option.map_eq_some_iff.mp stepped
      rw [← same]
      exact coreStep
  | unlock thread =>
      obtain ⟨core, coreStep, same⟩ := Option.map_eq_some_iff.mp stepped
      rw [← same]
      exact coreStep

theorem access_further {here moved : Local} {counter after : Nat}
    (accessed : increment.access here counter = (after, .inl moved)) :
    place (some (.inside () moved)) = place (some (.inside () here)) + 1 := by
  cases here with
  | loading =>
      cases accessed
      rfl
  | storing value => cases accessed

theorem access_last {here : Local} {counter after : Nat} {result : Unit}
    (accessed : increment.access here counter = (after, .inr result)) :
    place (some (.leaving () result)) = place (some (.inside () here)) + 1 := by
  cases here with
  | loading => cases accessed
  | storing value =>
      cases accessed
      rfl

theorem step_effect (stepped : step numThreads numIncrements state action = some next) :
    Effect numThreads numIncrements state action.thread next := by
  cases action with
  | call thread call =>
      simp only [step, Option.ite_none_right_eq_some, Option.map_eq_some_iff] at stepped
      obtain ⟨admitted, core, coreStep, same⟩ := stepped
      rw [← same]
      cases Serialization.step_effect coreStep with
      | call _ call idle =>
          refine Effect.within (.waiting call) _ (fun _ => admitted) ?_ rfl rfl
          rw [Action.thread, idle]
          rfl
  | lock thread =>
      obtain ⟨core, coreStep, same⟩ := Option.map_eq_some_iff.mp stepped
      rw [← same]
      cases Serialization.step_effect coreStep with
      | lock _ call waits free =>
          refine Effect.within (.inside call .loading) _ ?_ ?_ rfl rfl
          · intro impossible
            exact absurd (waits.symm.trans impossible) (by simp)
          · rw [Action.thread, waits]
            rfl
  | access thread =>
      obtain ⟨core, coreStep, same⟩ := Option.map_eq_some_iff.mp stepped
      rw [← same]
      cases Serialization.step_effect coreStep with
      | goOn _ call here moved shared inside accessed =>
          refine Effect.within (.inside call moved) _ ?_ ?_ rfl rfl
          · intro impossible
            exact absurd (inside.symm.trans impossible) (by simp)
          · rw [Action.thread, inside]
            exact access_further accessed
      | finish _ call here result shared inside accessed =>
          refine Effect.within (.leaving call result) _ ?_ ?_ rfl rfl
          · intro impossible
            exact absurd (inside.symm.trans impossible) (by simp)
          · rw [Action.thread, inside]
            exact access_last accessed
  | unlock thread =>
      obtain ⟨core, coreStep, same⟩ := Option.map_eq_some_iff.mp stepped
      rw [← same]
      cases Serialization.step_effect coreStep with
      | unlock _ call result leaves =>
          exact Effect.unlock result _ _ leaves rfl List.length_append
            (Function.update_self _ _ _) fun other differs => Function.update_of_ne differs _ _

end Steps

/-- The counts of a run: the rounds that are over have been served, and each step is one of a
round. -/
structure Counted (numThreads numIncrements : Nat) (past : List (Action Unit)) (state : State) :
    Prop where
  limited : ∀ thread, state.i thread ≤ numIncrements
  busy : ∀ thread phase, state.core.phases thread = some phase →
    thread < numThreads ∧ state.i thread < numIncrements
  served : total numThreads state.i = state.core.served.length
  steps : total numThreads (done state) = past.length

section Runs

variable {numThreads numIncrements : Nat} {state next : State} {past : List (Action Unit)}

theorem counted_initial : Counted numThreads numIncrements [] initial where
  limited := fun _ => Nat.zero_le _
  busy := by
    intro thread phase impossible
    cases impossible
  served := total_zero
  steps := total_zero

theorem counted_step {action : Action Unit} (counted : Counted numThreads numIncrements past state)
    (stepped : step numThreads numIncrements state action = some next) :
    Counted numThreads numIncrements (past ++ [action]) next := by
  have length : (past ++ [action]).length = past.length + 1 := List.length_append
  cases step_effect stepped with
  | within new core admitted further phases served =>
      have inside : action.thread < numThreads ∧ state.i action.thread < numIncrements := by
        cases lookup : state.core.phases action.thread with
        | none => exact admitted lookup
        | some phase => exact counted.busy _ phase lookup
      constructor
      case limited => exact counted.limited
      case busy => exact forall_update counted.busy phases inside
      case served =>
        rw [served]
        exact counted.served
      case steps =>
        rw [length, ← counted.steps]
        apply total_add inside.1
        · simp only [done, phases, Function.update_self, further]
          omega
        · intro other differs
          simp only [done, phases, Function.update_of_ne differs]
  | unlock result core i lookup phases served here others =>
      have inside := counted.busy _ _ lookup
      constructor
      case limited =>
        intro other
        by_cases same : other = action.thread
        · rw [same]
          change i action.thread ≤ numIncrements
          rw [here]
          exact inside.2
        · change i other ≤ numIncrements
          rw [others other same]
          exact counted.limited other
      case busy =>
        intro other phase found
        rw [phases] at found
        by_cases same : other = action.thread
        · rw [same, Function.update_self] at found
          cases found
        · rw [Function.update_of_ne same] at found
          change other < numThreads ∧ i other < numIncrements
          rw [others other same]
          exact counted.busy other phase found
      case served =>
        rw [served, ← counted.served]
        exact total_add inside.1 here others
      case steps =>
        rw [length, ← counted.steps]
        apply total_add inside.1
        · simp only [done, phases, Function.update_self, lookup, place, here]
          omega
        · intro other differs
          simp only [done, phases, Function.update_of_ne differs, others other differs]

theorem serialised_of_run {actions : List (Action Unit)}
    (ran : run (step numThreads numIncrements) initial actions = some state) :
    Serialised increment (fun _ counter => (counter + 1, ())) 0 state.core := by
  have matched : ∀ before action after, True →
      step numThreads numIncrements before action = some after →
      Matched (Serialization.step increment) before.core after.core :=
    fun _ action _ _ stepped => Or.inr ⟨action, step_core stepped⟩
  obtain ⟨coreActions, coreRan⟩ := run_refines (fun _ _ _ _ _ => trivial) matched trivial ran
  exact serialised_run increment_adds_one coreRan

theorem replays_count {start shared : Nat} {served : List (Served Unit Unit)}
    (replays : Replays (fun _ counter => (counter + 1, ())) start served shared) :
    shared = start + served.length := by
  induction served generalizing start with
  | nil => exact replays
  | cons call rest ih =>
      have after : shared = start + 1 + rest.length := ih replays.2
      rw [List.length_cons]
      omega

theorem place_le (phase : Phase Unit Local Unit) : place (some phase) ≤ 4 := by
  cases phase with
  | waiting call => exact Nat.le_of_ble_eq_true rfl
  | inside call here =>
      cases here with
      | loading => exact Nat.le_of_ble_eq_true rfl
      | storing value => exact Nat.le_of_ble_eq_true rfl
  | leaving call result => exact Nat.le_refl 4

theorem Counted.done_le (counted : Counted numThreads numIncrements past state) (thread : Nat) :
    done state thread ≤ 5 * numIncrements := by
  have limited := counted.limited thread
  unfold done
  cases lookup : state.core.phases thread with
  | none =>
      rw [place]
      omega
  | some phase =>
      have busy := counted.busy thread phase lookup
      have below := place_le phase
      omega

end Runs

/-- With the mutex, any number of threads in any order: every run is over after five steps for
each increment, a run that cannot go on has all the threads returned, and then the counter is
the number of increments. -/
theorem counter_is_exact (numThreads numIncrements : Nat) (actions : List (Action Unit))
    (state : State) (ran : run (step numThreads numIncrements) initial actions = some state) :
    actions.length ≤ numThreads * (5 * numIncrements) ∧
      ((∀ action, step numThreads numIncrements state action = none) →
        Returned numThreads numIncrements state) ∧
      (Returned numThreads numIncrements state →
        state.core.shared = numThreads * numIncrements) := by
  have serialised : Serialised increment (fun _ counter => (counter + 1, ())) 0 state.core :=
    serialised_of_run ran
  have kept : ∀ past before action after, Counted numThreads numIncrements past before → True →
      step numThreads numIncrements before action = some after →
      Counted numThreads numIncrements (past ++ [action]) after :=
    fun _ _ _ _ counted _ stepped => counted_step counted stepped
  have counted : Counted numThreads numIncrements actions state :=
    run_keeps_past kept counted_initial (fun _ _ => trivial) ran
  refine ⟨?_, ?_, ?_⟩
  case refine_1 =>
    rw [← counted.steps]
    exact total_le fun thread _ => counted.done_le thread
  case refine_2 =>
    intro stuck thread inside
    cases lookup : state.core.phases thread with
    | none =>
        refine ⟨rfl, ?_⟩
        by_contra unfinished
        have further : state.i thread < numIncrements :=
          Nat.lt_of_le_of_ne (counted.limited thread) unfinished
        have impossible := stuck (.call thread ())
        simp [step, inside, further, Serialization.step, lookup] at impossible
    | some phase =>
        obtain ⟨action, core, notCall, coreStep⟩ := serialised.progress lookup
        have impossible := stuck action
        cases action with
        | call other call => exact absurd rfl (notCall other call)
        | lock other => simp [step, coreStep] at impossible
        | access other => simp [step, coreStep] at impossible
        | unlock other => simp [step, coreStep] at impossible
  case refine_3 =>
    intro returned
    have free : state.core.owner = none := by
      cases owner : state.core.owner with
      | none => rfl
      | some holder =>
          obtain ⟨phase, lookup⟩ := serialised.held holder owner
          have gone := (returned holder (counted.busy holder phase lookup).1).1
          rw [lookup] at gone
          cases gone
    have counter := replays_count (serialised.idle free)
    rw [counter, ← counted.served, total_const fun thread inside => (returned thread inside).2]
    omega

/-- Thread 1 waits while thread 0 adds one. -/
def twoThreads : List (Action Unit) :=
  [.call 0 (), .call 1 (), .lock 0, .access 0, .access 0, .unlock 0, .lock 1, .access 1, .access 1,
    .unlock 1]

theorem counter_is_exact_two_threads :
    ∃ state, run (step 2 1) initial twoThreads = some state ∧ state.core.shared = 2 * 1 := by
  obtain ⟨_, _, added⟩ := counter_is_exact 2 1 twoThreads _ rfl
  refine ⟨_, rfl, added ?_⟩
  intro thread inside
  match thread, inside with
  | 0, _ => exact ⟨rfl, rfl⟩
  | 1, _ => exact ⟨rfl, rfl⟩

end LinuxFff.SharedCounter
