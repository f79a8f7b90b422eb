import Mathlib.Data.List.Basic
import Mathlib.Logic.Function.Basic

/-!
# Runs of a labelled step function

A concurrent or reactive program is given by a step function: an action that
is not enabled in a state has no successor. A run is a finite list of actions,
so a statement about every run is a statement about every interleaving. The
rules below turn a fact about one step into a fact about a whole run; `Meets`
restricts a run to the steps that are taken where a condition holds.
-/

namespace LinuxFff.StepSystem

set_option autoImplicit false

variable {State Action : Type*}

def run (step : State → Action → Option State) : State → List Action → Option State
  | state, [] => some state
  | state, action :: rest => (step state action).bind fun next => run step next rest

/-- Every step of the run is taken in a state that meets the condition. -/
def Meets (step : State → Action → Option State) (condition : State → Action → Prop) :
    State → List Action → Prop
  | _, [] => True
  | state, action :: rest =>
      condition state action ∧
        ∀ next, step state action = some next → Meets step condition next rest

instance decidableMeets (step : State → Action → Option State)
    (condition : State → Action → Prop)
    [decide : ∀ state action, Decidable (condition state action)] :
    ∀ state actions, Decidable (Meets step condition state actions)
  | _, [] => isTrue trivial
  | state, action :: rest =>
      match stepped : step state action with
      | none => decidable_of_iff (condition state action)
          ⟨fun here => ⟨here, fun _ other => absurd (stepped.symm.trans other) (by simp)⟩,
            fun meets => meets.1⟩
      | some next =>
          match decide state action, decidableMeets step condition next rest with
          | isTrue here, isTrue later => isTrue
              ⟨here, fun _ other => Option.some.inj (stepped.symm.trans other) ▸ later⟩
          | isFalse fails, _ => isFalse fun meets => fails meets.1
          | _, isFalse fails => isFalse fun meets => fails (meets.2 next stepped)

variable {step : State → Action → Option State} {condition : State → Action → Prop}

theorem run_cons_some {state final : State} {action : Action} {rest : List Action} :
    run step state (action :: rest) = some final ↔
      ∃ next, step state action = some next ∧ run step next rest = some final := by
  simp only [run, Option.bind_eq_some_iff]

theorem run_append {state middle : State} {earlier later : List Action}
    (ran : run step state earlier = some middle) :
    run step state (earlier ++ later) = run step middle later := by
  induction earlier generalizing state with
  | nil =>
      cases ran
      rfl
  | cons action rest ih =>
      obtain ⟨next, stepped, restRun⟩ := run_cons_some.mp ran
      rw [List.cons_append, run, stepped]
      exact ih restRun

theorem run_rounds {reached : Nat → State → Prop} {round : Nat → List Action} {start : State}
    (begins : reached 0 start)
    (goesOn : ∀ size state, reached size state →
      ∃ final, run step state (round size) = some final ∧ reached (size + 1) final)
    (size : Nat) :
    ∃ final, run step start ((List.range size).flatMap round) = some final ∧
      reached size final := by
  induction size with
  | zero => exact ⟨start, rfl, begins⟩
  | succ size ih =>
      obtain ⟨middle, ran, here⟩ := ih
      obtain ⟨final, last, after⟩ := goesOn size middle here
      refine ⟨final, ?_, after⟩
      rw [List.range_succ, List.flatMap_append, List.flatMap_singleton, run_append ran]
      exact last

/-- The run rule: what every step that meets the condition keeps, a run of
such steps keeps. -/
theorem run_keeps {invariant : State → Prop}
    (kept : ∀ state action next, invariant state → condition state action →
      step state action = some next → invariant next)
    {start final : State} {actions : List Action}
    (holds : invariant start) (meets : Meets step condition start actions)
    (ran : run step start actions = some final) : invariant final := by
  induction actions generalizing start with
  | nil =>
      cases ran
      exact holds
  | cons action rest ih =>
      obtain ⟨next, stepped, restRun⟩ := run_cons_some.mp ran
      exact ih (kept start action next holds meets.1 stepped) (meets.2 next stepped) restRun

theorem meets_cons {state next : State} {action : Action} {rest : List Action}
    (here : condition state action) (stepped : step state action = some next)
    (later : Meets step condition next rest) : Meets step condition state (action :: rest) := by
  refine ⟨here, ?_⟩
  intro other otherStep
  have same : other = next := Option.some.inj (otherStep.symm.trans stepped)
  subst same
  exact later

theorem meets_of_kept {invariant : State → Prop} {actions : List Action}
    (kept : ∀ action ∈ actions, ∀ state next, invariant state →
      step state action = some next → invariant next)
    (met : ∀ action ∈ actions, ∀ state, invariant state → condition state action)
    {state : State} (holds : invariant state) : Meets step condition state actions := by
  induction actions generalizing state with
  | nil => trivial
  | cons action rest ih =>
      refine ⟨met action (by simp) state holds, ?_⟩
      intro next stepped
      apply ih
      · exact fun other member => kept other (by simp [member])
      · exact fun other member => met other (by simp [member])
      · exact kept action (by simp) state next holds stepped

theorem meets_of_actions {actions : List Action}
    (always : ∀ action ∈ actions, ∀ state, condition state action) (state : State) :
    Meets step condition state actions := by
  have holds : (fun _ : State => True) state := trivial
  exact meets_of_kept (fun _ _ _ _ _ _ => trivial)
    (fun action member other _ => always action member other) holds

theorem Meets.and {other : State → Action → Prop} {actions : List Action} {state : State}
    (first : Meets step condition state actions) (second : Meets step other state actions) :
    Meets step (fun state action => condition state action ∧ other state action) state actions := by
  induction actions generalizing state with
  | nil => trivial
  | cons action rest ih =>
      refine ⟨⟨first.1, second.1⟩, ?_⟩
      intro next stepped
      exact ih (first.2 next stepped) (second.2 next stepped)

/-- A condition that gives another one under an invariant which it keeps. -/
theorem Meets.imp {other : State → Action → Prop} {invariant : State → Prop}
    (kept : ∀ state action next, invariant state → condition state action →
      step state action = some next → invariant next)
    (gives : ∀ state action, invariant state → condition state action → other state action)
    {start : State} {actions : List Action} (holds : invariant start)
    (meets : Meets step condition start actions) : Meets step other start actions := by
  induction actions generalizing start with
  | nil => trivial
  | cons action rest ih =>
      refine ⟨gives start action holds meets.1, ?_⟩
      intro next stepped
      exact ih (kept start action next holds meets.1 stepped) (meets.2 next stepped)

theorem run_keeps_always {invariant : State → Prop}
    (kept : ∀ state action next, invariant state →
      step state action = some next → invariant next)
    {start final : State} {actions : List Action}
    (holds : invariant start) (ran : run step start actions = some final) :
    invariant final := by
  have always : Meets step (fun _ _ => True) start actions :=
    meets_of_actions (fun _ _ _ => trivial) start
  exact run_keeps (fun state action next here _ stepped => kept state action next here stepped)
    holds always ran

/-- The termination rule: when the steps of one kind each lower a measure, and no other step
raises it, a run has no more of them than the measure at its start. -/
theorem run_count_le {invariant : State → Prop} {measure : State → Nat} {counted : Action → Bool}
    (kept : ∀ state action next, invariant state → step state action = some next →
      invariant next)
    (lowers : ∀ state action next, invariant state → step state action = some next →
      measure next + (if counted action = true then 1 else 0) ≤ measure state)
    {start final : State} {actions : List Action} (holds : invariant start)
    (ran : run step start actions = some final) :
    actions.countP counted + measure final ≤ measure start := by
  induction actions generalizing start with
  | nil =>
      cases ran
      simp
  | cons action rest ih =>
      obtain ⟨next, stepped, restRun⟩ := run_cons_some.mp ran
      have here := lowers start action next holds stepped
      have later := ih (kept start action next holds stepped) restRun
      rw [List.countP_cons]
      omega

/-- The rule for work that comes in: when the steps of one kind each lower a measure, and the
steps of another raise it by a bounded amount, then the former are bounded by the latter. -/
theorem run_count_le_fed {invariant : State → Prop} {measure : State → Nat}
    {counted fed : Action → Bool} {gain : Nat}
    (kept : ∀ state action next, invariant state → step state action = some next →
      invariant next)
    (pays : ∀ state action next, invariant state → step state action = some next →
      measure next + (if counted action = true then 1 else 0) ≤
        measure state + (if fed action = true then gain else 0))
    {start final : State} {actions : List Action} (holds : invariant start)
    (ran : run step start actions = some final) :
    actions.countP counted + measure final ≤ measure start + gain * actions.countP fed := by
  induction actions generalizing start with
  | nil =>
      cases ran
      simp
  | cons action rest ih =>
      obtain ⟨next, stepped, restRun⟩ := run_cons_some.mp ran
      have here := pays start action next holds stepped
      have later := ih (kept start action next holds stepped) restRun
      rw [List.countP_cons, List.countP_cons]
      by_cases feeds : fed action = true
      · rw [if_pos feeds] at here ⊢
        rw [Nat.mul_add, Nat.mul_one]
        omega
      · rw [if_neg feeds] at here ⊢
        rw [Nat.add_zero]
        omega

/-- The run rule for facts about the state and the actions taken so far. -/
theorem run_keeps_past {invariant : List Action → State → Prop} {allowed : Action → Prop}
    (kept : ∀ past state action next, invariant past state → allowed action →
      step state action = some next → invariant (past ++ [action]) next)
    {start final : State} {past actions : List Action} (holds : invariant past start)
    (all : ∀ action ∈ actions, allowed action) (ran : run step start actions = some final) :
    invariant (past ++ actions) final := by
  induction actions generalizing past start with
  | nil =>
      cases ran
      rw [List.append_nil]
      exact holds
  | cons action rest ih =>
      obtain ⟨next, stepped, restRun⟩ := run_cons_some.mp ran
      have here := kept past start action next holds (all action (by simp)) stepped
      have later := ih here (fun other member => all other (by simp [member])) restRun
      rw [List.append_assoc] at later
      exact later

theorem passes_through_cons {good : State → Prop} {start : State} {action : Action}
    {rest : List Action} :
    (∀ before after reached, action :: rest = before ++ after →
        run step start before = some reached → good reached) ↔
      good start ∧ ∀ next, step start action = some next →
        ∀ before after reached, rest = before ++ after →
          run step next before = some reached → good reached := by
  constructor
  · intro always
    refine ⟨always [] (action :: rest) start rfl rfl, ?_⟩
    intro next stepped before after reached split ran
    apply always (action :: before) after reached (by rw [split]; rfl)
    exact run_cons_some.mpr ⟨next, stepped, ran⟩
  · rintro ⟨fine, later⟩ before after reached split ran
    cases before with
    | nil =>
        cases ran
        exact fine
    | cons head before =>
        simp only [List.cons_append, List.cons.injEq] at split
        obtain ⟨next, headStep, tailRun⟩ := run_cons_some.mp ran
        rw [← split.1] at headStep
        exact later next headStep before after reached split.2 tailRun

/-- A condition that is exact for one step, against the background of an
invariant, is exact for runs: they meet it exactly when every state that they
pass through is good. -/
theorem meets_iff_always_good {invariant good : State → Prop}
    (kept : ∀ state action next, invariant state → step state action = some next →
      invariant next)
    (exactly : ∀ state action next, invariant state → good state →
      step state action = some next → (condition state action ↔ good next))
    (disabled : ∀ state action, step state action = none → condition state action)
    {start : State} (holds : invariant start) (fine : good start) (actions : List Action) :
    (∀ before after reached, actions = before ++ after →
        run step start before = some reached → good reached) ↔
      Meets step condition start actions := by
  induction actions generalizing start with
  | nil =>
      constructor
      · intro _
        trivial
      · intro _ before after reached split ran
        have empty : before = [] := (List.append_eq_nil_iff.mp split.symm).1
        subst empty
        cases ran
        exact fine
  | cons action rest ih =>
      rw [passes_through_cons]
      constructor
      · rintro ⟨_, later⟩
        cases stepped : step start action with
        | none =>
            refine ⟨disabled start action stepped, ?_⟩
            intro next impossible
            rw [stepped] at impossible
            cases impossible
        | some next =>
            have nextFine : good next := later next stepped [] rest next rfl rfl
            apply meets_cons ((exactly start action next holds fine stepped).mpr nextFine) stepped
            exact (ih (kept start action next holds stepped) nextFine).mp (later next stepped)
      · intro met
        refine ⟨fine, ?_⟩
        intro next stepped
        have nextFine : good next := (exactly start action next holds fine stepped).mp met.1
        exact (ih (kept start action next holds stepped) nextFine).mpr (met.2 next stepped)

/-- Conditions that agree under an invariant are met by the same runs. -/
theorem meets_congr {other : State → Action → Prop} {invariant : State → Prop}
    (kept : ∀ state action next, invariant state → step state action = some next →
      invariant next)
    (same : ∀ state action, invariant state → (condition state action ↔ other state action))
    {start : State} (holds : invariant start) (actions : List Action) :
    Meets step condition start actions ↔ Meets step other start actions := by
  induction actions generalizing start with
  | nil => exact Iff.rfl
  | cons action rest ih =>
      apply and_congr (same start action holds)
      apply forall_congr'
      intro next
      apply forall_congr'
      intro stepped
      exact ih (kept start action next holds stepped)

/-- Conditions that agree at every step that is taken, under an invariant that
one of them keeps, are met by the same runs. -/
theorem meets_iff_of_run {other : State → Action → Prop} {invariant : State → Prop}
    (kept : ∀ state action next, invariant state → condition state action →
      step state action = some next → invariant next)
    (same : ∀ state action next, invariant state → step state action = some next →
      (other state action ↔ condition state action))
    {start final : State} {actions : List Action} (holds : invariant start)
    (ran : run step start actions = some final) :
    Meets step other start actions ↔ Meets step condition start actions := by
  induction actions generalizing start with
  | nil => exact Iff.rfl
  | cons action rest ih =>
      obtain ⟨next, stepped, restRun⟩ := run_cons_some.mp ran
      have here := same start action next holds stepped
      constructor
      · intro met
        have condition := here.mp met.1
        apply meets_cons condition stepped
        exact (ih (kept start action next holds condition stepped) restRun).mp (met.2 next stepped)
      · intro met
        apply meets_cons (here.mpr met.1) stepped
        exact (ih (kept start action next holds met.1 stepped) restRun).mpr (met.2 next stepped)

section Refinement

variable {Coarse CoarseAction : Type*} {coarseStep : Coarse → CoarseAction → Option Coarse}
  {abstract : State → Coarse}

/-- A step of the finer system is a step of the coarser one or nothing there. -/
def Matched (coarseStep : Coarse → CoarseAction → Option Coarse) (before after : Coarse) : Prop :=
  after = before ∨ ∃ action, coarseStep before action = some after

theorem Matched.keeps {invariant : Coarse → Prop} {before after : Coarse}
    (matched : Matched coarseStep before after)
    (kept : ∀ state action next, invariant state → coarseStep state action = some next →
      invariant next)
    (holds : invariant before) : invariant after := by
  rcases matched with same | ⟨action, stepped⟩
  · rw [same]
    exact holds
  · exact kept before action after holds stepped

/-- Runs of the finer system are runs of the coarser one. -/
theorem run_refines {invariant : State → Prop}
    (kept : ∀ state action next, invariant state → step state action = some next →
      invariant next)
    (matched : ∀ state action next, invariant state → step state action = some next →
      Matched coarseStep (abstract state) (abstract next))
    {start final : State} {actions : List Action}
    (holds : invariant start) (ran : run step start actions = some final) :
    ∃ coarseActions, run coarseStep (abstract start) coarseActions = some (abstract final) := by
  induction actions generalizing start with
  | nil =>
      cases ran
      exact ⟨[], rfl⟩
  | cons action rest ih =>
      obtain ⟨next, stepped, restRun⟩ := run_cons_some.mp ran
      obtain ⟨later, laterRun⟩ := ih (kept start action next holds stepped) restRun
      rcases matched start action next holds stepped with same | ⟨coarseAction, coarseStepped⟩
      · exact ⟨later, same ▸ laterRun⟩
      · exact ⟨coarseAction :: later, run_cons_some.mpr ⟨_, coarseStepped, laterRun⟩⟩

/-- The same for a relation: what a step of the finer system does is done by one step of the
coarser one, or by none, and the states stay related. -/
theorem run_simulates {related : State → Coarse → Prop}
    (matched : ∀ state coarse action next, related state coarse → step state action = some next →
      ∃ after, Matched coarseStep coarse after ∧ related next after)
    {start final : State} {coarse : Coarse} {actions : List Action}
    (holds : related start coarse) (ran : run step start actions = some final) :
    ∃ coarseActions after, run coarseStep coarse coarseActions = some after ∧
      related final after := by
  induction actions generalizing start coarse with
  | nil =>
      cases ran
      exact ⟨[], coarse, rfl, holds⟩
  | cons action rest ih =>
      obtain ⟨next, stepped, restRun⟩ := run_cons_some.mp ran
      obtain ⟨middle, here, stays⟩ := matched start coarse action next holds stepped
      obtain ⟨later, after, laterRun, related⟩ := ih stays restRun
      rcases here with same | ⟨coarseAction, coarseStepped⟩
      · exact ⟨later, after, same ▸ laterRun, related⟩
      · exact ⟨coarseAction :: later, after, run_cons_some.mpr ⟨_, coarseStepped, laterRun⟩,
          related⟩

end Refinement

section Threads

variable {Thread Local : Type*} [DecidableEq Thread]

theorem forall_update_iff {threads : Thread → Option Local} {thread : Thread} {moved : Local}
    {property : Thread → Local → Prop}
    (others : ∀ other found, threads other = some found → property other found) :
    (∀ other found, Function.update threads thread (some moved) other = some found →
      property other found) ↔ property thread moved := by
  constructor
  · intro all
    exact all thread moved (Function.update_self _ _ _)
  · intro here other found lookup
    by_cases same : other = thread
    · subst same
      rw [Function.update_self] at lookup
      cases lookup
      exact here
    · rw [Function.update_of_ne same] at lookup
      exact others other found lookup

theorem forall_update {threads next : Thread → Option Local} {thread : Thread} {moved : Local}
    {property : Thread → Local → Prop}
    (others : ∀ other found, threads other = some found → property other found)
    (update : next = Function.update threads thread (some moved))
    (here : property thread moved) :
    ∀ other found, next other = some found → property other found := by
  rw [update]
  exact (forall_update_iff others).mpr here

end Threads

end LinuxFff.StepSystem
