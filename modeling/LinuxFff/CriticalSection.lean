import Mathlib.Data.List.Basic

/-!
# A mutex and the sections it guards

The workers of a crew lock one mutex before a critical section and unlock it
after. `Excludes` says that the owner is exactly the worker inside; the rules
are the three ways in which a worker moves.
-/

namespace LinuxFff.CriticalSection

set_option autoImplicit false

variable {Local : Type*}

structure Excludes (critical : Local → Bool) (owner : Option Nat) (crew : List Local) : Prop where
  owned : ∀ worker found, crew[worker]? = some found →
    (critical found = true ↔ owner = some worker)
  real : ∀ worker, owner = some worker → worker < crew.length

variable {critical : Local → Bool} {owner : Option Nat} {crew : List Local}
  {worker : Nat} {old new : Local}

theorem excludes_start (outside : ∀ found ∈ crew, critical found = false) :
    Excludes critical none crew where
  owned := by
    intro worker found lookup
    simp [outside found (List.mem_of_getElem? lookup)]
  real := by
    intro worker impossible
    cases impossible

theorem lookup_set {other : Nat} {found : Local}
    (lookup : (crew.set worker new)[other]? = some found) :
    other = worker ∧ found = new ∨ other ≠ worker ∧ crew[other]? = some found := by
  by_cases same : other = worker
  · subst same
    have inside : other < crew.length := by
      have bound := (List.getElem?_eq_some_iff.mp lookup).1
      rwa [List.length_set] at bound
    rw [List.getElem?_set_self inside] at lookup
    exact Or.inl ⟨rfl, (Option.some.inj lookup).symm⟩
  · rw [List.getElem?_set_ne (Ne.symm same)] at lookup
    exact Or.inr ⟨same, lookup⟩

theorem Excludes.move (excludes : Excludes critical owner crew) (lookup : crew[worker]? = some old)
    (same : critical new = critical old) : Excludes critical owner (crew.set worker new) where
  owned := by
    intro other found after
    rcases lookup_set after with moved | kept
    · rw [moved.1, moved.2, same]
      exact excludes.owned worker old lookup
    · exact excludes.owned other found kept.2
  real := by
    intro other owns
    rw [List.length_set]
    exact excludes.real other owns

theorem Excludes.lock (excludes : Excludes critical none crew) (lookup : crew[worker]? = some old)
    (enters : critical new = true) : Excludes critical (some worker) (crew.set worker new) where
  owned := by
    intro other found after
    rcases lookup_set after with moved | kept
    · simp [moved.1, moved.2, enters]
    · have outside := excludes.owned other found kept.2
      simp only [outside, reduceCtorEq, Option.some.injEq, false_iff]
      exact Ne.symm kept.1
  real := by
    intro other owns
    cases owns
    rw [List.length_set]
    exact (List.getElem?_eq_some_iff.mp lookup).1

theorem Excludes.unlock (excludes : Excludes critical owner crew)
    (lookup : crew[worker]? = some old) (inside : critical old = true)
    (leaves : critical new = false) : Excludes critical none (crew.set worker new) where
  owned := by
    intro other found after
    rcases lookup_set after with moved | kept
    · simp [moved.2, leaves]
    · have mine := (excludes.owned worker old lookup).mp inside
      have outside := excludes.owned other found kept.2
      rw [mine, Option.some.injEq] at outside
      simp only [outside, reduceCtorEq, iff_false]
      exact Ne.symm kept.1
  real := by
    intro other impossible
    cases impossible

/-- How a worker and the mutex change together. -/
inductive Moves (critical : Local → Bool) (worker : Nat) :
    Option Nat → Option Nat → Local → Local → Prop where
  | keep {owner : Option Nat} {old new : Local} (same : critical new = critical old) :
      Moves critical worker owner owner old new
  | lock {old new : Local} (enters : critical new = true) :
      Moves critical worker none (some worker) old new
  | unlock {owner : Option Nat} {old new : Local} (inside : critical old = true)
      (leaves : critical new = false) : Moves critical worker owner none old new

theorem Excludes.moves (excludes : Excludes critical owner crew)
    (lookup : crew[worker]? = some old) {after : Option Nat}
    (moves : Moves critical worker owner after old new) :
    Excludes critical after (crew.set worker new) := by
  cases moves with
  | keep same => exact excludes.move lookup same
  | lock enters => exact excludes.lock lookup enters
  | unlock inside leaves => exact excludes.unlock lookup inside leaves

theorem Excludes.alone (excludes : Excludes critical owner crew) {other : Nat} {found : Local}
    (lookup : crew[worker]? = some old) (inside : critical old = true)
    (otherLookup : crew[other]? = some found) (otherInside : critical found = true) :
    other = worker := by
  have mine := (excludes.owned worker old lookup).mp inside
  have its := (excludes.owned other found otherLookup).mp otherInside
  exact Option.some.inj (its.symm.trans mine)

theorem Excludes.free_or_inside (excludes : Excludes critical owner crew) :
    owner = none ∨ ∃ (worker : Nat) (found : Local),
      crew[worker]? = some found ∧ critical found = true := by
  cases owner with
  | none => exact Or.inl rfl
  | some worker =>
      have inside := excludes.real worker rfl
      have lookup := List.getElem?_eq_getElem inside
      exact Or.inr ⟨worker, _, lookup, (excludes.owned worker _ lookup).mpr rfl⟩

end LinuxFff.CriticalSection
