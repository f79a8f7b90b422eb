import Mathlib.Logic.Function.Basic

/-!
# Keys and their owners

Threads hold keys of a shared table: descriptor numbers, addresses of objects.
The table gives the owner of each key in use. A key is in use exactly while its
thread is alive, so two live threads never hold the same key, even when keys
are given out again after their release.
-/

namespace LinuxFff.Ownership

set_option autoImplicit false

variable {Thread Local Key : Type*}

structure Owns (threads : Thread → Option Local) (key : Local → Key) (alive : Local → Prop)
    (owner : Key → Option Thread) : Prop where
  owned : ∀ used thread, owner used = some thread →
    ∃ found, threads thread = some found ∧ key found = used ∧ alive found
  held : ∀ thread found, threads thread = some found → alive found →
    owner (key found) = some thread

/-- The key of a thread that has been started. -/
def keyOf (threads : Thread → Option Local) (key : Local → Key) (unknown : Key)
    (thread : Thread) : Key :=
  match threads thread with
  | some found => key found
  | none => unknown

variable {threads : Thread → Option Local} {key : Local → Key} {alive : Local → Prop}
  {owner : Key → Option Thread} {thread : Thread} {found moved : Local} {unknown : Key}

theorem owns_nothing : Owns (fun _ : Thread => none) key alive fun _ => none where
  owned := by
    intro used thread lookup
    cases lookup
  held := by
    intro thread found lookup
    cases lookup

theorem key_of_some (lookup : threads thread = some found) :
    keyOf threads key unknown thread = key found := by
  simp [keyOf, lookup]

theorem Owns.key_of_owner (owns : Owns threads key alive owner) {used : Key}
    (lookup : owner used = some thread) : keyOf threads key unknown thread = used := by
  obtain ⟨result, started, same, _⟩ := owns.owned used thread lookup
  rw [key_of_some started, same]

variable [DecidableEq Thread]

theorem key_of_move (lookup : threads thread = some found) (same : key moved = key found) :
    keyOf (Function.update threads thread (some moved)) key unknown =
      keyOf threads key unknown := by
  funext other
  unfold keyOf
  by_cases equal : other = thread
  · rw [equal, Function.update_self, lookup]
    exact same
  · rw [Function.update_of_ne equal]

theorem key_of_other {other : Thread} (apart : other ≠ thread) :
    keyOf (Function.update threads thread (some moved)) key unknown other =
      keyOf threads key unknown other := by
  unfold keyOf
  rw [Function.update_of_ne apart]

theorem Owns.move (owns : Owns threads key alive owner) (lookup : threads thread = some found)
    (same : key moved = key found) (stays : alive moved ↔ alive found) :
    Owns (Function.update threads thread (some moved)) key alive owner where
  owned := by
    intro used other isUsed
    obtain ⟨result, started, holds, isAlive⟩ := owns.owned used other isUsed
    by_cases equal : other = thread
    · rw [equal, lookup] at started
      cases started
      rw [equal, Function.update_self]
      exact ⟨moved, rfl, same.trans holds, stays.mpr isAlive⟩
    · rw [Function.update_of_ne equal]
      exact ⟨result, started, holds, isAlive⟩
  held := by
    intro other result started isAlive
    by_cases equal : other = thread
    · rw [equal, Function.update_self] at started
      cases started
      rw [same, equal]
      exact owns.held thread found lookup (stays.mp isAlive)
    · rw [Function.update_of_ne equal] at started
      exact owns.held other result started isAlive

variable [DecidableEq Key]

theorem Owns.take {used : Key} (owns : Owns threads key alive owner)
    (idle : ∀ found, threads thread = some found → ¬alive found) (unused : owner used = none)
    (holds : key moved = used) (isAlive : alive moved) :
    Owns (Function.update threads thread (some moved)) key alive
      (Function.update owner used (some thread)) where
  owned := by
    intro other result lookup
    by_cases equal : other = used
    · rw [equal, Function.update_self] at lookup
      cases lookup
      rw [Function.update_self]
      exact ⟨moved, rfl, holds.trans equal.symm, isAlive⟩
    · rw [Function.update_of_ne equal] at lookup
      obtain ⟨found, started, same, foundAlive⟩ := owns.owned other result lookup
      have apart : result ≠ thread := by
        intro same
        rw [same] at started
        exact idle found started foundAlive
      rw [Function.update_of_ne apart]
      exact ⟨found, started, same, foundAlive⟩
  held := by
    intro other result started resultAlive
    by_cases equal : other = thread
    · rw [equal, Function.update_self] at started
      cases started
      rw [holds, equal, Function.update_self]
    · rw [Function.update_of_ne equal] at started
      have lookup := owns.held other result started resultAlive
      have apart : key result ≠ used := by
        intro same
        rw [same, unused] at lookup
        cases lookup
      rw [Function.update_of_ne apart]
      exact lookup

theorem Owns.gain {used : Key} (owns : Owns threads key alive owner)
    (lookup : threads thread = some found) (without : ¬alive found) (unused : owner used = none)
    (holds : key moved = used) (isAlive : alive moved) :
    Owns (Function.update threads thread (some moved)) key alive
      (Function.update owner used (some thread)) := by
  apply owns.take _ unused holds isAlive
  intro other started
  rw [lookup] at started
  cases started
  exact without

theorem Owns.acquire {used : Key} (owns : Owns threads key alive owner)
    (unborn : threads thread = none) (unused : owner used = none) (holds : key moved = used)
    (isAlive : alive moved) :
    Owns (Function.update threads thread (some moved)) key alive
      (Function.update owner used (some thread)) := by
  apply owns.take _ unused holds isAlive
  intro found started
  rw [unborn] at started
  cases started

theorem Owns.release (owns : Owns threads key alive owner) (lookup : threads thread = some found)
    (wasAlive : alive found) (dead : ¬alive moved) :
    Owns (Function.update threads thread (some moved)) key alive
      (Function.update owner (key found) none) where
  owned := by
    intro used other isUsed
    have apart : used ≠ key found := by
      intro same
      rw [same, Function.update_self] at isUsed
      cases isUsed
    rw [Function.update_of_ne apart] at isUsed
    obtain ⟨result, started, same, isAlive⟩ := owns.owned used other isUsed
    have different : other ≠ thread := by
      intro equal
      rw [equal, lookup] at started
      cases started
      exact apart same.symm
    rw [Function.update_of_ne different]
    exact ⟨result, started, same, isAlive⟩
  held := by
    intro other result started isAlive
    have different : other ≠ thread := by
      intro equal
      rw [equal, Function.update_self] at started
      cases started
      exact dead isAlive
    rw [Function.update_of_ne different] at started
    have resultOwner := owns.held other result started isAlive
    have apart : key result ≠ key found := by
      intro same
      rw [same, owns.held thread found lookup wasAlive] at resultOwner
      exact different (Option.some.inj resultOwner).symm
    rw [Function.update_of_ne apart]
    exact resultOwner

omit [DecidableEq Key] in
theorem Owns.idle (owns : Owns threads key alive owner)
    (before : ∀ found, threads thread = some found → ¬alive found) (dead : ¬alive moved) :
    Owns (Function.update threads thread (some moved)) key alive owner where
  owned := by
    intro used other isUsed
    obtain ⟨result, started, same, isAlive⟩ := owns.owned used other isUsed
    have apart : other ≠ thread := by
      intro equal
      rw [equal] at started
      exact before result started isAlive
    rw [Function.update_of_ne apart]
    exact ⟨result, started, same, isAlive⟩
  held := by
    intro other result started isAlive
    by_cases equal : other = thread
    · rw [equal, Function.update_self] at started
      cases started
      exact absurd isAlive dead
    · rw [Function.update_of_ne equal] at started
      exact owns.held other result started isAlive

end LinuxFff.Ownership
