import LinuxFff.ResourceLedger

/-!
# What one holder has at a moment

A log and the list of the objects held after it. The list follows the log one use at a time, so
that a bring-up that fails half-way and its clean-up are followed in the same way as a long life
of many bring-ups.
-/

namespace LinuxFff.Holdings

open LinuxFff.ResourceLedger

set_option autoImplicit false

variable {Object Holder : Type*} [DecidableEq Object] {holder : Holder}
  {held other released : List Object} {log : List (Use Object)} {object : Object}

def acquire (log : List (Use Object)) (object : Object) : List (Use Object) :=
  log ++ [.acquire object]

def release (log : List (Use Object)) (object : Object) : List (Use Object) :=
  log ++ [.release object]

/-- Releases an object that may be absent. -/
def releaseAny [DecidableEq Holder] (holder : Holder) (log : List (Use Object)) (object : Object) :
    List (Use Object) :=
  if settle holder log free object = some holder then release log object else log

/-- The log is proper, and the objects in the list are those held after it. -/
structure Holding (holder : Holder) (held : List Object) (log : List (Use Object)) : Prop where
  proper : Proper holder log free
  settled : ∀ object, settle holder log free object = if object ∈ held then some holder else none
  distinct : held.Nodup

theorem holding_nil : Holding holder ([] : List Object) [] where
  proper := trivial
  settled := fun _ => rfl
  distinct := List.nodup_nil

theorem Holding.acquire (holding : Holding holder held log) (fresh : object ∉ held) :
    Holding holder (object :: held) (Holdings.acquire log object) where
  proper := by
    refine (proper_append _ _).mpr ⟨holding.proper, ?_, trivial⟩
    rw [holding.settled, if_neg fresh]
  settled := by
    intro one
    rw [Holdings.acquire, settle_append]
    change Function.update (settle holder log free) object (some holder) one = _
    by_cases same : one = object
    · simp [same]
    · rw [Function.update_of_ne same, holding.settled]
      simp [same]
  distinct := List.nodup_cons.mpr ⟨fresh, holding.distinct⟩

theorem Holding.perm (holding : Holding holder held log) (same : held.Perm other) :
    Holding holder other log where
  proper := holding.proper
  settled := by
    intro object
    rw [holding.settled]
    simp only [same.mem_iff]
  distinct := same.nodup_iff.mp holding.distinct

theorem Holding.release (holding : Holding holder (object :: held) log) :
    Holding holder held (Holdings.release log object) where
  proper := by
    refine (proper_append _ _).mpr ⟨holding.proper, ?_, trivial⟩
    rw [holding.settled, if_pos List.mem_cons_self]
  settled := by
    intro one
    rw [Holdings.release, settle_append]
    change Function.update (settle holder log free) object none one = _
    by_cases same : one = object
    · have gone := (List.nodup_cons.mp holding.distinct).1
      simp [same, gone]
    · rw [Function.update_of_ne same, holding.settled]
      simp [same]
  distinct := (List.nodup_cons.mp holding.distinct).2

theorem releases_held (holding : Holding holder held log) :
    Holding holder [] (log ++ held.map .release) := by
  induction held generalizing log with
  | nil =>
      rw [List.map_nil, List.append_nil]
      exact holding
  | cons object rest ih =>
      rw [List.map_cons, List.append_cons]
      exact ih holding.release

theorem Holding.releases (holding : Holding holder held log) (same : held.Perm released) :
    Holding holder [] (log ++ released.map .release) :=
  releases_held (holding.perm same)

theorem Holding.holds_iff (holding : Holding holder held log) :
    settle holder log free object = some holder ↔ object ∈ held := by
  rw [holding.settled]
  simp

theorem Holding.release_present [DecidableEq Holder] (holding : Holding holder (object :: held) log) :
    Holding holder held (releaseAny holder log object) := by
  rw [releaseAny, if_pos (holding.holds_iff.mpr List.mem_cons_self)]
  exact holding.release

theorem Holding.release_absent [DecidableEq Holder] (holding : Holding holder held log)
    (absent : object ∉ held) : Holding holder held (releaseAny holder log object) := by
  rw [releaseAny, if_neg (fun present => absent (holding.holds_iff.mp present))]
  exact holding

theorem Holding.nothing (holding : Holding holder [] log) : settle holder log free = free := by
  funext object
  rw [holding.settled]
  rfl

end LinuxFff.Holdings
