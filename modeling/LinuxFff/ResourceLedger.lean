import Mathlib.Data.List.Perm.Basic
import Mathlib.Logic.Function.Basic

/-!
# Who holds which object

A ledger gives the holder of every object in use. A log of acquisitions and
releases by one holder changes it; the log is proper when it acquires only
what is free and releases only what this holder has.
-/

namespace LinuxFff.ResourceLedger

set_option autoImplicit false

variable {Object Holder : Type*}

inductive Use (Object : Type*) where
  | acquire (object : Object)
  | release (object : Object)
  deriving DecidableEq

abbrev Ledger (Object Holder : Type*) := Object → Option Holder

def free : Ledger Object Holder := fun _ => none

def acquired (log : List (Use Object)) : List Object :=
  log.filterMap fun use => match use with
    | .acquire object => some object
    | .release _ => none

variable [DecidableEq Object]

def Use.apply (holder : Holder) (ledger : Ledger Object Holder) :
    Use Object → Ledger Object Holder
  | .acquire object => Function.update ledger object (some holder)
  | .release object => Function.update ledger object none

def settle (holder : Holder) (log : List (Use Object)) (ledger : Ledger Object Holder) :
    Ledger Object Holder :=
  log.foldl (Use.apply holder) ledger

def Proper (holder : Holder) : List (Use Object) → Ledger Object Holder → Prop
  | [], _ => True
  | .acquire object :: rest, ledger =>
      ledger object = none ∧ Proper holder rest (Use.apply holder ledger (.acquire object))
  | .release object :: rest, ledger =>
      ledger object = some holder ∧
        Proper holder rest (Use.apply holder ledger (.release object))

variable {holder : Holder} {ledger : Ledger Object Holder} {objects : List Object}

theorem settle_append (earlier later : List (Use Object)) :
    settle holder (earlier ++ later) ledger = settle holder later (settle holder earlier ledger) :=
  List.foldl_append

theorem proper_append (earlier later : List (Use Object)) :
    Proper holder (earlier ++ later) ledger ↔
      Proper holder earlier ledger ∧ Proper holder later (settle holder earlier ledger) := by
  induction earlier generalizing ledger with
  | nil => simp [Proper, settle]
  | cons use rest ih =>
      cases use with
      | acquire object =>
          simp only [List.cons_append, Proper, ih, and_assoc]
          rfl
      | release object =>
          simp only [List.cons_append, Proper, ih, and_assoc]
          rfl

/-- A log that does the same with each of its objects. -/
theorem settle_each {use : Object → Use Object} {outcome : Option Holder}
    (effect : ∀ ledger head, Use.apply holder ledger (use head) =
      Function.update ledger head outcome) (object : Object) :
    settle holder (objects.map use) ledger object =
      if object ∈ objects then outcome else ledger object := by
  induction objects generalizing ledger with
  | nil => simp [settle]
  | cons head tail ih =>
      have unfolded : settle holder ((head :: tail).map use) ledger =
          settle holder (tail.map use) (Function.update ledger head outcome) := by
        rw [← effect]
        rfl
      rw [unfolded, ih]
      by_cases same : object = head
      · simp [same]
      · simp [same, Function.update_of_ne]

theorem settle_acquires (object : Object) :
    settle holder (objects.map Use.acquire) ledger object =
      if object ∈ objects then some holder else ledger object :=
  settle_each (fun _ _ => rfl) object

theorem settle_releases (object : Object) :
    settle holder (objects.map Use.release) ledger object =
      if object ∈ objects then none else ledger object :=
  settle_each (fun _ _ => rfl) object

private theorem forall_update_ne {head : Object} {tail : List Object} (value wanted : Option Holder)
    (apart : head ∉ tail) :
    (∀ object ∈ tail, Function.update ledger head value object = wanted) ↔
      ∀ object ∈ tail, ledger object = wanted := by
  apply forall₂_congr
  intro object member
  have different : object ≠ head := fun same => apart (same ▸ member)
  rw [Function.update_of_ne different]

theorem proper_acquires :
    Proper holder (objects.map Use.acquire) ledger ↔
      objects.Nodup ∧ ∀ object ∈ objects, ledger object = none := by
  induction objects generalizing ledger with
  | nil => simp [Proper]
  | cons head tail ih =>
      simp only [List.map_cons, Proper, Use.apply, ih, List.nodup_cons, List.forall_mem_cons]
      constructor
      · rintro ⟨unused, distinct, others⟩
        have apart : head ∉ tail := by
          intro member
          have taken := others head member
          simp at taken
        exact ⟨⟨apart, distinct⟩, unused, (forall_update_ne _ _ apart).mp others⟩
      · rintro ⟨⟨apart, distinct⟩, unused, others⟩
        exact ⟨unused, distinct, (forall_update_ne _ _ apart).mpr others⟩

theorem proper_releases :
    Proper holder (objects.map Use.release) ledger ↔
      objects.Nodup ∧ ∀ object ∈ objects, ledger object = some holder := by
  induction objects generalizing ledger with
  | nil => simp [Proper]
  | cons head tail ih =>
      simp only [List.map_cons, Proper, Use.apply, ih, List.nodup_cons, List.forall_mem_cons]
      constructor
      · rintro ⟨held, distinct, others⟩
        have apart : head ∉ tail := by
          intro member
          have gone := others head member
          simp at gone
        exact ⟨⟨apart, distinct⟩, held, (forall_update_ne _ _ apart).mp others⟩
      · rintro ⟨⟨apart, distinct⟩, held, others⟩
        exact ⟨held, distinct, (forall_update_ne _ _ apart).mpr others⟩

/-- The log releases everything that it acquires, each object once. -/
structure ReleasedOnce (holder : Holder) (log : List (Use Object)) : Prop where
  proper : Proper holder log free
  settled : settle holder log free = free
  once : (acquired log).Nodup

theorem released_once_of_perm {released : List Object} (same : released.Perm objects)
    (distinct : objects.Nodup) :
    ReleasedOnce holder (objects.map Use.acquire ++ released.map Use.release) where
  proper := by
    rw [proper_append]
    refine ⟨proper_acquires.mpr ⟨distinct, fun _ _ => rfl⟩, ?_⟩
    refine proper_releases.mpr ⟨same.nodup_iff.mpr distinct, ?_⟩
    intro object member
    rw [settle_acquires, if_pos (same.mem_iff.mp member)]
  settled := by
    funext object
    rw [settle_append, settle_releases, settle_acquires]
    by_cases member : object ∈ objects
    · rw [if_pos (same.mem_iff.mpr member)]
      rfl
    · rw [if_neg (fun released => member (same.mem_iff.mp released)), if_neg member]
  once := by
    have acquisitions : acquired (objects.map Use.acquire ++ released.map Use.release) =
        objects := by
      simp [acquired, List.filterMap_append, List.filterMap_map]
    rw [acquisitions]
    exact distinct

end LinuxFff.ResourceLedger
