import Mathlib.Data.List.Basic

/-!
# Bounded stores and their readers

A bounded store holds one sequence of at most `capacity` elements. Putting a
sequence keeps the part that fits and forgets what was there before; a slice is
what a reader finds from an offset on, up to a count. A reader that takes pieces
of given lengths one after another gets the beginning of the sequence however
the lengths are chosen, and a piece of positive length is empty only when
nothing is left.
-/

namespace LinuxFff.BoundedStore

set_option autoImplicit false

structure Store (Element : Type*) (capacity : Nat) where
  contents : List Element
  bounded : contents.length ≤ capacity

variable {Element : Type*} {capacity : Nat}

def Store.empty : Store Element capacity := ⟨[], Nat.zero_le capacity⟩

def Store.put (elements : List Element) : Store Element capacity :=
  ⟨elements.take capacity, List.length_take_le capacity elements⟩

def Store.slice (store : Store Element capacity) (offset count : Nat) : List Element :=
  (store.contents.drop offset).take count

theorem slice_length (store : Store Element capacity) (offset count : Nat) :
    (store.slice offset count).length = min count (store.contents.length - offset) := by
  rw [Store.slice, List.length_take, List.length_drop]

theorem slice_past (store : Store Element capacity) {offset : Nat} (count : Nat)
    (past : store.contents.length ≤ offset) : store.slice offset count = [] := by
  rw [Store.slice, List.drop_eq_nil_of_le past, List.take_nil]

def readThrough : List Element → List Nat → List (List Element)
  | _, [] => []
  | rest, count :: counts => rest.take count :: readThrough (rest.drop count) counts

theorem read_through_prefix (rest : List Element) (counts : List Nat) :
    (readThrough rest counts).flatten <+: rest := by
  induction counts generalizing rest with
  | nil => exact List.nil_prefix
  | cons count counts ih =>
      have later := (List.prefix_append_right_inj (rest.take count)).mpr (ih (rest.drop count))
      rw [List.take_append_drop] at later
      exact later

theorem read_through_nothing (counts : List Nat) :
    ∀ piece ∈ readThrough ([] : List Element) counts, piece = [] := by
  induction counts with
  | nil => simp [readThrough]
  | cons count counts ih =>
      intro piece member
      rw [readThrough, List.drop_nil, List.mem_cons, List.take_nil] at member
      rcases member with first | later
      · exact first
      · exact ih piece later

/-- After an empty piece of positive length everything has been read, and every
later piece is empty. -/
theorem read_through_exhausted {rest : List Element} {counts : List Nat}
    (positive : ∀ count ∈ counts, 0 < count) {earlier later : List (List Element)}
    (pieces : readThrough rest counts = earlier ++ [] :: later) :
    earlier.flatten = rest ∧ ∀ piece ∈ later, piece = [] := by
  induction counts generalizing rest earlier with
  | nil => simp [readThrough] at pieces
  | cons count counts ih =>
      have here : 0 < count := positive count (by simp)
      rw [readThrough] at pieces
      cases earlier with
      | nil =>
          obtain ⟨empty, remaining⟩ := List.cons.inj pieces
          have nothing : rest = [] := by
            rcases List.take_eq_nil_iff.mp empty with zero | nothing
            · omega
            · exact nothing
          rw [nothing, List.drop_nil] at remaining
          refine ⟨by simp [nothing], ?_⟩
          intro piece member
          exact read_through_nothing counts piece (remaining ▸ member)
      | cons piece earlier =>
          obtain ⟨first, remaining⟩ := List.cons.inj pieces
          obtain ⟨complete, after⟩ :=
            ih (fun other member => positive other (by simp [member])) remaining
          refine ⟨?_, after⟩
          rw [List.flatten_cons, complete, ← first, List.take_append_drop]

end LinuxFff.BoundedStore
