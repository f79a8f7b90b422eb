import Mathlib.Logic.Function.Basic

/-!
# Arrays that log their accesses

An array together with the indices at which it has been read or written. The cells go on
without end on both sides, so a loop that leaves the array can still be followed, and
whether one did is read off the log.
-/

namespace LinuxFff.LoggedArray

set_option autoImplicit false

variable {Entry : Type*}

structure Logged (Entry : Type*) where
  cells : Int → Entry
  accesses : List Int

def Logged.read (array : Logged Entry) (index : Int) : Logged Entry :=
  { array with accesses := array.accesses ++ [index] }

def Logged.write (array : Logged Entry) (index : Int) (entry : Entry) : Logged Entry where
  cells := Function.update array.cells index entry
  accesses := array.accesses ++ [index]

/-- `for (j = first; ...; j++) a[j] = a[j + 1];` with so many rounds. -/
def Logged.shiftLeft (first : Int) : Nat → Logged Entry → Logged Entry
  | 0, array => array
  | rounds + 1, array => Logged.shiftLeft (first + 1) rounds
      ((array.read (first + 1)).write first (array.cells (first + 1)))

/-- The entries from an index on. -/
def window (cells : Int → Entry) (first : Int) : Nat → List Entry
  | 0 => []
  | length + 1 => cells first :: window cells (first + 1) length

/-- Whatever was accessed in between has an index from `lower` up to below `upper`. -/
def Stays (before after : Logged Entry) (lower upper : Int) : Prop :=
  ∃ more, after.accesses = before.accesses ++ more ∧
    ∀ index ∈ more, lower ≤ index ∧ index < upper

section Accesses

variable {array before middle after : Logged Entry} {lower upper index : Int}

theorem stays_refl (array : Logged Entry) (lower upper : Int) : Stays array array lower upper :=
  ⟨[], (List.append_nil _).symm, fun _ member => absurd member List.not_mem_nil⟩

theorem stays_of_access (lowerBound : lower ≤ index) (upperBound : index < upper)
    (logged : after.accesses = before.accesses ++ [index]) : Stays before after lower upper := by
  refine ⟨[index], logged, ?_⟩
  intro other member
  rw [List.mem_singleton.mp member]
  exact ⟨lowerBound, upperBound⟩

theorem Stays.trans (first : Stays before middle lower upper)
    (second : Stays middle after lower upper) : Stays before after lower upper := by
  obtain ⟨earlier, earlierLog, earlierBounds⟩ := first
  obtain ⟨later, laterLog, laterBounds⟩ := second
  refine ⟨earlier ++ later, by rw [laterLog, earlierLog, List.append_assoc], ?_⟩
  intro index member
  rcases List.mem_append.mp member with old | new
  · exact earlierBounds index old
  · exact laterBounds index new

theorem Stays.widen {lowest highest : Int} (stays : Stays before after lower upper)
    (below : lowest ≤ lower) (above : upper ≤ highest) : Stays before after lowest highest := by
  obtain ⟨more, logged, bounds⟩ := stays
  refine ⟨more, logged, ?_⟩
  intro index member
  have inside := bounds index member
  omega

theorem Stays.bounded (stays : Stays before after lower upper)
    (bounded : ∀ index ∈ before.accesses, lower ≤ index ∧ index < upper) :
    ∀ index ∈ after.accesses, lower ≤ index ∧ index < upper := by
  obtain ⟨more, logged, bounds⟩ := stays
  intro index member
  rw [logged] at member
  rcases List.mem_append.mp member with old | new
  · exact bounded index old
  · exact bounds index new

end Accesses

section Windows

variable {cells other : Int → Entry}

theorem index_succ (first : Int) (offset : Nat) :
    first + 1 + offset = first + (offset + 1 : Nat) := by omega

theorem window_length (cells : Int → Entry) (first : Int) (length : Nat) :
    (window cells first length).length = length := by
  induction length generalizing first with
  | zero => rfl
  | succ length ih => rw [window, List.length_cons, ih]

theorem window_moved {first moved : Int} {length : Nat}
    (same : ∀ offset : Nat, offset < length → cells (first + offset) = other (moved + offset)) :
    window cells first length = window other moved length := by
  induction length generalizing first moved with
  | zero => rfl
  | succ length ih =>
      have head : cells first = other moved := by simpa using same 0 (Nat.succ_pos length)
      rw [window, window, head]
      apply congrArg
      apply ih
      intro offset bound
      rw [index_succ, index_succ]
      exact same (offset + 1) (Nat.succ_lt_succ bound)

theorem window_snoc (cells : Int → Entry) (first : Int) (length : Nat) :
    window cells first (length + 1) = window cells first length ++ [cells (first + length)] := by
  induction length generalizing first with
  | zero => simp [window]
  | succ length ih =>
      rw [window, ih, window, List.cons_append, index_succ]

end Windows

section Shift

theorem shift_left_cells (array : Logged Entry) (first : Int) (rounds : Nat) (index : Int) :
    (array.shiftLeft first rounds).cells index =
      if first ≤ index ∧ index < first + rounds then array.cells (index + 1)
      else array.cells index := by
  induction rounds generalizing first array with
  | zero =>
      rw [if_neg (by omega)]
      rfl
  | succ rounds ih =>
      rw [Logged.shiftLeft, ih]
      by_cases here : index = first
      · subst here
        rw [if_neg (by omega), if_pos (by omega)]
        exact Function.update_self _ _ _
      · have cells : ∀ other, other ≠ first →
            ((array.read (first + 1)).write first (array.cells (first + 1))).cells other =
              array.cells other := fun other apart => Function.update_of_ne apart _ _
        by_cases inside : first + 1 ≤ index ∧ index < first + 1 + rounds
        · rw [if_pos inside, if_pos (by omega), cells _ (by omega)]
        · rw [if_neg inside, if_neg (by omega), cells _ here]

theorem shift_left_stays (array : Logged Entry) (first : Int) (rounds : Nat) :
    Stays array (array.shiftLeft first rounds) first (first + rounds + 1) := by
  induction rounds generalizing first array with
  | zero => exact stays_refl _ _ _
  | succ rounds ih =>
      rw [Logged.shiftLeft]
      have reading : Stays array (array.read (first + 1)) first (first + (rounds + 1 : Nat) + 1) :=
        stays_of_access (by omega) (by omega) rfl
      have writing : Stays (array.read (first + 1))
          ((array.read (first + 1)).write first (array.cells (first + 1))) first
          (first + (rounds + 1 : Nat) + 1) := stays_of_access (by omega) (by omega) rfl
      exact (reading.trans writing).trans ((ih _ _).widen (by omega) (by omega))

theorem window_shift_left (array : Logged Entry) (first : Int) (rounds : Nat) :
    window (array.shiftLeft first rounds).cells first rounds =
      window array.cells (first + 1) rounds := by
  apply window_moved
  intro offset bound
  have next : first + offset + 1 = first + 1 + offset := by omega
  rw [shift_left_cells, if_pos (by omega), next]

end Shift

section Scans

/-- A loop that starts at `i` leaves this list there, with the count behind it, changes nothing
before `i` and stays below `upper`. -/
structure Leaves (i upper : Int) (kept : List Entry) (before after : Logged Entry)
    (count : Int) : Prop where
  rest : ∀ index < i, after.cells index = before.cells index
  count : count = i + kept.length
  entries : window after.cells i kept.length = kept
  stays : Stays before after i upper

variable {before after : Logged Entry} {i upper count : Int} {kept : List Entry}

theorem leaves_nothing (upTo : count = i) : Leaves i upper [] before before count where
  rest := fun _ _ => rfl
  count := by
    rw [upTo]
    exact (Int.add_zero i).symm
  entries := rfl
  stays := stays_refl _ _ _

theorem Leaves.cons (later : Leaves (i + 1) upper kept (before.read i) after count)
    (inside : i < upper) : Leaves i upper (before.cells i :: kept) before after count where
  rest := by
    intro index below
    exact later.rest index (by omega)
  count := by
    rw [List.length_cons, later.count]
    omega
  entries := by
    have head : after.cells i = before.cells i := later.rest i (by omega)
    rw [List.length_cons, window, head, later.entries]
  stays := by
    have reading : Stays before (before.read i) i upper :=
      stays_of_access (Int.le_refl i) inside rfl
    exact reading.trans (later.stays.widen (by omega) (Int.le_refl upper))

end Scans

end LinuxFff.LoggedArray
