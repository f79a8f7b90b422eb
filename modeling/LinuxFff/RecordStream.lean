import Mathlib.Data.List.Basic

/-!
# Reading a stream of records

A sender writes records. A reader with a buffer of fixed size gets the bytes of
the current record that fit, then the rest of it, and goes on to the next
record when there is none left.
-/

namespace LinuxFff.RecordStream

set_option autoImplicit false

variable {Element : Type*}

/-- One read; it waits while there is no record. -/
def read (size : Nat) : List (List Element) → Option (List Element × List (List Element))
  | [] => none
  | record :: rest =>
      if record.length ≤ size then some (record, rest)
      else some (record.take size, record.drop size :: rest)

def readsWithin (size : Nat) : Nat → List (List Element) → List (List Element)
  | 0, _ => []
  | fuel + 1, records =>
      match read size records with
      | none => []
      | some (piece, rest) => piece :: readsWithin size fuel rest

/-- The pieces that a reader gets from the records, up to the last one. -/
def reads (size : Nat) (records : List (List Element)) : List (List Element) :=
  readsWithin size (records.length + records.flatten.length) records

variable {size fuel : Nat} {records : List (List Element)}

theorem reads_within_short (short : ∀ record ∈ records, record.length ≤ size)
    (enough : records.length ≤ fuel) : readsWithin size fuel records = records := by
  induction records generalizing fuel with
  | nil =>
      cases fuel with
      | zero => rfl
      | succ fuel => rfl
  | cons record rest ih =>
      cases fuel with
      | zero => simp at enough
      | succ fuel =>
          have fits : record.length ≤ size := short record List.mem_cons_self
          have tail := ih (fun other member => short other (List.mem_cons_of_mem _ member))
            (Nat.le_of_succ_le_succ enough)
          simp only [readsWithin, read, if_pos fits, tail]

theorem reads_short (short : ∀ record ∈ records, record.length ≤ size) :
    reads size records = records :=
  reads_within_short short (Nat.le_add_right _ _)

/-- The first read gets what fits of the first record. -/
theorem reads_head (size : Nat) (record : List Element) (rest : List (List Element)) :
    ∃ later, reads size (record :: rest) = record.take size :: later := by
  have fuel : (record :: rest).length + (record :: rest).flatten.length =
      rest.length + (record :: rest).flatten.length + 1 := by
    rw [List.length_cons]
    omega
  rw [reads, fuel]
  by_cases fits : record.length ≤ size
  · simp only [readsWithin, read, if_pos fits, List.take_of_length_le fits]
    exact ⟨_, rfl⟩
  · simp only [readsWithin, read, if_neg fits]
    exact ⟨_, rfl⟩

theorem read_shorter {piece : List Element} {rest : List (List Element)} (positive : 0 < size)
    (first : read size records = some (piece, rest)) :
    rest.length + rest.flatten.length < records.length + records.flatten.length := by
  cases records with
  | nil => simp [read] at first
  | cons record later =>
      simp only [read] at first
      split_ifs at first with fits
      · rw [(Prod.mk.inj (Option.some.inj first)).2, List.length_cons, List.flatten_cons,
          List.length_append]
        omega
      · rw [← (Prod.mk.inj (Option.some.inj first)).2]
        simp only [List.length_cons, List.flatten_cons, List.length_append, List.length_drop]
        omega

theorem reads_within_fuel {other : Nat} (positive : 0 < size)
    (enough : records.length + records.flatten.length ≤ fuel)
    (alsoEnough : records.length + records.flatten.length ≤ other) :
    readsWithin size fuel records = readsWithin size other records := by
  induction fuel generalizing other records with
  | zero =>
      have nothing : records = [] := List.eq_nil_of_length_eq_zero (by omega)
      rw [nothing]
      cases other <;> rfl
  | succ fuel ih =>
      cases other with
      | zero =>
          have nothing : records = [] := List.eq_nil_of_length_eq_zero (by omega)
          rw [nothing]
          rfl
      | succ other =>
          cases first : read size records with
          | none => simp only [readsWithin, first]
          | some result =>
              rcases result with ⟨piece, rest⟩
              have shorter := read_shorter positive first
              simp only [readsWithin, first]
              rw [@ih _ other (by omega) (by omega)]

theorem reads_cons {piece : List Element} {rest : List (List Element)} (positive : 0 < size)
    (first : read size records = some (piece, rest)) :
    reads size records = piece :: reads size rest := by
  have shorter := read_shorter positive first
  have more : readsWithin size (records.length + records.flatten.length + 1) records =
      reads size records := reads_within_fuel positive (by omega) (Nat.le_refl _)
  rw [← more, readsWithin, first]
  exact congrArg (List.cons piece) (reads_within_fuel positive (by omega) (Nat.le_refl _))

end LinuxFff.RecordStream
