import LinuxFff.CString

/-!
# Reading the lines of a file that grows

A stream reads a file block by block into a buffer and `fgets` takes its pieces from there, while
others append to the file. Up to the read that finds the end of the file the pieces are those of
any file that goes on as this one has begun; that read makes them those of the file as it
was then.
-/

namespace LinuxFff.GrowingFile

open LinuxFff.CString

set_option autoImplicit false

/-- `position` is where the next read starts, and `buffer` has been read and not been taken. -/
structure Reader where
  position : Nat
  buffer : Bytes
  eof : Bool
  deriving DecidableEq

def opened : Reader := ⟨0, [], false⟩

def Full (room : Nat) (buffer : Bytes) : Prop :=
  newline ∈ buffer.take room ∨ room ≤ buffer.length

instance (room : Nat) (buffer : Bytes) : Decidable (Full room buffer) :=
  inferInstanceAs (Decidable (_ ∨ _))

/-- `fgets` needs no read. -/
def Reader.Ready (room : Nat) (reader : Reader) : Prop :=
  reader.eof = true ∨ Full room reader.buffer

instance (room : Nat) (reader : Reader) : Decidable (reader.Ready room) :=
  inferInstanceAs (Decidable (_ ∨ _))

def Reader.fill (reader : Reader) (file : Bytes) (count : Nat) : Option Reader :=
  let rest := file.drop reader.position
  if rest = [] then some { reader with eof := true }
  else if 0 < count ∧ count ≤ rest.length then
    some { reader with
      position := reader.position + count
      buffer := reader.buffer ++ rest.take count }
  else none

def Reader.get (room : Nat) (reader : Reader) : Bytes := (fgets room reader.buffer).1

def Reader.advance (room : Nat) (reader : Reader) : Reader :=
  { reader with buffer := (fgets room reader.buffer).2 }

/-- What has been taken and what will be taken, however the file goes on. -/
structure Reads (room : Nat) (file : Bytes) (taken : List Bytes) (reader : Reader) : Prop where
  open_end : reader.eof = false
  within : reader.position ≤ file.length
  pieces : ∀ more, fgetsLoop room (file.take reader.position ++ more) =
    taken ++ fgetsLoop room (reader.buffer ++ more)

/-- A full buffer has the piece that the whole stream would give. -/
theorem fgets_full_append (room : Nat) (buffer more : Bytes) (full : Full room buffer) :
    fgets room (buffer ++ more) = ((fgets room buffer).1, (fgets room buffer).2 ++ more) := by
  induction room generalizing buffer with
  | zero => rfl
  | succ room ih =>
      cases buffer with
      | nil =>
          rcases full with inside | long
          · cases inside
          · exact absurd long (Nat.not_succ_le_zero room)
      | cons byte rest =>
          rw [List.cons_append, fgets, fgets]
          by_cases last : byte = newline
          · rw [if_pos last, if_pos last]
          · have later : Full room rest := by
              rcases full with inside | long
              · rw [List.take_succ_cons] at inside
                exact Or.inl ((List.mem_cons.mp inside).resolve_left (Ne.symm last))
              · exact Or.inr (Nat.le_of_succ_le_succ long)
            rw [if_neg last, if_neg last, ih rest later]

theorem fgets_cons_ne_nil (room : Nat) (byte : Byte) (stream : Bytes) :
    (fgets (room + 1) (byte :: stream)).1 ≠ [] := by
  rw [fgets]
  split
  · exact List.cons_ne_nil _ _
  · exact List.cons_ne_nil _ _

theorem fgets_loop_next {room : Nat} {stream : Bytes} (more : stream ≠ []) :
    fgetsLoop (room + 1) stream =
      (fgets (room + 1) stream).1 :: fgetsLoop (room + 1) (fgets (room + 1) stream).2 := by
  cases stream with
  | nil => exact absurd rfl more
  | cons byte rest => exact fgets_loop_cons room byte rest

section Reading

variable {room : Nat} {file : Bytes} {taken : List Bytes} {reader after : Reader}

theorem reads_opened (room : Nat) (file : Bytes) : Reads room file [] opened where
  open_end := rfl
  within := Nat.zero_le _
  pieces := fun _ => rfl

theorem Reads.grow (reads : Reads room file taken reader) (extra : Bytes) :
    Reads room (file ++ extra) taken reader where
  open_end := reads.open_end
  within := by
    rw [List.length_append]
    exact Nat.le_add_right_of_le reads.within
  pieces := by
    rw [List.take_append_of_le_length reads.within]
    exact reads.pieces

theorem Reads.fill {count : Nat} (reads : Reads room file taken reader)
    (filled : reader.fill file count = some after) (more : file.drop reader.position ≠ []) :
    Reads room file taken after := by
  simp only [Reader.fill, more, if_false, Option.ite_none_right_eq_some,
    Option.some.injEq] at filled
  obtain ⟨⟨_, bound⟩, same⟩ := filled
  rw [List.length_drop] at bound
  rw [← same]
  have within := reads.within
  constructor
  case open_end => exact reads.open_end
  case within =>
    change reader.position + count ≤ file.length
    omega
  case pieces =>
    intro more
    change fgetsLoop room (file.take (reader.position + count) ++ more) = _
    rw [List.take_add, List.append_assoc, reads.pieces, List.append_assoc]

/-- The read that finds the end: all pieces of the file are taken or in the buffer. -/
theorem Reads.at_end {count : Nat} (reads : Reads room file taken reader)
    (filled : reader.fill file count = some after) (ended : file.drop reader.position = []) :
    after.eof = true ∧ after.buffer = reader.buffer ∧
      fgetsLoop room file = taken ++ fgetsLoop room after.buffer := by
  simp only [Reader.fill, ended, if_true, Option.some.injEq] at filled
  rw [← filled]
  have whole : file.take reader.position = file :=
    List.take_of_length_le (List.drop_eq_nil_iff.mp ended)
  have pieces := reads.pieces []
  rw [List.append_nil, List.append_nil, whole] at pieces
  exact ⟨rfl, rfl, pieces⟩

theorem Reads.take (reads : Reads (room + 1) file taken reader)
    (full : Full (room + 1) reader.buffer) :
    Reads (room + 1) file (taken ++ [reader.get (room + 1)]) (reader.advance (room + 1)) where
  open_end := reads.open_end
  within := reads.within
  pieces := by
    intro more
    have some : reader.buffer ++ more ≠ [] := by
      intro none
      rw [(List.append_eq_nil_iff.mp none).1] at full
      rcases full with inside | long
      · cases inside
      · exact absurd long (Nat.not_succ_le_zero room)
    change fgetsLoop (room + 1) (file.take reader.position ++ more) = _
    rw [reads.pieces, fgets_loop_next some, fgets_full_append _ _ _ full, List.append_assoc]
    rfl

end Reading

end LinuxFff.GrowingFile
