import LinuxFff.BufferRows

/-!
# A caller that writes until everything is accepted

A write accepts at most 1024 bytes and says how many. A caller that follows the
convention of `write(2)` then writes the rest, and each of its writes replaces
what the row held before.
-/

namespace LinuxFff.RetryingWriter

open LinuxFff.CString LinuxFff.KernelMemory LinuxFff.SizeArith LinuxFff.BufferDevice
open LinuxFff.CharDevice hiding syscall serve
open LinuxFff.ByteStore LinuxFff.BufferRows LinuxFff.BufferRows.BufferProgram

set_option autoImplicit false

/-- The caller writes what has not been accepted yet until nothing is left; it
gives up only when the fuel runs out. -/
def writeAll (program : BufferProgram) (key : program.Key) :
    Nat → World program.Device program.Key → Bytes → Option (World program.Device program.Key)
  | 0, _, _ => none
  | fuel + 1, world, rest =>
      let result := program.syscall world key (.file (.write rest .whole))
      if rest.drop result.2.ret.toNat = [] then some result.1
      else writeAll program key fuel result.1 (rest.drop result.2.ret.toNat)

/-- The part of a message that the last of its writes sends. -/
def lastPiece (message : Bytes) : Bytes :=
  message.drop (BufferDevice.bufSize * ((message.length - 1) / BufferDevice.bufSize))

theorem last_piece_short {message : Bytes} (short : message.length ≤ BufferDevice.bufSize) :
    lastPiece message = message := by
  unfold lastPiece
  rw [Nat.div_eq_of_lt (by unfold BufferDevice.bufSize at *; omega), Nat.mul_zero, List.drop_zero]

theorem last_piece_drop {message : Bytes} (long : BufferDevice.bufSize < message.length) :
    lastPiece (message.drop BufferDevice.bufSize) = lastPiece message := by
  unfold lastPiece
  rw [List.length_drop, List.drop_drop]
  apply congrArg (fun count => message.drop count)
  unfold BufferDevice.bufSize at *
  omega

/-- The last piece is the beginning of the message only if it is the whole
message or repeats the first 1024 bytes. -/
theorem last_piece_eq_take_iff (message : Bytes) :
    lastPiece message = message.take BufferDevice.bufSize ↔
      message.length ≤ BufferDevice.bufSize ∨
        (BufferDevice.bufSize ∣ message.length ∧
          message.drop (message.length - BufferDevice.bufSize) =
            message.take BufferDevice.bufSize) := by
  by_cases short : message.length ≤ BufferDevice.bufSize
  case pos =>
    rw [last_piece_short short, List.take_of_length_le short]
    exact ⟨fun _ => Or.inl short, fun _ => rfl⟩
  case neg =>
    have start : ∀ whole : BufferDevice.bufSize ∣ message.length,
        BufferDevice.bufSize * ((message.length - 1) / BufferDevice.bufSize) =
          message.length - BufferDevice.bufSize := by
      intro whole
      obtain ⟨pieces, length⟩ := whole
      unfold BufferDevice.bufSize at *
      omega
    constructor
    case mp =>
      intro same
      have lengths := congrArg List.length same
      rw [lastPiece, List.length_drop, List.length_take] at lengths
      have whole : BufferDevice.bufSize ∣ message.length := by
        refine ⟨(message.length - 1) / BufferDevice.bufSize + 1, ?_⟩
        unfold BufferDevice.bufSize at *
        omega
      rw [lastPiece, start whole] at same
      exact Or.inr ⟨whole, same⟩
    case mpr =>
      intro condition
      rcases condition with within | ⟨whole, same⟩
      · exact absurd within short
      · rw [lastPiece, start whole, same]

section Program

variable {program : BufferProgram} {key : program.Key}

/-- The loop ends after enough calls, and the row holds the last piece. -/
theorem write_all_ends (rest : Bytes) {world : World program.Device program.Key}
    (sound : program.Sound world) {file : File} (opened : world.files key = some file) :
    ∃ final, (∀ fuel, rest.length < fuel → writeAll program key fuel world rest = some final) ∧
      program.held final.device (program.rowOf key) = lastPiece rest := by
  induction length : rest.length using Nat.strong_induction_on generalizing rest world file with
  | _ size ih =>
    subst length
    obtain ⟨ret, stays, holds⟩ := whole_write sound opened rest
    have accepted : (program.syscall world key (.file (.write rest .whole))).2.ret.toNat =
        min rest.length BufferDevice.bufSize := by
      rw [ret, Int.toNat_natCast, clamped_length]
    by_cases short : rest.length ≤ BufferDevice.bufSize
    case pos =>
      refine ⟨(program.syscall world key (.file (.write rest .whole))).1, ?_, ?_⟩
      · intro fuel enough
        obtain ⟨more, rfl⟩ : ∃ more, fuel = more + 1 := ⟨fuel - 1, by omega⟩
        rw [writeAll]
        simp only [accepted, Nat.min_eq_left short, List.drop_length, if_true]
      · rw [holds, clamped_eq, last_piece_short short, List.take_of_length_le short]
    case neg =>
      -- the next call starts behind the 1024 bytes that were accepted
      have shorter : (rest.drop BufferDevice.bufSize).length < rest.length := by
        rw [List.length_drop]
        unfold BufferDevice.bufSize at *
        omega
      obtain ⟨final, ends, last⟩ := ih _ shorter (rest.drop BufferDevice.bufSize)
        (sound_syscall sound key (.file (.write rest .whole))) stays rfl
      refine ⟨final, ?_, ?_⟩
      · intro fuel enough
        obtain ⟨more, rfl⟩ : ∃ more, fuel = more + 1 := ⟨fuel - 1, by omega⟩
        have left : rest.drop BufferDevice.bufSize ≠ [] := by
          intro nothing
          rw [List.drop_eq_nil_iff] at nothing
          exact short nothing
        rw [writeAll]
        simp only [accepted, Nat.min_eq_right (Nat.le_of_not_le short), left, if_false]
        exact ends more (by omega)
      · rw [last, last_piece_drop (Nat.lt_of_not_le short)]

/-- The caller comes to an end, and the device then holds the first 1024 bytes
of the message, or all of a shorter one. -/
def KeepsBeginning (world : World program.Device program.Key) (key : program.Key)
    (message : Bytes) : Prop :=
  ∃ final, (∀ fuel, message.length < fuel →
      writeAll program key fuel world message = some final) ∧
    program.held final.device (program.rowOf key) = message.take BufferDevice.bufSize

theorem keeps_beginning_iff {world : World program.Device program.Key}
    (sound : program.Sound world) {file : File} (opened : world.files key = some file)
    (message : Bytes) :
    KeepsBeginning world key message ↔
      message.length ≤ BufferDevice.bufSize ∨
        (BufferDevice.bufSize ∣ message.length ∧
          message.drop (message.length - BufferDevice.bufSize) =
            message.take BufferDevice.bufSize) := by
  obtain ⟨final, ends, last⟩ := write_all_ends message sound opened
  rw [← last_piece_eq_take_iff, ← last]
  constructor
  · rintro ⟨other, otherEnds, keeps⟩
    have same : other = final := Option.some.inj
      ((otherEnds _ (Nat.lt_succ_self _)).symm.trans (ends _ (Nat.lt_succ_self _)))
    rw [← same, keeps]
  · intro keeps
    exact ⟨final, ends, keeps⟩

end Program

/-- For each of the three drivers and from every reachable state: the caller
comes to an end for every message, the row then holds the last piece, and this
is the beginning of the message exactly under the stated condition. -/
theorem retried_write_holds_last_piece (abi : Abi) (codes : Ex3.Codes) (source : Source)
    (world : World (program abi codes source).Device (program abi codes source).Key)
    (reached : (program abi codes source).Reached world) (key : (program abi codes source).Key)
    (opened : world.files key ≠ none) (message : Bytes) :
    (∃ final, (∀ fuel, message.length < fuel →
        writeAll (program abi codes source) key fuel world message = some final) ∧
      (program abi codes source).held final.device ((program abi codes source).rowOf key) =
        lastPiece message) ∧
      (KeepsBeginning world key message ↔
        message.length ≤ BufferDevice.bufSize ∨
          (BufferDevice.bufSize ∣ message.length ∧
            message.drop (message.length - BufferDevice.bufSize) =
              message.take BufferDevice.bufSize)) := by
  obtain ⟨file, lookup⟩ := Option.ne_none_iff_exists'.mp opened
  exact ⟨write_all_ends message reached.sound lookup,
    keeps_beginning_iff reached.sound lookup message⟩

def justOpened (source : Source) :
    World (program .lp64 triggerCodes source).Device (program .lp64 triggerCodes source).Key :=
  (program .lp64 triggerCodes source).after ((program .lp64 triggerCodes source).start fun _ => 0)
    [(someKey _ _ source, .file .openFile)]

theorem just_opened_reached (source : Source) :
    (program .lp64 triggerCodes source).Reached (justOpened source) :=
  ⟨fun _ => 0, [(someKey _ _ source, .file .openFile)], rfl⟩

theorem just_opened_files (source : Source) :
    (justOpened source).files (someKey _ _ source) ≠ none := by
  cases source <;> decide

/-- The second write overwrites what the first one has left. -/
theorem retried_write_holds_hello :
    ∃ final, (∀ fuel, 1029 < fuel → writeAll (program .lp64 triggerCodes .ex2)
        (someKey _ _ .ex2) fuel (justOpened .ex2) (List.replicate 1024 97 ++ ascii "hello") =
          some final) ∧
      (program .lp64 triggerCodes .ex2).held final.device
        ((program .lp64 triggerCodes .ex2).rowOf (someKey _ _ .ex2)) = ascii "hello" := by
  obtain ⟨final, ends, holds⟩ := (retried_write_holds_last_piece .lp64 triggerCodes .ex2
    (justOpened .ex2) (just_opened_reached .ex2) (someKey _ _ .ex2) (just_opened_files .ex2)
    (List.replicate 1024 97 ++ ascii "hello")).1
  have long : (List.replicate 1024 (97 : Byte) ++ ascii "hello").length = 1029 := by
    rw [List.length_append, List.length_replicate]
    rfl
  have last : lastPiece (List.replicate 1024 (97 : Byte) ++ ascii "hello") = ascii "hello" := by
    decide +kernel
  rw [long] at ends
  exact ⟨final, ends, holds.trans last⟩

theorem long_message_loses_beginning (source : Source) :
    ¬KeepsBeginning (justOpened source) (someKey _ _ source) (List.replicate 1025 97) := by
  obtain ⟨file, lookup⟩ := Option.ne_none_iff_exists'.mp (just_opened_files source)
  rw [keeps_beginning_iff (just_opened_reached source).sound lookup, List.length_replicate]
  rintro (short | ⟨whole, -⟩)
  · exact absurd short (by decide)
  · exact absurd whole (by decide)

theorem retried_write_loses_beginning :
    ¬KeepsBeginning (justOpened .ex2) (someKey _ _ .ex2) (List.replicate 1025 97) ∧
      ¬KeepsBeginning (justOpened .ex3) (someKey _ _ .ex3) (List.replicate 1025 97) ∧
      ¬KeepsBeginning (justOpened .multiDevices) (someKey _ _ .multiDevices)
        (List.replicate 1025 97) :=
  ⟨long_message_loses_beginning .ex2, long_message_loses_beginning .ex3,
    long_message_loses_beginning .multiDevices⟩

end LinuxFff.RetryingWriter
