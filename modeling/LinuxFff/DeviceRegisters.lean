import Mathlib.Data.Nat.Basic

/-!
# 32-bit registers in byte-addressed memory

A register is the four bytes from an address on, the lowest first. Two registers either are
apart or share bytes; a write is read back, leaves registers that are apart from it as they
were, and shows through in one that shares bytes with it.
-/

namespace LinuxFff.DeviceRegisters

set_option autoImplicit false

abbrev Memory := Nat → BitVec 8

def ioread32 (memory : Memory) (address : Nat) : BitVec 32 :=
  memory (address + 3) ++ memory (address + 2) ++ memory (address + 1) ++ memory address

def iowrite32 (value : BitVec 32) (address : Nat) (memory : Memory) : Memory := fun other =>
  if address ≤ other ∧ other < address + 4 then value.extractLsb' (8 * (other - address)) 8
  else memory other

def Apart (first second : Nat) : Prop := first + 4 ≤ second ∨ second + 4 ≤ first

instance (first second : Nat) : Decidable (Apart first second) :=
  inferInstanceAs (Decidable (_ ∨ _))

variable {memory : Memory} {value : BitVec 32} {address other : Nat}

theorem ioread32_bit {byte bit : Nat} (inWord : byte < 4) (inByte : bit < 8) :
    (ioread32 memory address).getLsbD (8 * byte + bit) =
      (memory (address + byte)).getLsbD bit := by
  unfold ioread32
  simp only [BitVec.getLsbD_append]
  have cases : byte = 0 ∨ byte = 1 ∨ byte = 2 ∨ byte = 3 := by omega
  rcases cases with same | same | same | same
  all_goals
    subst same
    split_ifs
  -- the index is that of the bit in its byte
  all_goals first
    | omega
    | exact congrArg _ (by omega)

theorem iowrite32_byte {offset : Nat} (inside : offset < 4) :
    iowrite32 value address memory (address + offset) = value.extractLsb' (8 * offset) 8 := by
  have range : address ≤ address + offset ∧ address + offset < address + 4 := by omega
  rw [iowrite32, if_pos range, Nat.add_sub_cancel_left]

/-- Where two registers share a byte, the one shows what was written to the other. -/
theorem ioread32_shared {byte offset bit : Nat} (same : other + byte = address + offset)
    (inWord : byte < 4) (inside : offset < 4) (inByte : bit < 8) :
    (ioread32 (iowrite32 value address memory) other).getLsbD (8 * byte + bit) =
      value.getLsbD (8 * offset + bit) := by
  rw [ioread32_bit inWord inByte, same, iowrite32_byte inside, BitVec.getLsbD_extractLsb']
  simp [inByte]

theorem ioread32_written : ioread32 (iowrite32 value address memory) address = value := by
  apply BitVec.eq_of_getLsbD_eq
  intro index bound
  have split : 8 * (index / 8) + index % 8 = index := by omega
  rw [← split]
  exact ioread32_shared rfl (by omega) (by omega) (by omega)

theorem ioread32_apart (apart : Apart address other) :
    ioread32 (iowrite32 value address memory) other = ioread32 memory other := by
  have outside : ∀ byte, byte < 4 →
      iowrite32 value address memory (other + byte) = memory (other + byte) := by
    intro byte inWord
    rw [iowrite32, if_neg]
    rcases apart with before | behind
    · omega
    · omega
  have first := outside 0 (by decide)
  rw [Nat.add_zero] at first
  rw [ioread32, ioread32, outside 3 (by decide), outside 2 (by decide), outside 1 (by decide),
    first]

theorem shared_byte (overlap : ¬Apart address other) :
    ∃ byte offset, byte < 4 ∧ offset < 4 ∧ other + byte = address + offset := by
  unfold Apart at overlap
  by_cases below : address ≤ other
  · exact ⟨0, other - address, by omega, by omega, by omega⟩
  · exact ⟨address - other, 0, by omega, by omega, by omega⟩

theorem one_shift_bit {bit pin : Nat} (inWord : pin < 32) :
    (1#32 <<< bit).getLsbD pin = decide (pin = bit) := by
  rw [BitVec.getLsbD_shiftLeft]
  by_cases same : pin = bit
  · subst same
    simp [inWord]
  · by_cases below : pin < bit
    · simp [below, same]
    · have positive : pin - bit ≠ 0 := by omega
      simp [same, BitVec.getLsbD_one, positive]

/-- Where the one bit of `1 << bit` comes to stand in a register that holds nothing else. -/
theorem one_shift_lands {bit pin : Nat} (small : bit < 32) (inWord : pin < 32) :
    (ioread32 (iowrite32 (1#32 <<< bit) address fun _ => 0) other).getLsbD pin =
      decide (address + bit / 8 = other + pin / 8 ∧ bit % 8 = pin % 8) := by
  have split : 8 * (pin / 8) + pin % 8 = pin := by omega
  have read := @ioread32_bit (iowrite32 (1#32 <<< bit) address fun _ => 0) other (pin / 8) (pin % 8)
    (by omega) (Nat.mod_lt _ (by decide))
  rw [split] at read
  rw [read]
  by_cases inside : address ≤ other + pin / 8 ∧ other + pin / 8 < address + 4
  · obtain ⟨offset, same⟩ := Nat.exists_eq_add_of_le inside.1
    have short : offset < 4 := by omega
    rw [same, iowrite32_byte short, BitVec.getLsbD_extractLsb', one_shift_bit (by omega)]
    have inByte : pin % 8 < 8 := Nat.mod_lt _ (by decide)
    rw [decide_eq_true inByte, Bool.true_and]
    apply decide_eq_decide.mpr
    omega
  · rw [iowrite32, if_neg inside]
    have missed : ¬(address + bit / 8 = other + pin / 8 ∧ bit % 8 = pin % 8) := by omega
    rw [decide_eq_false missed]
    exact BitVec.getLsbD_zero

/-- A word with one bit, written over a part of another register, clears a bit there that is
not that one. -/
theorem one_shift_shared (overlap : ¬Apart address other) (bit : Nat) :
    ∃ pin < 32, pin ≠ bit ∧
      (ioread32 (iowrite32 (1#32 <<< bit) address memory) other).getLsbD pin = false := by
  obtain ⟨byte, offset, inWord, inside, same⟩ := shared_byte overlap
  -- of three bits one is neither this bit nor written from it
  have free : ∃ place < 3, 8 * byte + place ≠ bit ∧ 8 * offset + place ≠ bit := by
    by_cases first : 8 * byte ≠ bit ∧ 8 * offset ≠ bit
    · exact ⟨0, by decide, first⟩
    · by_cases second : 8 * byte + 1 ≠ bit ∧ 8 * offset + 1 ≠ bit
      · exact ⟨1, by decide, second⟩
      · exact ⟨2, by decide, by omega, by omega⟩
  obtain ⟨place, small, apart, unwritten⟩ := free
  refine ⟨8 * byte + place, by omega, apart, ?_⟩
  rw [ioread32_shared same inWord inside (by omega), one_shift_bit (by omega)]
  exact decide_eq_false unwritten

end LinuxFff.DeviceRegisters
