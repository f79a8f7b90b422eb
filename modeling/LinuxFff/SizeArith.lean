import Mathlib.Algebra.Order.Ring.Int
import Mathlib.Tactic.NormNum

/-!
# `size_t` and `loff_t` in one expression

`loff_t` is a signed 64-bit type, and the unsigned `size_t` has 32 or 64 bits.
With 64 bits an expression over both is computed modulo `2^64` in the unsigned
type; with 32 bits the `size_t` operand is converted and the expression is
computed in the signed type. Assigning the result to a `size_t` truncates it.
-/

namespace LinuxFff.SizeArith

set_option autoImplicit false

inductive Abi where
  | ilp32
  | lp64
  deriving DecidableEq

/-- The non-negative values of a `loff_t`. -/
abbrev LOff := Fin (2 ^ 63)

namespace Abi

def sizeBytes : Abi → Nat
  | ilp32 => 4
  | lp64 => 8

/-- A `loff_t` operand next to a `size_t` operand. -/
def offsetOperand (abi : Abi) (offset : Int) : Int :=
  match abi with
  | ilp32 => offset
  | lp64 => offset % 2 ^ 64

def sizeSubOffset (abi : Abi) (size : Nat) (offset : Int) : Int :=
  match abi with
  | ilp32 => size - offset
  | lp64 => (size - offset) % 2 ^ 64

/-- The value that a `size_t` variable holds after the assignment. -/
def toSize (abi : Abi) (value : Int) : Nat :=
  match abi with
  | ilp32 => (value % 2 ^ 32).toNat
  | lp64 => (value % 2 ^ 64).toNat

theorem offset_operand_small (abi : Abi) (offset : Int) (nonneg : 0 ≤ offset)
    (small : offset < 2 ^ 63) : abi.offsetOperand offset = offset := by
  cases abi with
  | ilp32 => rfl
  | lp64 => exact Int.emod_eq_of_lt nonneg (by omega)

theorem size_sub_offset_within (abi : Abi) (size : Nat) (offset : Int)
    (small : size < 2 ^ 32) (nonneg : 0 ≤ offset) (within : offset ≤ size) :
    abi.sizeSubOffset size offset = size - offset := by
  cases abi with
  | ilp32 => rfl
  | lp64 => exact Int.emod_eq_of_lt (by omega) (by omega)

theorem to_size_small (abi : Abi) (value : Int) (nonneg : 0 ≤ value)
    (small : value < 2 ^ 32) : abi.toSize value = value.toNat := by
  cases abi with
  | ilp32 => simp only [toSize, Int.emod_eq_of_lt nonneg small]
  | lp64 => simp only [toSize, Int.emod_eq_of_lt nonneg (show value < 2 ^ 64 by omega)]

/-- A difference that should be negative becomes a huge size. -/
theorem to_size_wraps (abi : Abi) (size : Nat) (offset : Int) (beyond : size < offset)
    (near : offset ≤ size + 2 ^ 31) :
    2 ^ 31 ≤ abi.toSize (abi.sizeSubOffset size offset) := by
  cases abi with
  | ilp32 =>
      simp only [toSize, sizeSubOffset]
      omega
  | lp64 =>
      simp only [toSize, sizeSubOffset]
      omega

end Abi

end LinuxFff.SizeArith
