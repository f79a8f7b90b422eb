import LinuxFff.CString
import Mathlib.Data.List.Range

/-!
# Flat memory, user copies and error numbers

Addresses are natural numbers and every address holds a byte, so a range that
leaves its array reads or changes what lies behind it. A copy from user space
that meets a bad page has stored a prefix, and may have cleared the rest.
-/

namespace LinuxFff.KernelMemory

open LinuxFff.CString

set_option autoImplicit false

def enomem : Int := -12
def efault : Int := -14
def einval : Int := -22

abbrev Memory := Nat → Byte

def Memory.load (memory : Memory) (address length : Nat) : Bytes :=
  (List.range length).map fun index => memory (address + index)

def Memory.store (memory : Memory) (address : Nat) (bytes : Bytes) : Memory :=
  fun target =>
    if address ≤ target ∧ target < address + bytes.length then
      bytes.getD (target - address) 0
    else memory target

inductive UserCopy where
  | whole
  | fault (copied : Nat) (zeroed : Bool)
  deriving DecidableEq

/-- The bytes that `copy_from_user` has stored when it returns. -/
def UserCopy.stored (copy : UserCopy) (bytes : Bytes) : Bytes :=
  match copy with
  | .whole => bytes
  | .fault copied zeroed =>
      bytes.take copied ++ if zeroed then List.replicate (bytes.length - copied) 0 else []

def Memory.copyFromUser (memory : Memory) (address : Nat) (bytes : Bytes) (copy : UserCopy) :
    Memory × Bool :=
  (memory.store address (copy.stored bytes), copy = .whole)

theorem stored_length_le (copy : UserCopy) (bytes : Bytes) :
    (copy.stored bytes).length ≤ bytes.length := by
  cases copy with
  | whole => exact Nat.le_refl _
  | fault copied zeroed =>
      cases zeroed with
      | false =>
          change (bytes.take copied ++ []).length ≤ bytes.length
          rw [List.append_nil, List.length_take]
          exact Nat.min_le_right _ _
      | true =>
          simp only [UserCopy.stored, if_pos, List.length_append, List.length_take,
            List.length_replicate]
          omega

theorem load_congr {left right : Memory} {source target length : Nat}
    (same : ∀ index, index < length → left (source + index) = right (target + index)) :
    left.load source length = right.load target length := by
  unfold Memory.load
  apply List.map_congr_left
  intro index member
  exact same index (List.mem_range.mp member)

theorem load_slice (memory : Memory) (base size offset count : Nat) :
    memory.load (base + offset) (min count (size - offset)) =
      ((memory.load base size).drop offset).take count := by
  apply List.ext_getElem
  · simp [Memory.load]
  · intro index left right
    simp [Memory.load, Nat.add_assoc]

theorem load_length (memory : Memory) (base size : Nat) :
    (memory.load base size).length = size := by
  rw [Memory.load, List.length_map, List.length_range]

theorem load_store (memory : Memory) (base size : Nat) (bytes : Bytes) :
    (memory.store base bytes).load base size =
      bytes.take size ++ (memory.load base size).drop bytes.length := by
  apply List.ext_getElem
  · simp only [load_length, List.length_append, List.length_take, List.length_drop]
    omega
  · intro index left right
    rw [load_length] at left
    by_cases inside : index < bytes.length
    · rw [List.getElem_append_left (by rw [List.length_take]; omega)]
      simp [Memory.load, Memory.store, inside]
    · rw [List.getElem_append_right (by rw [List.length_take]; omega)]
      have shift : bytes.length + (index - min size bytes.length) = index := by omega
      simp [Memory.load, Memory.store, inside, shift]

theorem store_outside (memory : Memory) (address : Nat) (bytes : Bytes) (target : Nat)
    (outside : target < address ∨ address + bytes.length ≤ target) :
    memory.store address bytes target = memory target := by
  unfold Memory.store
  rw [if_neg (by omega)]

theorem store_shifted (left right : Memory) (source target index : Nat) (bytes : Bytes)
    (same : left (source + index) = right (target + index)) :
    left.store source bytes (source + index) = right.store target bytes (target + index) := by
  unfold Memory.store
  by_cases inside : index < bytes.length
  · rw [if_pos (by omega), if_pos (by omega), Nat.add_sub_cancel_left, Nat.add_sub_cancel_left]
  · rw [if_neg (by omega), if_neg (by omega), same]

end LinuxFff.KernelMemory
