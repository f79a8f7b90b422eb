import LinuxFff.DeviceRegisters
import LinuxFff.PlatformDrivers

/-!
# The one pin that `ledledled.c` uses

`led_probe` ignores whether the properties of its node could be read: a missing one leaves what
the static record held before, which is 0 at load, and every value is taken as it is. The
register writes are replayed here on the memory of the device, byte by byte, so that registers
which the node puts on top of one another do change each other.
-/

namespace LinuxFff.LedPin

open LinuxFff.DeviceRegisters LinuxFff.LedDriver
open LinuxFff.PlatformDrivers (FileOp file_op_sets_level)

set_option autoImplicit false

/-- A call that may set the LED, from user space or from another driver. -/
inductive Operation where
  | file (op : FileOp)
  | setLedState (a : Bool)

def perform (driver : Driver) : Operation → Driver
  | .file op => op.perform driver
  | .setLedState a => setLedState a driver

def performAll (driver : Driver) (operations : List Operation) : Driver :=
  operations.foldl perform driver

def Operation.level : Operation → Option Bool
  | .file op => op.level
  | .setLedState a => some a

def offsetOf (led : Led) : Reg → BitVec 32
  | .set => led.set
  | .clr => led.clr
  | .oe => led.oe

/-- `led.base + led.set` and the like. -/
def addressOf (led : Led) (write : RegWrite) : Nat :=
  write.base.getD 0 + (offsetOf led write.reg).toNat

def applyWrites (led : Led) (memory : Memory) (writes : List RegWrite) : Memory :=
  writes.foldl (fun memory write => iowrite32 write.value (addressOf led write) memory) memory

/-- The static record once `led_probe` has read the properties. -/
def configured (prior : Led) (base : Nat) (node : Node) : Led :=
  { prior with
    base := some base
    bit := node.bit.getD prior.bit
    set := node.set.getD prior.set
    clr := node.clr.getD prior.clr
    oe := node.oe.getD prior.oe }

def oeAddress (prior : Led) (base : Nat) (node : Node) : Nat :=
  base + (configured prior base node).oe.toNat

/-- `led_probe`, which reads the output-enable register from the memory. -/
def probe (prior : Led) (base : Nat) (node : Node) (memory : Memory) : Driver :=
  (ledProbe (some base) node (ioread32 memory (oeAddress prior base node)) ⟨prior, []⟩).2

/-- The driver after the probe and these calls, and the memory of the device then. -/
def served (prior : Led) (base : Nat) (node : Node) (memory : Memory)
    (operations : List Operation) : Driver :=
  performAll (probe prior base node memory) operations

def memoryAfter (prior : Led) (base : Nat) (node : Node) (memory : Memory)
    (operations : List Operation) : Memory :=
  applyWrites (served prior base node memory operations).led memory
    (served prior base node memory operations).writes

/-- The bits of a write that come to stand in the register at an address. -/
def landing (led : Led) (write : RegWrite) (address : Nat) : BitVec 32 :=
  ioread32 (iowrite32 write.value (addressOf led write) fun _ => 0) address

def setAddress (prior : Led) (base : Nat) (node : Node) : Nat :=
  base + (configured prior base node).set.toNat

def clrAddress (prior : Led) (base : Nat) (node : Node) : Nat :=
  base + (configured prior base node).clr.toNat

/-- A one in the set register raises the level of its pin, and a one in the clear register
lowers it. -/
def levelsAfter (prior : Led) (base : Nat) (node : Node) (levels : BitVec 32)
    (writes : List RegWrite) : BitVec 32 :=
  writes.foldl (fun levels write =>
    (levels ||| landing (configured prior base node) write (setAddress prior base node)) &&&
      ~~~landing (configured prior base node) write (clrAddress prior base node)) levels

def offsets (node : Node) : List (BitVec 32) :=
  node.set.toList ++ node.clr.toList ++ node.oe.toList

/-- The driver touches nothing but its pin. -/
structure OwnPin (prior : Led) (base : Nat) (node : Node) (memory : Memory)
    (operations : List Operation) : Prop where
  shifts : ∀ earlier, earlier <+: operations →
    (served prior base node memory earlier).led.bit.toNat < 32
  named : ∀ write ∈ (served prior base node memory operations).writes, ∃ offset ∈ offsets node,
    addressOf (served prior base node memory operations).led write = base + offset.toNat
  others : ∀ pin < 32, pin ≠ (configured prior base node).bit.toNat →
    (ioread32 (memoryAfter prior base node memory operations)
        (oeAddress prior base node)).getLsbD pin =
      (ioread32 memory (oeAddress prior base node)).getLsbD pin
  output : (ioread32 (memoryAfter prior base node memory operations)
    (oeAddress prior base node)).getLsbD (configured prior base node).bit.toNat = false
  single : ∀ write ∈ (served prior base node memory operations).writes, write.reg ≠ .oe →
    ∀ pin < 32, write.value.getLsbD pin = decide (pin = (configured prior base node).bit.toNat)
  levels : ∀ levels, ∀ pin < 32, pin ≠ (configured prior base node).bit.toNat →
    (levelsAfter prior base node levels
        (served prior base node memory operations).writes).getLsbD pin = levels.getLsbD pin

/-- The byte that has the bit does not come to stand in the other register. -/
def Beside (bit written other : BitVec 32) : Prop :=
  written.toNat + bit.toNat / 8 < other.toNat ∨ other.toNat + 4 ≤ written.toNat + bit.toNat / 8

/-- The number of a bit of the word, and registers that the node names, apart from the
output-enable register. A missing `set-offset` does no harm when the value left from before
is the `clr-offset`, and the other way round. Set and clear register are one, or neither of them
has the byte in which the other has the bit. -/
structure NamesOwnPin (prior : Led) (node : Node) : Prop where
  bit : (node.bit.getD prior.bit).toNat < 32
  oe : node.oe.isSome = true
  set : node.set.isSome = true ∨ node.clr = some prior.set
  clr : node.clr.isSome = true ∨ node.set = some prior.clr
  setApart : Apart (node.set.getD prior.set).toNat (node.oe.getD prior.oe).toNat
  clrApart : Apart (node.clr.getD prior.clr).toNat (node.oe.getD prior.oe).toNat
  beside : node.set.getD prior.set = node.clr.getD prior.clr ∨
    Beside (node.bit.getD prior.bit) (node.set.getD prior.set) (node.clr.getD prior.clr) ∧
      Beside (node.bit.getD prior.bit) (node.clr.getD prior.clr) (node.set.getD prior.set)

def levelWrite (led : Led) (level : Bool) : RegWrite :=
  ⟨led.base, if level then .set else .clr, led.mask⟩

theorem perform_level (driver : Driver) (operation : Operation) :
    perform driver operation = setGivenLevel operation.level driver := by
  cases operation with
  | file op => exact file_op_sets_level op driver
  | setLedState a => rfl

theorem set_given_level_effect (level : Option Bool) (driver : Driver) :
    (∃ state, (setGivenLevel level driver).led = { driver.led with state }) ∧
      (setGivenLevel level driver).writes =
        driver.writes ++ level.toList.map (levelWrite driver.led) := by
  cases level with
  | none => exact ⟨⟨driver.led.state, rfl⟩, (List.append_nil _).symm⟩
  | some level =>
      cases level with
      | true => exact ⟨⟨true, rfl⟩, rfl⟩
      | false => exact ⟨⟨false, rfl⟩, rfl⟩

theorem perform_all_effect (driver : Driver) (operations : List Operation) :
    (∃ state, (performAll driver operations).led = { driver.led with state }) ∧
      (performAll driver operations).writes =
        driver.writes ++ (operations.filterMap Operation.level).map (levelWrite driver.led) := by
  induction operations generalizing driver with
  | nil => exact ⟨⟨driver.led.state, rfl⟩, (List.append_nil _).symm⟩
  | cons operation rest ih =>
      have unfolded : performAll driver (operation :: rest) =
          performAll (setGivenLevel operation.level driver) rest := by
        rw [← perform_level]
        rfl
      obtain ⟨⟨first, led⟩, writes⟩ := set_given_level_effect operation.level driver
      obtain ⟨⟨last, ledAfter⟩, writesAfter⟩ := ih (setGivenLevel operation.level driver)
      have same : levelWrite (setGivenLevel operation.level driver).led = levelWrite driver.led := by
        rw [led]
        rfl
      rw [unfolded]
      constructor
      · exact ⟨last, by rw [ledAfter, led]⟩
      · rw [writesAfter, writes, same, List.append_assoc, ← List.map_append]
        cases level : operation.level with
        | none => rw [List.filterMap_cons_none level, Option.toList_none, List.nil_append]
        | some value => rw [List.filterMap_cons_some level, Option.toList_some, List.singleton_append]

section Runs

variable (prior : Led) (base : Nat) (node : Node) (memory : Memory)

def directed : BitVec 32 :=
  ioread32 memory (oeAddress prior base node) &&& ~~~(configured prior base node).mask

theorem served_effect (operations : List Operation) :
    (∃ state, (served prior base node memory operations).led =
        { configured prior base node with state }) ∧
      (served prior base node memory operations).writes =
        ⟨some base, .oe, directed prior base node memory⟩ ::
          (operations.filterMap Operation.level).map (levelWrite (configured prior base node)) :=
  perform_all_effect (probe prior base node memory) operations

theorem served_bit (operations : List Operation) :
    (served prior base node memory operations).led.bit = (configured prior base node).bit := by
  obtain ⟨⟨state, led⟩, _⟩ := served_effect prior base node memory operations
  rw [led]

theorem served_address (operations : List Operation) (write : RegWrite) :
    addressOf (served prior base node memory operations).led write =
      addressOf (configured prior base node) write := by
  obtain ⟨⟨state, led⟩, _⟩ := served_effect prior base node memory operations
  rw [led]
  unfold addressOf
  cases write.reg <;> rfl

theorem memory_after_eq (operations : List Operation) :
    memoryAfter prior base node memory operations =
      applyWrites (configured prior base node)
        (iowrite32 (directed prior base node memory) (oeAddress prior base node) memory)
        ((operations.filterMap Operation.level).map (levelWrite (configured prior base node))) := by
  have writes := (served_effect prior base node memory operations).2
  unfold memoryAfter applyWrites
  simp only [served_address, writes, List.foldl_cons]
  rfl

theorem directions_kept
    (setApart : Apart (configured prior base node).set.toNat (configured prior base node).oe.toNat)
    (clrApart : Apart (configured prior base node).clr.toNat (configured prior base node).oe.toNat)
    (levels : List Bool) :
    ioread32 (applyWrites (configured prior base node) memory
        (levels.map (levelWrite (configured prior base node)))) (oeAddress prior base node) =
      ioread32 memory (oeAddress prior base node) := by
  induction levels generalizing memory with
  | nil => rfl
  | cons level rest ih =>
      have apart : Apart (addressOf (configured prior base node)
          (levelWrite (configured prior base node) level)) (oeAddress prior base node) := by
        cases level with
        | true =>
            change Apart (base + (configured prior base node).set.toNat) (base + _)
            unfold Apart at setApart ⊢
            omega
        | false =>
            change Apart (base + (configured prior base node).clr.toNat) (base + _)
            unfold Apart at clrApart ⊢
            omega
      exact (ih _).trans (ioread32_apart apart)

theorem directed_bit {pin : Nat} (inWord : pin < 32) :
    (directed prior base node memory).getLsbD pin =
      ((ioread32 memory (oeAddress prior base node)).getLsbD pin &&
        !decide (pin = (configured prior base node).bit.toNat)) := by
  rw [directed, BitVec.getLsbD_and, BitVec.getLsbD_not, Led.mask, one_shift_bit inWord]
  simp [inWord]

theorem address_apart {first second : Nat} (apart : Apart first second) :
    Apart (base + first) (base + second) := by
  unfold Apart at apart ⊢
  omega

theorem level_address (level : Bool) :
    addressOf (configured prior base node) (levelWrite (configured prior base node) level) =
      if level then setAddress prior base node else clrAddress prior base node := by
  cases level with
  | true => rfl
  | false => rfl

theorem level_lands {pin : Nat} (small : (configured prior base node).bit.toNat < 32)
    (inWord : pin < 32) (level : Bool) (address : Nat) :
    (landing (configured prior base node) (levelWrite (configured prior base node) level)
        address).getLsbD pin =
      decide ((if level then setAddress prior base node else clrAddress prior base node) +
          (configured prior base node).bit.toNat / 8 = address + pin / 8 ∧
        (configured prior base node).bit.toNat % 8 = pin % 8) := by
  rw [← level_address]
  exact one_shift_lands small inWord

theorem direction_lands {address : Nat} (apart : Apart address (oeAddress prior base node))
    (pin : Nat) :
    (landing (configured prior base node) ⟨some base, .oe, directed prior base node memory⟩
      address).getLsbD pin = false := by
  have empty : ioread32 (fun _ => 0) address = 0 := by
    rw [ioread32]
    decide
  have missed : landing (configured prior base node)
      ⟨some base, .oe, directed prior base node memory⟩ address = 0 :=
    (ioread32_apart apart.symm).trans empty
  rw [missed]
  exact BitVec.getLsbD_zero

theorem levels_after_bit (levels : BitVec 32) (write : RegWrite) (rest : List RegWrite) {pin : Nat}
    (inWord : pin < 32) :
    ∃ moved, levelsAfter prior base node levels (write :: rest) =
        levelsAfter prior base node moved rest ∧
      moved.getLsbD pin = ((levels.getLsbD pin ||
        (landing (configured prior base node) write (setAddress prior base node)).getLsbD pin) &&
          !(landing (configured prior base node) write (clrAddress prior base node)).getLsbD pin) := by
  refine ⟨_, rfl, ?_⟩
  rw [BitVec.getLsbD_and, BitVec.getLsbD_or, BitVec.getLsbD_not, decide_eq_true inWord,
    Bool.true_and]

theorem levels_kept (writes : List RegWrite) {pin : Nat} (inWord : pin < 32)
    (missed : ∀ write ∈ writes,
      (landing (configured prior base node) write (setAddress prior base node)).getLsbD pin = false ∧
      (landing (configured prior base node) write (clrAddress prior base node)).getLsbD pin = false)
    (levels : BitVec 32) :
    (levelsAfter prior base node levels writes).getLsbD pin = levels.getLsbD pin := by
  induction writes generalizing levels with
  | nil => rfl
  | cons write rest ih =>
      obtain ⟨moved, same, bit⟩ := levels_after_bit prior base node levels write rest inWord
      obtain ⟨set, clr⟩ := missed write List.mem_cons_self
      rw [set, clr, Bool.or_false, Bool.not_false, Bool.and_true] at bit
      rw [same, ih (fun other member => missed other (List.mem_cons_of_mem _ member)), bit]

theorem served_write {operations : List Operation} {write : RegWrite}
    (written : write ∈ (served prior base node memory operations).writes) :
    write = ⟨some base, .oe, directed prior base node memory⟩ ∨
      ∃ level, write = levelWrite (configured prior base node) level := by
  rw [(served_effect prior base node memory operations).2, List.mem_cons, List.mem_map] at written
  rcases written with probing | ⟨level, _, same⟩
  · exact Or.inl probing
  · exact Or.inr ⟨level, same.symm⟩

/-- What the probe and one setting do to a level. -/
theorem one_setting_bit
    (setApart : Apart (configured prior base node).set.toNat (configured prior base node).oe.toNat)
    (clrApart : Apart (configured prior base node).clr.toNat (configured prior base node).oe.toNat)
    (level : Bool) (levels : BitVec 32) {pin : Nat} (inWord : pin < 32) :
    (levelsAfter prior base node levels
        (served prior base node memory [.setLedState level]).writes).getLsbD pin =
      ((levels.getLsbD pin ||
        (landing (configured prior base node) (levelWrite (configured prior base node) level)
          (setAddress prior base node)).getLsbD pin) &&
        !(landing (configured prior base node) (levelWrite (configured prior base node) level)
          (clrAddress prior base node)).getLsbD pin) := by
  have writes : (served prior base node memory [.setLedState level]).writes =
      [⟨some base, .oe, directed prior base node memory⟩,
        levelWrite (configured prior base node) level] :=
    (served_effect prior base node memory [.setLedState level]).2
  obtain ⟨first, firstSame, firstBit⟩ := levels_after_bit prior base node levels
    ⟨some base, .oe, directed prior base node memory⟩
    [levelWrite (configured prior base node) level] inWord
  obtain ⟨second, secondSame, secondBit⟩ := levels_after_bit prior base node first
    (levelWrite (configured prior base node) level) [] inWord
  have setMissed := direction_lands prior base node memory (address_apart base setApart) pin
  have clrMissed := direction_lands prior base node memory (address_apart base clrApart) pin
  unfold setAddress at firstBit
  unfold clrAddress at firstBit
  rw [setMissed, clrMissed, Bool.or_false, Bool.not_false, Bool.and_true] at firstBit
  rw [writes, firstSame, secondSame, ← firstBit]
  exact secondBit

end Runs

section Sufficient

variable {prior : Led} {base : Nat} {node : Node} {memory : Memory}

/-- A property that is present is named, and one that is missing may be by chance. -/
theorem named_or_left {wanted other : Option (BitVec 32)} {left : BitVec 32}
    (present : wanted.isSome = true ∨ other = some left) :
    wanted.getD left ∈ wanted.toList ∨ wanted.getD left ∈ other.toList := by
  cases wanted with
  | some offset => exact Or.inl (List.mem_singleton.mpr rfl)
  | none =>
      rcases present with impossible | same
      · cases impossible
      · rw [same]
        exact Or.inr (List.mem_singleton.mpr rfl)

theorem mem_offsets {offset : BitVec 32} : offset ∈ offsets node ↔
    node.set = some offset ∨ node.clr = some offset ∨ node.oe = some offset := by
  unfold offsets
  rw [List.mem_append, List.mem_append, Option.mem_toList, Option.mem_toList, Option.mem_toList,
    or_assoc]

theorem offset_named (names : NamesOwnPin prior node) (reg : Reg) :
    offsetOf (configured prior base node) reg ∈ offsets node := by
  unfold offsets
  rw [List.mem_append, List.mem_append]
  cases reg with
  | set => exact Or.inl (named_or_left names.set)
  | clr => exact Or.inl (named_or_left names.clr).symm
  | oe =>
      obtain ⟨offset, present⟩ := Option.isSome_iff_exists.mp names.oe
      have here : (configured prior base node).oe ∈ node.oe.toList := by
        change node.oe.getD prior.oe ∈ node.oe.toList
        rw [present]
        exact List.mem_singleton.mpr rfl
      exact Or.inr here

theorem level_misses (names : NamesOwnPin prior node) (level : Bool) {pin : Nat}
    (inWord : pin < 32) (apart : pin ≠ (configured prior base node).bit.toNat) :
    (landing (configured prior base node) (levelWrite (configured prior base node) level)
        (setAddress prior base node)).getLsbD pin = false ∧
      (landing (configured prior base node) (levelWrite (configured prior base node) level)
        (clrAddress prior base node)).getLsbD pin = false := by
  have small : (configured prior base node).bit.toNat < 32 := names.bit
  have beside : (configured prior base node).set = (configured prior base node).clr ∨
      Beside (configured prior base node).bit (configured prior base node).set
          (configured prior base node).clr ∧
        Beside (configured prior base node).bit (configured prior base node).clr
          (configured prior base node).set := names.beside
  unfold Beside at beside
  rw [level_lands _ _ _ small inWord, level_lands _ _ _ small inWord, decide_eq_false_iff_not,
    decide_eq_false_iff_not, setAddress, clrAddress]
  cases level with
  | true =>
      rw [if_pos rfl]
      rcases beside with same | ⟨fromSet, _⟩
      · rw [same]
        omega
      · omega
  | false =>
      rw [if_neg Bool.false_ne_true]
      rcases beside with same | ⟨_, fromClr⟩
      · rw [same]
        omega
      · omega

theorem own_pin_of_names (names : NamesOwnPin prior node) (operations : List Operation) :
    OwnPin prior base node memory operations := by
  have direction : ioread32 (memoryAfter prior base node memory operations)
      (oeAddress prior base node) = directed prior base node memory := by
    rw [memory_after_eq, directions_kept _ _ _ _ names.setApart names.clrApart, ioread32_written]
  constructor
  case shifts =>
    intro earlier _
    rw [served_bit]
    exact names.bit
  case named =>
    intro write written
    refine ⟨offsetOf (configured prior base node) write.reg, offset_named names write.reg, ?_⟩
    rw [served_address]
    rcases served_write _ _ _ _ written with probing | ⟨level, level_write⟩
    · rw [probing]
      rfl
    · rw [level_write]
      rfl
  case others =>
    intro pin inWord apart
    rw [direction, directed_bit _ _ _ _ inWord, decide_eq_false apart, Bool.not_false,
      Bool.and_true]
  case output =>
    have small : (configured prior base node).bit.toNat < 32 := names.bit
    rw [direction, directed_bit _ _ _ _ small, decide_eq_true rfl, Bool.not_true, Bool.and_false]
  case single =>
    intro write written level pin inWord
    rcases served_write _ _ _ _ written with probing | ⟨value, level_write⟩
    · rw [probing] at level
      exact absurd rfl level
    · rw [level_write]
      exact one_shift_bit inWord
  case levels =>
    intro levels pin inWord apart
    apply levels_kept _ _ _ _ inWord
    intro write written
    rcases served_write _ _ _ _ written with probing | ⟨level, level_write⟩
    · rw [probing]
      exact ⟨direction_lands _ _ _ _ (address_apart base names.setApart) pin,
        direction_lands _ _ _ _ (address_apart base names.clrApart) pin⟩
    · rw [level_write]
      exact level_misses names level inWord apart

end Sufficient

section Necessary

variable {prior : Led} {base : Nat} {node : Node}

def allOnes : Memory := fun _ => BitVec.allOnes 8

theorem all_ones_bit {address pin : Nat} (inWord : pin < 32) :
    (ioread32 allOnes address).getLsbD pin = true := by
  have split : 8 * (pin / 8) + pin % 8 = pin := by omega
  have small : pin % 8 < 8 := Nat.mod_lt _ (by decide)
  rw [← split, ioread32_bit (by omega) small, allOnes, BitVec.getLsbD_allOnes]
  exact decide_eq_true small

/-- A level that is written on top of the output-enable register turns other pins around. -/
theorem level_apart (own : ∀ memory operations, OwnPin prior base node memory operations)
    (level : Bool) :
    Apart (addressOf (configured prior base node) (levelWrite (configured prior base node) level))
      (oeAddress prior base node) := by
  by_contra overlap
  have others := (own allOnes [.setLedState level]).others
  rw [memory_after_eq] at others
  obtain ⟨pin, inWord, apart, cleared⟩ := @one_shift_shared
    (iowrite32 (directed prior base node allOnes) (oeAddress prior base node) allOnes) _ _ overlap
    (configured prior base node).bit.toNat
  have kept := (others pin inWord apart).trans (all_ones_bit inWord)
  exact absurd (cleared.symm.trans kept) (by decide)

theorem offsets_apart (own : ∀ memory operations, OwnPin prior base node memory operations)
    (level : Bool) :
    Apart (offsetOf (configured prior base node) (if level then .set else .clr)).toNat
      (node.oe.getD prior.oe).toNat := by
  have apart : Apart
      (base + (offsetOf (configured prior base node) (if level then .set else .clr)).toNat)
      (base + (node.oe.getD prior.oe).toNat) := level_apart own level
  unfold Apart at apart ⊢
  omega

theorem named_of_written (own : ∀ memory operations, OwnPin prior base node memory operations)
    {operations : List Operation} {write : RegWrite} (own_base : write.base = some base)
    (written : write ∈ (served prior base node allOnes operations).writes) :
    offsetOf (configured prior base node) write.reg ∈ offsets node := by
  obtain ⟨offset, member, address⟩ := (own allOnes operations).named write written
  rw [served_address, addressOf, own_base, Option.getD_some] at address
  have same : offsetOf (configured prior base node) write.reg = offset :=
    BitVec.eq_of_toNat_eq (Nat.add_left_cancel address)
  rw [same]
  exact member

theorem level_named (own : ∀ memory operations, OwnPin prior base node memory operations)
    (level : Bool) :
    offsetOf (configured prior base node) (if level then .set else .clr) ∈ offsets node := by
  have written : levelWrite (configured prior base node) level ∈
      (served prior base node allOnes [.setLedState level]).writes := by
    rw [(served_effect prior base node allOnes _).2]
    exact List.mem_cons_of_mem _ (List.mem_singleton.mpr rfl)
  exact named_of_written own rfl written

theorem not_apart_self (address : Nat) : ¬Apart address address := by
  unfold Apart
  omega

/-- Where a property is missing and the value left for it is named all the same, the other one
of the two levels names it: the output-enable register is apart. -/
theorem present_or_shared {wanted other oe : Option (BitVec 32)} {left direction : BitVec 32}
    (apart : Apart (wanted.getD left).toNat (oe.getD direction).toNat)
    (named : wanted = some (wanted.getD left) ∨ other = some (wanted.getD left) ∨
      oe = some (wanted.getD left)) :
    wanted.isSome = true ∨ other = some left := by
  cases wanted with
  | some offset => exact Or.inl rfl
  | none =>
      rcases named with impossible | shared | same
      · cases impossible
      · exact Or.inr shared
      · rw [same] at apart
        exact absurd apart (not_apart_self _)

/-- A level whose bit comes to stand in the other register moves the level of another pin. -/
theorem levels_beside (own : ∀ memory operations, OwnPin prior base node memory operations)
    (setApart : Apart (configured prior base node).set.toNat (configured prior base node).oe.toNat)
    (clrApart : Apart (configured prior base node).clr.toNat (configured prior base node).oe.toNat)
    (differ : (configured prior base node).set ≠ (configured prior base node).clr) :
    Beside (configured prior base node).bit (configured prior base node).set
        (configured prior base node).clr ∧
      Beside (configured prior base node).bit (configured prior base node).clr
        (configured prior base node).set := by
  have small : (configured prior base node).bit.toNat < 32 :=
    (own allOnes []).shifts [] List.nil_prefix
  have apart : (configured prior base node).set.toNat ≠ (configured prior base node).clr.toNat :=
    fun same => differ (BitVec.eq_of_toNat_eq same)
  constructor
  · by_contra inside
    unfold Beside at inside
    let pin := 8 * ((configured prior base node).set.toNat +
        (configured prior base node).bit.toNat / 8 - (configured prior base node).clr.toNat) +
      (configured prior base node).bit.toNat % 8
    have inWord : pin < 32 := by omega
    have kept := (own allOnes [.setLedState true]).levels (BitVec.allOnes 32) pin inWord (by omega)
    rw [one_setting_bit _ _ _ _ setApart clrApart _ _ inWord, level_lands _ _ _ small inWord,
      level_lands _ _ _ small inWord, BitVec.getLsbD_allOnes, decide_eq_true inWord, Bool.true_or,
      Bool.true_and, if_pos rfl, setAddress, clrAddress] at kept
    simp only [Bool.not_eq_true', decide_eq_false_iff_not] at kept
    omega
  · by_contra inside
    unfold Beside at inside
    let pin := 8 * ((configured prior base node).clr.toNat +
        (configured prior base node).bit.toNat / 8 - (configured prior base node).set.toNat) +
      (configured prior base node).bit.toNat % 8
    have inWord : pin < 32 := by omega
    have kept := (own allOnes [.setLedState false]).levels 0 pin inWord (by omega)
    rw [one_setting_bit _ _ _ _ setApart clrApart _ _ inWord, level_lands _ _ _ small inWord,
      level_lands _ _ _ small inWord, if_neg Bool.false_ne_true, setAddress, clrAddress] at kept
    simp only [BitVec.ofNat_eq_ofNat, BitVec.getLsbD_zero, Bool.false_or, Bool.and_eq_false_imp,
      decide_eq_true_eq, Bool.not_eq_false', and_imp] at kept
    omega

theorem names_of_own_pin (own : ∀ memory operations, OwnPin prior base node memory operations) :
    NamesOwnPin prior node := by
  have setApart : Apart (node.set.getD prior.set).toNat (node.oe.getD prior.oe).toNat :=
    offsets_apart own true
  have clrApart : Apart (node.clr.getD prior.clr).toNat (node.oe.getD prior.oe).toNat :=
    offsets_apart own false
  have probing : (⟨some base, .oe, directed prior base node allOnes⟩ : RegWrite) ∈
      (served prior base node allOnes []).writes := by
    rw [(served_effect prior base node allOnes []).2]
    exact List.mem_cons_self
  have oeNamed : node.oe.getD prior.oe ∈ offsets node := named_of_written own rfl probing
  have setNamed : node.set.getD prior.set ∈ offsets node := level_named own true
  have clrNamed : node.clr.getD prior.clr ∈ offsets node := level_named own false
  have oe : node.oe.isSome = true := by
    rcases mem_offsets.mp oeNamed with same | same | same
    · rw [same] at setApart
      exact absurd setApart (not_apart_self _)
    · rw [same] at clrApart
      exact absurd clrApart (not_apart_self _)
    · rw [same]
      rfl
  have set : node.set.isSome = true ∨ node.clr = some prior.set :=
    present_or_shared setApart (mem_offsets.mp setNamed)
  have clr : node.clr.isSome = true ∨ node.set = some prior.clr :=
    present_or_shared clrApart (or_left_comm.mp (mem_offsets.mp clrNamed))
  have beside : node.set.getD prior.set = node.clr.getD prior.clr ∨
      Beside (node.bit.getD prior.bit) (node.set.getD prior.set) (node.clr.getD prior.clr) ∧
        Beside (node.bit.getD prior.bit) (node.clr.getD prior.clr) (node.set.getD prior.set) := by
    by_cases same : node.set.getD prior.set = node.clr.getD prior.clr
    · exact Or.inl same
    · exact Or.inr (levels_beside own setApart clrApart same)
  exact ⟨(own allOnes []).shifts [] List.nil_prefix, oe, set, clr, setApart, clrApart, beside⟩

end Necessary

end LinuxFff.LedPin
