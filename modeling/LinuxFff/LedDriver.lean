import LinuxFff.KernelMemory

/-!
# The LED driver `ledledled.c` and the button handler of `bububutton.c`

A register write is recorded with the base address it uses, the register that
the device-tree node names and the value. All setting paths write the set or
the clear register first and store `led.state` second, so each of them is
`driveLevel` followed by `storeState`. Creating the character device is not
part of this module.
-/

namespace LinuxFff.LedDriver

open LinuxFff.CString LinuxFff.KernelMemory

set_option autoImplicit false

inductive Reg where
  | set
  | clr
  | oe
  deriving DecidableEq

structure RegWrite where
  base : Option Nat
  reg : Reg
  value : BitVec 32
  deriving DecidableEq

structure Led where
  base : Option Nat
  set : BitVec 32
  clr : BitVec 32
  oe : BitVec 32
  bit : BitVec 32
  state : Bool

def Led.mask (led : Led) : BitVec 32 := 1#32 <<< led.bit.toNat

structure Driver where
  led : Led
  writes : List RegWrite

def Driver.iowrite32 (driver : Driver) (value : BitVec 32) (reg : Reg) : Driver :=
  { driver with writes := driver.writes ++ [⟨driver.led.base, reg, value⟩] }

def Driver.driveLevel (driver : Driver) (level : Bool) : Driver :=
  if level then driver.iowrite32 driver.led.mask .set
  else driver.iowrite32 driver.led.mask .clr

def Driver.storeState (driver : Driver) (level : Bool) : Driver :=
  { driver with led := { driver.led with state := level } }

def setLedState (a : Bool) (driver : Driver) : Driver :=
  (driver.driveLevel a).storeState a

/-- `_IOW(99, 0, int)` and `_IOR(99, 1, int)`. -/
def ledIoctlSetCmd : BitVec 32 := 0x40046300
def ledIoctlGetCmd : BitVec 32 := 0x80046301

/-- `led_ioctl`: the value in user memory is `none` when it cannot be copied.
The result is the return value, the value stored for the caller and the driver. -/
def ledIoctl (cmd : BitVec 32) (user : Option Int) (copyOut : Bool) (driver : Driver) :
    Int × Option Int × Driver :=
  if cmd = ledIoctlSetCmd then
    match user with
    | none => (efault, none, driver)
    | some val =>
        if val ≠ 0 then (0, none, (driver.driveLevel true).storeState true)
        else (0, none, (driver.driveLevel false).storeState false)
  else if cmd = ledIoctlGetCmd then
    if copyOut then (0, some (if driver.led.state then 1 else 0), driver)
    else (efault, none, driver)
  else (einval, none, driver)

def charZero : Byte := 48
def charOne : Byte := 49

/-- `led_read`: the return value, the byte delivered and the new offset. -/
def ledRead (offset : Int) (copyOut : Bool) (driver : Driver) : Int × Option Byte × Int :=
  let c := if driver.led.state then charOne else charZero
  if offset > 0 then (0, none, offset)
  else if copyOut then (1, some c, 1)
  else (efault, none, 1)

/-- `led_write`, which copies one byte of the caller's buffer of `len` bytes. -/
def ledWrite (first : Option Byte) (len : Nat) (driver : Driver) : Int × Driver :=
  match first with
  | none => (efault, driver)
  | some c =>
      if c = charOne then (len, (driver.driveLevel true).storeState true)
      else if c = charZero then (len, (driver.driveLevel false).storeState false)
      else (len, driver)

/-- The properties of the device-tree node; a missing one is not stored. -/
structure Node where
  bit : Option (BitVec 32)
  set : Option (BitVec 32)
  clr : Option (BitVec 32)
  oe : Option (BitVec 32)

/-- `led_probe` up to the output-enable register, which it reads as `oeValue`:
the pin becomes an output, and neither the level nor `led.state` is touched. -/
def ledProbe (mapped : Option Nat) (node : Node) (oeValue : BitVec 32) (driver : Driver) :
    Int × Driver :=
  match mapped with
  | none => (enomem, { driver with led := { driver.led with base := none } })
  | some base =>
      let led := { driver.led with
        base := some base
        bit := node.bit.getD driver.led.bit
        set := node.set.getD driver.led.set
        clr := node.clr.getD driver.led.clr
        oe := node.oe.getD driver.led.oe }
      (0, ({ driver with led } : Driver).iowrite32 (oeValue &&& ~~~led.mask) .oe)

/-- The module's static data before the first probe. -/
def ledAtLoad : Driver :=
  { led := { base := none, set := 0, clr := 0, oe := 0, bit := 0, state := false }
    writes := [] }

/-- `button_data`, as far as the handler uses it. -/
structure Button where
  ledState : Bool
  deriving DecidableEq

def buttonIrqHandler (button : Button) (driver : Driver) : Button × Driver :=
  let toggled := !button.ledState
  ({ button with ledState := toggled }, setLedState toggled driver)

/-- The level that a register write gives the output latch of the LED's pin. -/
def latchAfter (led : Led) (latch : Bool) (write : RegWrite) : Bool :=
  match write.reg with
  | .set => if write.value = led.mask then true else latch
  | .clr => if write.value = led.mask then false else latch
  | .oe => latch

def latchLevel (led : Led) (start : Bool) (writes : List RegWrite) : Bool :=
  writes.foldl (latchAfter led) start

@[simp] theorem drive_level_led (driver : Driver) (level : Bool) :
    (driver.driveLevel level).led = driver.led := by
  unfold Driver.driveLevel
  split_ifs <;> rfl

theorem drive_level_latch (driver : Driver) (start level : Bool) :
    latchLevel driver.led start (driver.driveLevel level).writes = level := by
  unfold Driver.driveLevel Driver.iowrite32 latchLevel
  cases level <;> simp [List.foldl_append, latchAfter]

theorem latch_level_store (driver : Driver) (start level : Bool) :
    latchLevel (driver.storeState level).led start (driver.storeState level).writes =
      latchLevel driver.led start driver.writes := rfl

/-- Every setting path is one drive and one store of one level. -/
theorem led_ioctl_set (val : Int) (copyOut : Bool) (driver : Driver) :
    ledIoctl ledIoctlSetCmd (some val) copyOut driver =
      (0, none, setLedState (val ≠ 0) driver) := by
  unfold ledIoctl setLedState
  rw [if_pos rfl]
  by_cases zero : val = 0
  · simp [zero]
  · simp [zero]

def writtenLevel (c : Byte) : Option Bool :=
  if c = charOne then some true else if c = charZero then some false else none

def setGivenLevel (level : Option Bool) (driver : Driver) : Driver :=
  match level with
  | some level => setLedState level driver
  | none => driver

theorem led_write_first (c : Byte) (len : Nat) (driver : Driver) :
    ledWrite (some c) len driver = ((len : Int), setGivenLevel (writtenLevel c) driver) := by
  unfold ledWrite writtenLevel setGivenLevel setLedState
  by_cases one : c = charOne
  · simp [one]
  · by_cases zero : c = charZero
    · simp [zero, show ¬charZero = charOne by decide]
    · simp [one, zero]

end LinuxFff.LedDriver
