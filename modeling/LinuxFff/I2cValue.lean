import LinuxFff.KernelMemory
import LinuxFff.StackArray
import Mathlib.Tactic.IntervalCases

/-!
# The value device of `i2c_test.c`

The sender thread counts through the numbers below eight and keeps the one that
was sent last. `i2c_read` formats it into four bytes and copies the text without
looking at `count`; the offset then says that the text has been read. A copy to
user space stores what the caller's memory takes.
-/

namespace LinuxFff.I2cValue

open LinuxFff.CString LinuxFff.KernelMemory LinuxFff.StackArray

set_option autoImplicit false

/-- `%d`. -/
def decimal (value : Int) : Bytes :=
  (if value < 0 then [45] else []) ++
    (Nat.toDigits 10 value.natAbs).map fun digit => UInt8.ofNat digit.toNat

/-- `value` of the thread, and `last_sent_value`. -/
structure Sender where
  value : UInt8
  lastSent : Int
  deriving DecidableEq

def loaded : Sender := ⟨0, 0⟩

/-- One round of `sender_thread_fn`, with what `i2c_transfer` said. -/
def Sender.round (sender : Sender) (transferred : Bool) : Sender where
  value := UInt8.ofNat ((sender.value.toNat + 1) % 8)
  lastSent := if transferred then sender.value.toNat else sender.lastSent

/-- `writable` is the number of bytes that can be stored from `buf` on. -/
structure Request where
  count : Nat
  writable : Nat
  kbuf : CharArray 4

/-- What a call has asked for, what it returned and what it stored. -/
structure Answer where
  count : Nat
  ret : Int
  stored : Bytes
  deriving DecidableEq

def valueText (lastSent : Int) : Bytes := decimal lastSent ++ [newline]

/-- `copy_to_user (buf, kbuf, len)` reads from the array on. -/
def i2cRead (lastSent : Int) (request : Request) (ppos : Int) : Answer × Int :=
  if 0 < ppos then (⟨request.count, 0, []⟩, ppos)
  else
    let len := (valueText lastSent).length
    let kbuf := request.kbuf.fill (snprintf 4 (valueText lastSent) ++ [0])
    let stored := ((kbuf.array ++ kbuf.behind).take len).take request.writable
    if request.writable < len then (⟨request.count, efault, stored⟩, ppos)
    else (⟨request.count, len, stored⟩, len)

inductive Event where
  | sent (transferred : Bool)
  | read (request : Request)

/-- The reads of one open file, each with its answer. -/
def serve : Sender → Int → List Event → List Answer
  | _, _, [] => []
  | sender, ppos, .sent transferred :: rest => serve (sender.round transferred) ppos rest
  | sender, ppos, .read request :: rest =>
      (i2cRead sender.lastSent request ppos).1 ::
        serve sender (i2cRead sender.lastSent request ppos).2 rest

/-- The values that the variable holds meanwhile. -/
def valuesHeld : Sender → List Event → List Int
  | sender, [] => [sender.lastSent]
  | sender, .sent transferred :: rest =>
      sender.lastSent :: valuesHeld (sender.round transferred) rest
  | sender, .read _ :: rest => valuesHeld sender rest

def Answer.returned (answer : Answer) : Bytes := answer.stored.take answer.ret.toNat

/-- The contract of `read`: a call stores and returns at most `count` bytes, and
the bytes returned up to the first 0 are the text of one value. -/
structure KeepsContract (values : List Int) (answers : List Answer) : Prop where
  within : ∀ answer ∈ answers, answer.stored.length ≤ answer.count ∧ answer.ret ≤ answer.count
  oneText : (∀ answer ∈ answers, 0 < answer.count) →
    ∀ earlier last later, answers = earlier ++ last :: later → last.ret = 0 →
      (∀ answer ∈ earlier, answer.ret ≠ 0) →
      ∃ value ∈ values, (earlier.map Answer.returned).flatten = valueText value

/-- Every read up to the first one that delivers the two bytes asks for as many
as it is given. -/
def CountsFit : List Event → Prop
  | [] => True
  | .sent _ :: rest => CountsFit rest
  | .read request :: rest =>
      min 2 request.writable ≤ request.count ∧ (request.writable < 2 → CountsFit rest)

structure Sound (sender : Sender) : Prop where
  counting : sender.value.toNat < 8
  digit : ∃ digit : Nat, digit < 8 ∧ sender.lastSent = digit

theorem loaded_sound : Sound loaded := ⟨by decide, 0, by decide, rfl⟩

section Sending

variable {sender : Sender}

theorem sound_round (sound : Sound sender) (transferred : Bool) :
    Sound (sender.round transferred) where
  counting := by
    have small : (sender.value.toNat + 1) % 8 < 8 := Nat.mod_lt _ (by decide)
    change (UInt8.ofNat ((sender.value.toNat + 1) % 8)).toNat < 8
    rw [UInt8.toNat_ofNat_of_lt' (Nat.lt_trans small (by decide))]
    exact small
  digit := by
    cases transferred with
    | true => exact ⟨sender.value.toNat, sound.counting, rfl⟩
    | false => exact sound.digit

theorem sound_rounds (sound : Sound sender) (before : List Bool) :
    Sound (before.foldl Sender.round sender) := by
  induction before generalizing sender with
  | nil => exact sound
  | cons transferred rest ih => exact ih (sound_round sound transferred)

theorem value_text_length (sound : Sound sender) : (valueText sender.lastSent).length = 2 := by
  obtain ⟨digit, small, same⟩ := sound.digit
  rw [same]
  interval_cases digit <;> rfl

end Sending

section Reading

variable {sender : Sender} {request : Request}

theorem kbuf_text (sound : Sound sender) (kbuf : CharArray 4) :
    ((kbuf.fill (snprintf 4 (valueText sender.lastSent) ++ [0])).array ++
      (kbuf.fill (snprintf 4 (valueText sender.lastSent) ++ [0])).behind).take 2 =
        valueText sender.lastSent := by
  have length := value_text_length sound
  have whole : snprintf 4 (valueText sender.lastSent) = valueText sender.lastSent :=
    List.take_of_length_le (by omega)
  have short : (valueText sender.lastSent ++ [0]).length ≤ 4 := by
    rw [List.length_append, length]
    decide
  rw [whole, CharArray.fill_array short, List.append_assoc, List.append_assoc, ← length,
    List.take_left]

theorem read_faults (sound : Sound sender) (short : request.writable < 2) :
    i2cRead sender.lastSent request 0 =
      (⟨request.count, efault, (valueText sender.lastSent).take request.writable⟩, 0) := by
  simp only [i2cRead, Int.lt_irrefl, if_false, value_text_length sound, kbuf_text sound,
    if_pos short]

theorem read_delivers (sound : Sound sender) (enough : ¬request.writable < 2) :
    i2cRead sender.lastSent request 0 =
      (⟨request.count, 2, valueText sender.lastSent⟩, 2) := by
  have whole : (valueText sender.lastSent).take request.writable = valueText sender.lastSent :=
    List.take_of_length_le (by rw [value_text_length sound]; omega)
  simp only [i2cRead, Int.lt_irrefl, if_false, value_text_length sound, kbuf_text sound,
    if_neg enough, whole]
  rfl

theorem held_now (sender : Sender) (events : List Event) :
    sender.lastSent ∈ valuesHeld sender events := by
  induction events with
  | nil => exact List.mem_cons_self
  | cons event rest ih =>
      cases event with
      | sent transferred => exact List.mem_cons_self
      | read request => exact ih

theorem serve_read_out (sender : Sender) (events : List Event) :
    ∀ answer ∈ serve sender 2 events, answer.ret = 0 ∧ answer.stored = [] := by
  induction events generalizing sender with
  | nil =>
      intro answer impossible
      cases impossible
  | cons event rest ih =>
      cases event with
      | sent transferred => exact ih (sender.round transferred)
      | read request =>
          intro answer member
          rcases List.mem_cons.mp member with same | later
          · rw [same]
            exact ⟨rfl, rfl⟩
          · exact ih sender answer later

theorem within_iff (sound : Sound sender) (events : List Event) :
    (∀ answer ∈ serve sender 0 events,
      answer.stored.length ≤ answer.count ∧ answer.ret ≤ answer.count) ↔ CountsFit events := by
  induction events generalizing sender with
  | nil => exact iff_of_true (fun answer impossible => absurd impossible List.not_mem_nil) trivial
  | cons event rest ih =>
      cases event with
      | sent transferred => exact ih (sound_round sound transferred)
      | read request =>
          have length := value_text_length sound
          rw [serve, List.forall_mem_cons, CountsFit]
          by_cases short : request.writable < 2
          case pos =>
            have negative : efault ≤ request.count :=
              Int.le_trans (by decide) (Int.natCast_nonneg _)
            rw [read_faults sound short, ih sound, List.length_take, length, Nat.min_comm,
              and_iff_left negative]
            simp only [short, true_implies]
          case neg =>
            have nothing : ∀ answer ∈ serve sender 2 rest,
                answer.stored.length ≤ answer.count ∧ answer.ret ≤ answer.count := by
              intro answer member
              obtain ⟨ret, stored⟩ := serve_read_out sender rest answer member
              rw [ret, stored]
              exact ⟨Nat.zero_le _, Int.natCast_nonneg _⟩
            rw [read_delivers sound short, and_iff_left nothing, length]
            simp only [short, false_implies, and_true]
            omega

/-- However the reads are cut, the text is that of one value. -/
theorem one_text (sound : Sound sender) (events : List Event) {earlier later : List Answer}
    {last : Answer} (split : serve sender 0 events = earlier ++ last :: later)
    (ended : last.ret = 0) (before : ∀ answer ∈ earlier, answer.ret ≠ 0) :
    ∃ value ∈ valuesHeld sender events,
      (earlier.map Answer.returned).flatten = valueText value := by
  induction events generalizing sender earlier with
  | nil =>
      have nonempty := congrArg List.length split
      simp [serve] at nonempty
  | cons event rest ih =>
      cases event with
      | sent transferred =>
          obtain ⟨value, held, text⟩ := ih (sound_round sound transferred) split before
          exact ⟨value, List.mem_cons_of_mem _ held, text⟩
      | read request =>
          by_cases short : request.writable < 2
          case pos =>
            rw [serve, read_faults sound short] at split
            cases earlier with
            | nil =>
                rw [← (List.cons.inj split).1] at ended
                exact absurd ended (show efault ≠ 0 by decide)
            | cons answer earlier =>
                obtain ⟨first, remaining⟩ := List.cons.inj split
                obtain ⟨value, held, text⟩ := ih sound remaining fun other member =>
                  before other (List.mem_cons_of_mem _ member)
                refine ⟨value, held, ?_⟩
                rw [List.map_cons, List.flatten_cons, text, ← first]
                rfl
          case neg =>
            rw [serve, read_delivers sound short] at split
            cases earlier with
            | nil =>
                rw [← (List.cons.inj split).1] at ended
                exact absurd ended (show (2 : Int) ≠ 0 by decide)
            | cons answer earlier =>
                obtain ⟨first, remaining⟩ := List.cons.inj split
                have nothing : earlier = [] := by
                  apply List.eq_nil_iff_forall_not_mem.mpr
                  intro other member
                  have zero := (serve_read_out sender rest other
                    (remaining ▸ List.mem_append_left _ member)).1
                  exact before other (List.mem_cons_of_mem _ member) zero
                refine ⟨sender.lastSent, held_now sender rest, ?_⟩
                rw [nothing, ← first, List.map_singleton, List.flatten_singleton]
                exact List.take_of_length_le (Nat.le_of_eq (value_text_length sound))

end Reading

/-- The contract is kept exactly when the caller asks for at least as many bytes
as it is given. -/
theorem read_contract_iff (before : List Bool) (events : List Event) :
    KeepsContract (valuesHeld (before.foldl Sender.round loaded) events)
        (serve (before.foldl Sender.round loaded) 0 events) ↔
      CountsFit events := by
  have sound := sound_rounds loaded_sound before
  rw [← within_iff sound events]
  constructor
  case mp => exact fun kept => kept.within
  case mpr =>
    intro within
    refine ⟨within, ?_⟩
    intro _ earlier last later split ended nonzero
    exact one_text sound events split ended nonzero

def someKbuf : CharArray 4 := CharArray.zeroed 4 []

/-- A caller that asks for one byte is given two. -/
theorem one_byte_read_overruns :
    ¬KeepsContract (valuesHeld loaded [.read ⟨1, 2, someKbuf⟩])
      (serve loaded 0 [.read ⟨1, 2, someKbuf⟩]) := by
  intro kept
  have fits := (within_iff loaded_sound _).mp kept.within
  exact absurd fits.1 (by decide)

end LinuxFff.I2cValue
