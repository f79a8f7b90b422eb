import LinuxFff.CString

/-!
# Character arrays on the stack

A `char` array of fixed size and the bytes behind it. A string function that
finds no terminator in the array goes on into what lies behind, and a store at
an index past the end changes that. Filling an array from a connection replaces
its first bytes and leaves the others as they were.
-/

namespace LinuxFff.StackArray

open LinuxFff.CString

set_option autoImplicit false

structure CharArray (size : Nat) where
  array : Bytes
  behind : Bytes
  length_eq : array.length = size

namespace CharArray

variable {size : Nat}

def text (field : CharArray size) : Bytes := cstr (field.array ++ field.behind)

def terminated (field : CharArray size) : Bool := (0 : Byte) ∈ field.array

def zeroed (size : Nat) (behind : Bytes) : CharArray size where
  array := List.replicate size 0
  behind := behind
  length_eq := List.length_replicate

def fill (field : CharArray size) (piece : Bytes) : CharArray size where
  array := piece.take size ++ field.array.drop piece.length
  behind := field.behind
  length_eq := by
    rw [List.length_append, List.length_take, List.length_drop, field.length_eq]
    omega

/-- `strcspn (array, "\n")`. -/
def lineEnd (field : CharArray size) : Nat :=
  ((field.array ++ field.behind).takeWhile fun byte => byte != 0 && byte != newline).length

def endsLine (field : CharArray size) : Bool :=
  (0 : Byte) ∈ field.array ∨ newline ∈ field.array

/-- `array[index] = byte`; past the end it goes to what lies behind. -/
def put (field : CharArray size) (index : Nat) (byte : Byte) : CharArray size where
  array := field.array.set index byte
  behind := if index < size then field.behind else field.behind.set (index - size) byte
  length_eq := by rw [List.length_set, field.length_eq]

/-- `array[strcspn (array, "\n")] = 0`. -/
def cut (field : CharArray size) : CharArray size where
  array := field.array.set field.lineEnd 0
  behind :=
    if field.lineEnd < size then field.behind else field.behind.set (field.lineEnd - size) 0
  length_eq := by rw [List.length_set, field.length_eq]

variable {field : CharArray size} {body piece : Bytes}

theorem text_of_prefix {rest : Bytes} (shape : field.array = body ++ 0 :: rest) :
    field.text = cstr body ∧ field.terminated = true := by
  constructor
  · rw [text, shape, List.append_assoc, List.cons_append, cstr_stops]
  · simp [terminated, shape]

theorem text_length_lt_iff : field.text.length < size ↔ field.terminated = true := by
  unfold text terminated
  rw [decide_eq_true_eq]
  constructor
  case mp =>
    intro short
    by_contra absent
    have whole : cstr (field.array ++ field.behind) = field.array ++ cstr field.behind := by
      unfold cstr
      apply List.takeWhile_append_of_pos
      intro byte member
      have nonzero : byte ≠ 0 := fun same => absent (same ▸ member)
      simpa using nonzero
    rw [whole, List.length_append, field.length_eq] at short
    omega
  case mpr =>
    intro member
    obtain ⟨front, rest, split⟩ := List.append_of_mem member
    have shorter : (cstr front).length ≤ front.length :=
      (List.takeWhile_prefix _).length_le
    have count := field.length_eq
    rw [split, List.length_append, List.length_cons] at count
    rw [split, List.append_assoc, List.cons_append, cstr_stops]
    omega

theorem fill_array (short : piece.length ≤ size) :
    (field.fill piece).array = piece ++ field.array.drop piece.length := by
  change piece.take size ++ field.array.drop piece.length = _
  rw [List.take_of_length_le short]

theorem fill_terminated (room : body.length < size) :
    (field.fill (body ++ [0])).text = cstr body ∧ (field.fill (body ++ [0])).terminated = true := by
  apply text_of_prefix
  rw [fill_array (by rw [List.length_append, List.length_singleton]; omega), List.append_assoc]
  rfl

theorem fill_string (noNul : (0 : Byte) ∉ body) (room : body.length < size) :
    (field.fill (body ++ [0])).text = body ∧ (field.fill (body ++ [0])).terminated = true := by
  have filled := @fill_terminated _ field _ room
  rwa [cstr_of_no_nul noNul] at filled

theorem zeroed_fill {behind : Bytes} (noNul : (0 : Byte) ∉ body) (room : body.length < size) :
    ((zeroed size behind).fill body).text = body ∧
      ((zeroed size behind).fill body).terminated = true := by
  obtain ⟨more, left⟩ : ∃ more, size - body.length = more + 1 :=
    ⟨size - body.length - 1, by omega⟩
  have filled : ((zeroed size behind).fill body).array = body ++ 0 :: List.replicate more 0 := by
    rw [fill_array (by omega), zeroed, List.drop_replicate, left, List.replicate_succ]
  have ends := text_of_prefix filled
  rwa [cstr_of_no_nul noNul] at ends

theorem line_end_at_newline {rest : Bytes} (noNul : (0 : Byte) ∉ body)
    (noNewline : newline ∉ body) (shape : field.array = body ++ newline :: rest) :
    field.lineEnd = body.length := by
  unfold lineEnd
  rw [shape, List.append_assoc, List.takeWhile_append_of_pos]
  · simp [newline]
  · intro byte member
    have nonzero : byte ≠ 0 := fun same => noNul (same ▸ member)
    have ordinary : byte ≠ newline := fun same => noNewline (same ▸ member)
    simpa using And.intro nonzero ordinary

theorem cut_line (noNul : (0 : Byte) ∉ body) (noNewline : newline ∉ body)
    (room : body.length < size) :
    (field.fill (body ++ [newline])).endsLine = true ∧
      (field.fill (body ++ [newline])).cut.text = body ∧
      (field.fill (body ++ [newline])).cut.terminated = true := by
  have filled : (field.fill (body ++ [newline])).array =
      body ++ newline :: field.array.drop (body.length + 1) := by
    rw [fill_array (by rw [List.length_append, List.length_singleton]; omega), List.append_assoc]
    simp
  have stored : (field.fill (body ++ [newline])).cut.array =
      body ++ 0 :: field.array.drop (body.length + 1) := by
    change (field.fill (body ++ [newline])).array.set _ 0 = _
    rw [line_end_at_newline noNul noNewline filled, filled]
    simp
  have ends := text_of_prefix stored
  rw [cstr_of_no_nul noNul] at ends
  exact ⟨by simp [endsLine, filled], ends⟩

end CharArray

/-- What one read of so many bytes can deliver. -/
structure Chunk (size : Nat) where
  bytes : Bytes
  positive : 0 < bytes.length
  room : bytes.length ≤ size

namespace CharArray

variable {size : Nat}

/-- A read into the array, and `array[len] = 0` behind it. -/
def receive (field : CharArray size) (chunk : Chunk size) : CharArray size :=
  (field.fill chunk.bytes).put chunk.bytes.length 0

/-- The string is what was received, also where the terminator went past the end. -/
theorem receive_text (field : CharArray size) (chunk : Chunk size) :
    (field.receive chunk).text = cstr chunk.bytes := by
  change cstr ((field.fill chunk.bytes).array.set chunk.bytes.length 0 ++ ite _ _ _) = _
  rw [fill_array chunk.room]
  by_cases inside : chunk.bytes.length < size
  case pos =>
    obtain ⟨old, rest, shape⟩ : ∃ old rest, field.array.drop chunk.bytes.length = old :: rest := by
      cases shape : field.array.drop chunk.bytes.length with
      | nil =>
          have lengths := congrArg List.length shape
          rw [List.length_drop, field.length_eq, List.length_nil] at lengths
          omega
      | cons old rest => exact ⟨old, rest, rfl⟩
    rw [shape, List.set_append_right _ _ (Nat.le_refl _), Nat.sub_self, List.set_cons_zero,
      List.append_assoc, List.cons_append, cstr_stops]
  case neg =>
    have full : chunk.bytes.length = size := Nat.le_antisymm chunk.room (Nat.le_of_not_lt inside)
    have nothing : field.array.drop chunk.bytes.length = [] :=
      List.drop_eq_nil_of_le (field.length_eq.trans full.symm).le
    have start : chunk.bytes.length - size = 0 := by
      rw [full, Nat.sub_self]
    rw [if_neg inside, nothing, List.append_nil, List.set_eq_of_length_le (Nat.le_refl _), start]
    change cstr (chunk.bytes ++ field.behind.set 0 0) = _
    cases field.behind with
    | nil => rw [List.set_nil, List.append_nil]
    | cons byte behind => rw [List.set_cons_zero, cstr_stops]

/-- The terminator is inside exactly behind a chunk that leaves room for it. -/
theorem receive_terminated {field : CharArray size} {chunk : Chunk size}
    (inside : chunk.bytes.length < size) : (field.receive chunk).terminated = true := by
  rw [← text_length_lt_iff, receive_text]
  exact Nat.lt_of_le_of_lt (List.takeWhile_prefix _).length_le inside

end CharArray

end LinuxFff.StackArray
