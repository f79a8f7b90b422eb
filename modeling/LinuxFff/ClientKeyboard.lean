import LinuxFff.HandshakeFraming

/-!
# What `client.c` makes of the keyboard

`client.c` reads the mode as a number and the username and the password with one `fgets` each,
takes the newline off with `strcspn`, and sends the arrays as they are, with whatever lay behind
the terminator. An `int` goes over the wire as its four bytes, the lowest one first.
-/

namespace LinuxFff.ClientKeyboard

open LinuxFff.CString LinuxFff.HandshakeFraming

set_option autoImplicit false

def intBytes (value : BitVec 32) : Bytes :=
  [⟨value.extractLsb' 0 8⟩, ⟨value.extractLsb' 8 8⟩, ⟨value.extractLsb' 16 8⟩,
    ⟨value.extractLsb' 24 8⟩]

def intOf (bytes : Bytes) : BitVec 32 :=
  match bytes with
  | [first, second, third, fourth] =>
      fourth.toBitVec ++ third.toBitVec ++ second.toBitVec ++ first.toBitVec
  | _ => 0

/-- `strcspn (array, "\n")`. -/
def strcspn (array : Bytes) : Nat := ((cstr array).takeWhile (· != newline)).length

/-- `fgets (array, sizeof(array), stdin)`, which stores nothing at the end of the input. -/
def fgetsField (array stdin : Bytes) : Bytes :=
  match (fgets (array.length - 1) stdin).1 with
  | [] => array
  | byte :: chunk => overwrite array ((byte :: chunk) ++ [0])

/-- The array after `array[strcspn (array, "\n")] = 0`, and what is left of the input. -/
def readField (array stdin : Bytes) : Bytes × Bytes :=
  let filled := fgetsField array stdin
  (filled.set (strcspn filled) 0, (fgets (array.length - 1) stdin).2)

/-- A line that fits into an array of 50 bytes with its newline and the terminator. -/
structure Entry where
  text : Bytes
  noNewline : newline ∉ text
  noNul : (0 : Byte) ∉ text
  short : text.length ≤ 48

structure Keyboard where
  mode : BitVec 32
  username : Entry
  password : Entry
  chat : Bytes

/-- The input after the number and its newline. -/
def Keyboard.stdin (keys : Keyboard) : Bytes :=
  keys.username.text ++ newline :: (keys.password.text ++ newline :: keys.chat)

/-- `char username[50], password[50]` before anything is stored in them. -/
structure Arrays where
  username : Bytes
  password : Bytes
  usernameSize : username.length = 50
  passwordSize : password.length = 50

theorem int_of_bytes (value : BitVec 32) : intOf (intBytes value) = value := by
  have high : value.extractLsb' 24 8 ++ value.extractLsb' 16 8 = value.extractLsb' 16 16 :=
    BitVec.extractLsb'_append_extractLsb'_eq_extractLsb' rfl
  have middle : value.extractLsb' 16 16 ++ value.extractLsb' 8 8 = value.extractLsb' 8 24 :=
    BitVec.extractLsb'_append_extractLsb'_eq_extractLsb' rfl
  have low : value.extractLsb' 8 24 ++ value.extractLsb' 0 8 = value.extractLsb' 0 32 :=
    BitVec.extractLsb'_append_extractLsb'_eq_extractLsb' rfl
  change value.extractLsb' 24 8 ++ value.extractLsb' 16 8 ++ value.extractLsb' 8 8 ++
    value.extractLsb' 0 8 = value
  rw [high, middle, low]
  exact BitVec.extractLsb'_eq_self

section Field

variable {array : Bytes} (size : array.length = 50) (entry : Entry) (rest : Bytes)

include size

theorem fgets_field_line :
    fgetsField array (entry.text ++ newline :: rest) =
      entry.text ++ newline :: 0 :: array.drop (entry.text.length + 2) := by
  have short := entry.short
  have read : fgets (array.length - 1) (entry.text ++ newline :: rest) =
      (entry.text ++ [newline], rest) :=
    fgets_line _ entry.text rest entry.noNewline (by omega)
  have stored : overwrite array (entry.text ++ [newline] ++ [0]) =
      entry.text ++ newline :: 0 :: array.drop (entry.text.length + 2) := by
    simp [overwrite]
  unfold fgetsField
  rw [read]
  cases shape : entry.text ++ [newline] with
  | nil => simp at shape
  | cons byte chunk =>
      simp only
      rw [← shape, stored]

theorem read_field_line :
    readField array (entry.text ++ newline :: rest) =
      (entry.text ++ 0 :: 0 :: array.drop (entry.text.length + 2), rest) := by
  have short := entry.short
  have filled := fgets_field_line size entry rest
  have left : (fgets (array.length - 1) (entry.text ++ newline :: rest)).2 = rest := by
    rw [fgets_line _ entry.text rest entry.noNewline (by omega)]
  have noNul : (0 : Byte) ∉ entry.text ++ [newline] := by
    rw [List.mem_append, not_or]
    exact ⟨entry.noNul, by decide⟩
  have string : cstr (entry.text ++ newline :: 0 :: array.drop (entry.text.length + 2)) =
      entry.text ++ [newline] := by
    have split := cstr_stops (entry.text ++ [newline]) (array.drop (entry.text.length + 2))
    rw [cstr_of_no_nul noNul, List.append_assoc] at split
    exact split
  have upTo : (entry.text ++ [newline]).takeWhile (· != newline) = entry.text := by
    rw [List.takeWhile_append_of_pos]
    · simp
    · intro byte member
      have different : byte ≠ newline := fun same => entry.noNewline (same ▸ member)
      simpa using different
  have index : strcspn (entry.text ++ newline :: 0 :: array.drop (entry.text.length + 2)) =
      entry.text.length := by
    rw [strcspn, string, upTo]
  unfold readField
  simp only [filled, left, index]
  rw [List.set_append_right _ _ (Nat.le_refl _), Nat.sub_self]
  rfl

end Field

/-- What one `fgets` leaves is sent as a field that holds the line. -/
def readEntry (array : Bytes) (size : array.length = 50) (entry : Entry) (rest : Bytes) : Field where
  array := (readField array (entry.text ++ newline :: rest)).1
  size := by
    have short := entry.short
    rw [read_field_line size]
    simp only [List.length_append, List.length_cons, List.length_drop, size]
    omega
  terminated := by
    rw [read_field_line size]
    simp

theorem read_entry_string (array : Bytes) (size : array.length = 50) (entry : Entry)
    (rest : Bytes) : cstr (readEntry array size entry rest).array = entry.text := by
  change cstr (readField array (entry.text ++ newline :: rest)).1 = entry.text
  rw [read_field_line size, cstr_stops, cstr_of_no_nul entry.noNul]

/-- The three `send` calls of `client.c`. -/
def hello (keys : Keyboard) (arrays : Arrays) : Hello where
  mode := intBytes keys.mode
  modeSize := rfl
  username := readEntry arrays.username arrays.usernameSize keys.username
    (keys.password.text ++ newline :: keys.chat)
  password := readEntry arrays.password arrays.passwordSize keys.password keys.chat

/-- The arrays are those that the two `fgets` calls leave, and the chat loop goes on with what is
typed after the password. -/
theorem hello_reads_stdin (keys : Keyboard) (arrays : Arrays) :
    ∃ left, readField arrays.username keys.stdin = ((hello keys arrays).username.array, left) ∧
      readField arrays.password left = ((hello keys arrays).password.array, keys.chat) := by
  have username := congrArg Prod.snd (read_field_line arrays.usernameSize keys.username
    (keys.password.text ++ newline :: keys.chat))
  have password := congrArg Prod.snd
    (read_field_line arrays.passwordSize keys.password keys.chat)
  refine ⟨keys.password.text ++ newline :: keys.chat, ?_, ?_⟩
  · apply Prod.ext
    · rfl
    · exact username
  · apply Prod.ext
    · rfl
    · exact password

end LinuxFff.ClientKeyboard
