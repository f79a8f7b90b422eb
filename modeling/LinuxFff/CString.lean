import Mathlib.Data.List.Basic
import Mathlib.Data.List.Flatten
import Mathlib.Data.List.Infix
import Mathlib.Data.List.TakeWhile

/-!
# Byte strings and the C library calls that read and write them

A C string is the list of its bytes before the terminating NUL. `fgets` splits
a stream into the buffers that successive calls fill, `scanWord` is one `%s`
conversion of `sscanf`, and `snprintf` keeps what fits before the terminator.
`replayWrites` is the loop that reads a log line by line and writes each string;
without NUL bytes in the log, the writes make up the whole file.
Locale is "C": white space is blank, tab, newline, vertical tab, form feed and
carriage return.
-/

namespace LinuxFff.CString

set_option autoImplicit false

abbrev Byte := UInt8
abbrev Bytes := List Byte

def newline : Byte := 10
def blank : Byte := 32

def isspace (byte : Byte) : Bool :=
  byte == 32 || byte == 9 || byte == 10 || byte == 11 || byte == 12 || byte == 13

def ascii (text : String) : Bytes := text.toList.map fun letter => UInt8.ofNat letter.toNat

def cstr (array : Bytes) : Bytes := array.takeWhile (· != 0)

def snprintf (size : Nat) (text : Bytes) : Bytes := text.take (size - 1)

/-- One `%s` conversion: skip white space, then take the bytes up to the next
white space. Without a token the conversion fails. -/
def scanWord (input : Bytes) : Option (Bytes × Bytes) :=
  match input.dropWhile isspace with
  | [] => none
  | byte :: rest =>
      some ((byte :: rest).takeWhile fun c => !isspace c,
        (byte :: rest).dropWhile fun c => !isspace c)

/-- `sscanf (line, "%s", first)`: a failed conversion leaves the array alone. -/
def sscanf1 (line first : Bytes) : Bytes :=
  match scanWord (cstr line) with
  | none => first
  | some (word, _) => word

/-- `sscanf (line, "%s %s", first, second)`. -/
def sscanf2 (line first second : Bytes) : Bytes × Bytes :=
  match scanWord (cstr line) with
  | none => (first, second)
  | some (word, rest) =>
      match scanWord rest with
      | none => (word, second)
      | some (other, _) => (word, other)

/-- The bytes one `fgets` call stores when `room` bytes fit before the
terminator, and the rest of the stream: it stops after a newline. -/
def fgets : Nat → Bytes → Bytes × Bytes
  | 0, stream => ([], stream)
  | _ + 1, [] => ([], [])
  | room + 1, byte :: stream =>
      if byte = newline then ([byte], stream)
      else (byte :: (fgets room stream).1, (fgets room stream).2)

def fgetsUntilNull (room : Nat) : Nat → Bytes → List Bytes
  | 0, _ => []
  | _ + 1, [] => []
  | fuel + 1, byte :: stream =>
      (fgets room (byte :: stream)).1 ::
        fgetsUntilNull room fuel (fgets room (byte :: stream)).2

/-- The iterations of `while (fgets (line, room + 1, file))` on a whole file. -/
def fgetsLoop (room : Nat) (file : Bytes) : List Bytes :=
  fgetsUntilNull room file.length file

theorem fgets_flatten (room : Nat) (stream : Bytes) :
    (fgets room stream).1 ++ (fgets room stream).2 = stream := by
  induction room generalizing stream with
  | zero => simp [fgets]
  | succ room ih =>
      cases stream with
      | nil => simp [fgets]
      | cons byte stream =>
          simp only [fgets]
          split
          · simp
          · simp [ih stream]

theorem fgets_rest_shorter (room : Nat) (byte : Byte) (stream : Bytes) :
    (fgets (room + 1) (byte :: stream)).2.length ≤ stream.length := by
  simp only [fgets]
  split
  · simp
  · have whole := congrArg List.length (fgets_flatten room stream)
    simp only [List.length_append] at whole
    simp only
    omega

theorem fgets_until_null_fuel (room fuel : Nat) (stream : Bytes)
    (enough : stream.length ≤ fuel) :
    fgetsUntilNull (room + 1) fuel stream = fgetsLoop (room + 1) stream := by
  unfold fgetsLoop
  induction fuel using Nat.strongRecOn generalizing stream with
  | _ fuel ih =>
      cases stream with
      | nil => cases fuel <;> rfl
      | cons byte stream =>
          cases fuel with
          | zero => simp at enough
          | succ fuel =>
              have shorter := fgets_rest_shorter room byte stream
              have room' : stream.length ≤ fuel := by simpa using enough
              simp only [List.length_cons, fgetsUntilNull]
              rw [ih fuel (by omega) _ (by omega)]
              by_cases same : stream.length < fuel + 1
              · rw [ih stream.length (by omega) _ shorter]
              · omega

theorem fgets_loop_nil (room : Nat) : fgetsLoop room [] = [] := rfl

theorem fgets_loop_cons (room : Nat) (byte : Byte) (stream : Bytes) :
    fgetsLoop (room + 1) (byte :: stream) =
      (fgets (room + 1) (byte :: stream)).1 ::
        fgetsLoop (room + 1) (fgets (room + 1) (byte :: stream)).2 := by
  conv_lhs => unfold fgetsLoop
  simp only [List.length_cons, fgetsUntilNull]
  rw [fgets_until_null_fuel]
  exact fgets_rest_shorter room byte stream

theorem fgets_length (room : Nat) (stream : Bytes) : (fgets room stream).1.length ≤ room := by
  induction room generalizing stream with
  | zero => exact Nat.le_refl 0
  | succ room ih =>
      cases stream with
      | nil => exact Nat.zero_le _
      | cons byte stream =>
          simp only [fgets]
          split
          · exact Nat.succ_le_succ (Nat.zero_le room)
          · exact Nat.succ_le_succ (ih stream)

/-- The pieces make up the file, and every one of them fits. -/
theorem fgets_loop_pieces (room : Nat) (file : Bytes) :
    (fgetsLoop (room + 1) file).flatten = file ∧
      ∀ piece ∈ fgetsLoop (room + 1) file, piece.length ≤ room + 1 := by
  induction length : file.length using Nat.strongRecOn generalizing file with
  | ind size ih =>
      cases file with
      | nil => exact ⟨rfl, fun piece impossible => absurd impossible List.not_mem_nil⟩
      | cons byte rest =>
          have shorter := fgets_rest_shorter room byte rest
          obtain ⟨whole, others⟩ := ih (fgets (room + 1) (byte :: rest)).2.length
            (by rw [← length, List.length_cons]; omega) _ rfl
          rw [fgets_loop_cons]
          constructor
          · rw [List.flatten_cons, whole, fgets_flatten]
          · intro piece member
            rcases List.mem_cons.mp member with same | later
            · rw [same]
              exact fgets_length _ _
            · exact others piece later

theorem fgets_part (room : Nat) (line rest : Bytes) (noNewline : newline ∉ line)
    (fits : line.length ≤ room) :
    fgets room (line ++ rest) = (line ++ (fgets (room - line.length) rest).1,
      (fgets (room - line.length) rest).2) := by
  induction line generalizing room with
  | nil => rfl
  | cons byte line ih =>
      cases room with
      | zero => simp at fits
      | succ room =>
          have different : byte ≠ newline := by
            intro same
            exact noNewline (by simp [same])
          have tail := ih room (fun member => noNewline (by simp [member]))
            (by simpa using fits)
          simp [fgets, different, tail]

theorem fgets_line (room : Nat) (line rest : Bytes) (noNewline : newline ∉ line)
    (fits : line.length < room) :
    fgets room (line ++ newline :: rest) = (line ++ [newline], rest) := by
  obtain ⟨more, left⟩ : ∃ more, room - line.length = more + 1 :=
    ⟨room - line.length - 1, by omega⟩
  rw [fgets_part room line _ noNewline (Nat.le_of_lt fits), left]
  simp [fgets]

theorem fgets_full (room : Nat) (line rest : Bytes) (noNewline : newline ∉ line)
    (exact_fit : line.length = room) :
    fgets room (line ++ rest) = (line, rest) := by
  rw [fgets_part room line rest noNewline (Nat.le_of_eq exact_fit), exact_fit, Nat.sub_self]
  simp [fgets]

def Word (text : Bytes) : Prop := text ≠ [] ∧ ∀ byte ∈ text, isspace byte = false

instance (text : Bytes) : Decidable (Word text) :=
  @instDecidableAnd (text ≠ []) _ inferInstance (List.decidableBAll _ text)

theorem Word.no_newline {text : Bytes} (word : Word text) : newline ∉ text := by
  intro member
  have space := word.2 newline member
  simp [newline, isspace] at space

theorem scan_word_of_word (word rest : Bytes) (isWord : Word word)
    (ends : ∀ byte ∈ rest.head?, isspace byte = true) :
    scanWord (word ++ rest) = some (word, rest) := by
  obtain ⟨nonempty, noSpace⟩ := isWord
  have head : (word ++ rest).dropWhile isspace = word ++ rest := by
    cases word with
    | nil => exact absurd rfl nonempty
    | cons byte word => simp [noSpace byte (by simp)]
  have allTaken : ∀ byte ∈ word, (!isspace byte) = true := by
    intro byte member
    simp [noSpace byte member]
  have restTaken : rest.takeWhile (fun c => !isspace c) = [] := by
    cases rest with
    | nil => rfl
    | cons byte rest => simp [ends byte (by simp)]
  have restDropped : rest.dropWhile (fun c => !isspace c) = rest := by
    cases rest with
    | nil => rfl
    | cons byte rest => simp [ends byte (by simp)]
  unfold scanWord
  rw [head]
  cases shape : word ++ rest with
  | nil => simp [nonempty] at shape
  | cons byte tail =>
      simp only [Option.some.injEq, Prod.mk.injEq]
      rw [← shape, List.takeWhile_append_of_pos allTaken, List.dropWhile_append_of_pos allTaken,
        restTaken, restDropped]
      simp

theorem scan_word_skip_space {byte : Byte} (space : isspace byte = true) (input : Bytes) :
    scanWord (byte :: input) = scanWord input := by
  unfold scanWord
  rw [List.dropWhile_cons_of_pos space]

theorem scan_word_skip_blank (input : Bytes) :
    scanWord (blank :: input) = scanWord input := scan_word_skip_space (by decide) input

theorem scan_word_shorter {input word rest : Bytes} (read : scanWord input = some (word, rest)) :
    rest.length < input.length := by
  unfold scanWord at read
  cases dropped : input.dropWhile isspace with
  | nil => simp [dropped] at read
  | cons byte tail =>
      simp only [dropped, Option.some.injEq, Prod.mk.injEq] at read
      have first : isspace byte = false := by
        have stopped := List.head?_dropWhile_not isspace input
        simpa [dropped] using stopped
      have whole := List.length_dropWhile_le isspace input
      have later := List.length_dropWhile_le (fun c => !isspace c) tail
      rw [dropped, List.length_cons] at whole
      rw [← read.2, List.dropWhile_cons_of_pos (by simp [first])]
      omega

theorem scan_word_sound {input word rest : Bytes} (read : scanWord input = some (word, rest)) :
    Word word ∧ word <:+: input ∧ rest <:+ input := by
  unfold scanWord at read
  cases dropped : input.dropWhile isspace with
  | nil => simp [dropped] at read
  | cons byte tail =>
      simp only [dropped, Option.some.injEq, Prod.mk.injEq] at read
      obtain ⟨wordEq, restEq⟩ := read
      have first : isspace byte = false := by
        have stopped := List.head?_dropWhile_not isspace input
        simpa [dropped] using stopped
      have suffix : byte :: tail <:+ input := by
        rw [← dropped]
        exact List.dropWhile_suffix isspace
      refine ⟨⟨?_, ?_⟩, ?_, ?_⟩
      · rw [← wordEq]
        simp [first]
      · intro other member
        rw [← wordEq] at member
        simpa using List.mem_takeWhile_imp member
      · rw [← wordEq]
        exact (List.takeWhile_prefix _).isInfix.trans suffix.isInfix
      · rw [← restEq]
        exact (List.dropWhile_suffix _).trans suffix

theorem cstr_of_no_nul {text : Bytes} (noNul : (0 : Byte) ∉ text) : cstr text = text := by
  unfold cstr
  rw [List.takeWhile_eq_self_iff]
  intro byte member
  have different : byte ≠ 0 := fun same => noNul (same ▸ member)
  simpa using different

theorem cstr_stops (text rest : Bytes) : cstr (text ++ 0 :: rest) = cstr text := by
  induction text with
  | nil => rfl
  | cons byte text ih =>
      unfold cstr at ih ⊢
      by_cases nul : byte = 0
      · simp [nul]
      · rw [List.cons_append, List.takeWhile_cons_of_pos (by simpa using nul),
          List.takeWhile_cons_of_pos (by simpa using nul), ih]

/-- A part without the byte that separates two texts is a part of one of them. -/
theorem infix_of_separated {word left right : Bytes} {separator : Byte}
    (absent : separator ∉ word) (inside : word <:+: left ++ separator :: right) :
    word <:+: left ∨ word <:+: right := by
  obtain ⟨front, back, whole⟩ := inside
  rcases List.append_eq_append_iff.mp whole with ⟨rest, leftEq, _⟩ | ⟨rest, wordEq, restEq⟩
  · exact Or.inl ⟨front, rest, leftEq.symm⟩
  · cases rest with
    | nil =>
        rw [List.append_nil] at wordEq
        exact Or.inl ⟨front, [], by rw [List.append_nil, wordEq]⟩
    | cons head tail =>
        simp only [List.cons_append, List.cons.injEq] at restEq
        obtain ⟨headEq, rightEq⟩ := restEq
        subst headEq
        rcases List.append_eq_append_iff.mp wordEq with ⟨rest, _, wordEq'⟩ | ⟨rest, frontEq, tailEq⟩
        · exact absurd (by rw [wordEq']; simp) absent
        · cases rest with
          | nil =>
              rw [List.nil_append] at tailEq
              exact absurd (by rw [← tailEq]; simp) absent
          | cons other rest =>
              simp only [List.cons_append, List.cons.injEq] at tailEq
              exact Or.inr ⟨rest, back, by rw [rightEq, tailEq.2]⟩

/-- `while (fgets (buffer, sizeof(buffer), log)) write (buffer, strlen(buffer))`
with `char buffer[1024]`. -/
def replayWrites (file : Bytes) : List Bytes := (fgetsLoop 1023 file).map cstr

theorem fgets_loop_no_nul {file piece : Bytes} (noNul : (0 : Byte) ∉ file)
    (member : piece ∈ fgetsLoop 1023 file) : (0 : Byte) ∉ piece := by
  intro inside
  apply noNul
  rw [← (fgets_loop_pieces 1022 file).1]
  exact List.mem_flatten.mpr ⟨piece, member, inside⟩

theorem replay_writes_flatten (file : Bytes) (noNul : (0 : Byte) ∉ file) :
    (replayWrites file).flatten = file := by
  have strings : (fgetsLoop 1023 file).map cstr = (fgetsLoop 1023 file).map id := by
    apply List.map_congr_left
    intro piece member
    exact cstr_of_no_nul (fgets_loop_no_nul noNul member)
  rw [replayWrites, strings, List.map_id]
  exact (fgets_loop_pieces 1022 file).1

theorem cstr_no_nul (array : Bytes) : (0 : Byte) ∉ cstr array := by
  intro member
  have kept := List.mem_takeWhile_imp member
  simp at kept

theorem snprintf_no_nul {size : Nat} {text : Bytes} (noNul : (0 : Byte) ∉ text) :
    (0 : Byte) ∉ snprintf size text :=
  fun member => noNul (List.mem_of_mem_take member)

theorem copied_no_nul (name : Bytes) : (0 : Byte) ∉ (cstr name).take 50 :=
  fun member => cstr_no_nul name (List.mem_of_mem_take member)

end LinuxFff.CString
