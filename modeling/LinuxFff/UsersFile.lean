import LinuxFff.CString

/-!
# The credential store of `server_tls_final.c`

`authenticate` appends a sign-in to `users.txt` as `username password` and a
newline, and reads the file back with `fgets` of 100 bytes and a
white-space-splitting `sscanf`. Prompts and replies on the connection are not
part of this module: a call is given the mode, the username and the password
that it has read. Arrays that `sscanf` does not fill keep the contents of the
previous iteration, and start with the arbitrary contents `stale`.
-/

namespace LinuxFff.UsersFile

open LinuxFff.CString

set_option autoImplicit false

/-- `fgets (line, sizeof(line), file)` with `char line[100]`. -/
def lineRoom : Nat := 99

def loginLoop (username password : Bytes) : Bytes → Bytes → List Bytes → Bool
  | _, _, [] => false
  | fileUser, filePass, line :: rest =>
      let read := sscanf2 line fileUser filePass
      if read.1 = username ∧ read.2 = password then true
      else loginLoop username password read.1 read.2 rest

def signInLoop (username : Bytes) : Bytes → List Bytes → Bool
  | _, [] => false
  | fileUser, line :: rest =>
      let read := sscanf1 line fileUser
      if read = username then true else signInLoop username read rest

/-- `fprintf (file, "%s %s\n", username, password)`. -/
def userLine (username password : Bytes) : Bytes :=
  username ++ blank :: (password ++ [newline])

/-- The part of `authenticate` after both prompts: the value of `auth` and the
contents of `users.txt` afterwards. -/
def authenticate (stale : Bytes × Bytes) (mode : Int) (username password users : Bytes) :
    Nat × Bytes :=
  if mode = 1 then
    (if loginLoop username password stale.1 stale.2 (fgetsLoop lineRoom users) then 1 else 0,
      users)
  else if mode = 2 then
    if signInLoop username stale.1 (fgetsLoop lineRoom users) then (0, users)
    else (1, users ++ userLine username password)
  else (0, users)

structure FieldText (text : Bytes) : Prop where
  short : text.length ≤ 49
  noNewline : newline ∉ text
  noNul : (0 : Byte) ∉ text

instance decidableFieldText (text : Bytes) : Decidable (FieldText text) :=
  decidable_of_iff (text.length ≤ 49 ∧ newline ∉ text ∧ (0 : Byte) ∉ text)
    ⟨fun ⟨short, noNewline, noNul⟩ => ⟨short, noNewline, noNul⟩,
      fun field => ⟨field.short, field.noNewline, field.noNul⟩⟩

/-- A username or password that `%s` reads back as it was written. -/
structure CleanField (text : Bytes) : Prop extends FieldText text where
  word : Word text

instance decidableCleanField (text : Bytes) : Decidable (CleanField text) :=
  decidable_of_iff (FieldText text ∧ Word text)
    ⟨fun ⟨field, word⟩ => ⟨field, word⟩, fun clean => ⟨clean.toFieldText, clean.word⟩⟩

structure CleanPair (pair : Bytes × Bytes) : Prop where
  username : CleanField pair.1
  password : CleanField pair.2

instance decidableCleanPair (pair : Bytes × Bytes) : Decidable (CleanPair pair) :=
  decidable_of_iff (CleanField pair.1 ∧ CleanField pair.2)
    ⟨fun ⟨username, password⟩ => ⟨username, password⟩,
      fun clean => ⟨clean.username, clean.password⟩⟩

def fileOf (pairs : List (Bytes × Bytes)) : Bytes :=
  pairs.flatMap fun pair => userLine pair.1 pair.2

theorem file_of_append (pairs : List (Bytes × Bytes)) (pair : Bytes × Bytes) :
    fileOf (pairs ++ [pair]) = fileOf pairs ++ userLine pair.1 pair.2 := by
  simp [fileOf]

/-- The buffers in which `fgets` returns one line: a username and a password
of 49 bytes each leave the newline to a buffer of its own. -/
def lineBuffers (pair : Bytes × Bytes) : List Bytes :=
  if pair.1.length + pair.2.length < 98 then [userLine pair.1 pair.2]
  else [pair.1 ++ blank :: pair.2, [newline]]

theorem fgets_loop_user_line (username password rest : Bytes)
    (userField : FieldText username) (passField : FieldText password) :
    fgetsLoop lineRoom (userLine username password ++ rest) =
      lineBuffers (username, password) ++ fgetsLoop lineRoom rest := by
  have userShort := userField.short
  have passShort := passField.short
  have noNewline : newline ∉ username ++ blank :: password := by
    simp only [List.mem_append, List.mem_cons, not_or]
    exact ⟨userField.noNewline, by decide, passField.noNewline⟩
  have shape : userLine username password ++ rest =
      (username ++ blank :: password) ++ newline :: rest := by
    simp [userLine]
  obtain ⟨byte, tail, head⟩ : ∃ byte tail,
      userLine username password ++ rest = byte :: tail := by
    cases username <;> exact ⟨_, _, rfl⟩
  rw [head, lineRoom, fgets_loop_cons, ← head, shape]
  by_cases small : username.length + password.length < 98
  · rw [fgets_line 99 _ rest noNewline (by simp; omega)]
    simp [lineBuffers, small, userLine]
  · rw [fgets_full 99 _ (newline :: rest) noNewline (by simp; omega)]
    simp only [fgets_loop_cons, lineBuffers, small, if_false]
    simp [fgets]

theorem fgets_loop_file_of (pairs : List (Bytes × Bytes))
    (fields : ∀ pair ∈ pairs, FieldText pair.1 ∧ FieldText pair.2) :
    fgetsLoop lineRoom (fileOf pairs) = pairs.flatMap lineBuffers := by
  induction pairs with
  | nil => rfl
  | cons pair pairs ih =>
      obtain ⟨userField, passField⟩ := fields pair (by simp)
      have tail := ih fun other member => fields other (by simp [member])
      simp only [fileOf, List.flatMap_cons] at tail ⊢
      rw [fgets_loop_user_line _ _ _ userField passField, tail]

private theorem sscanf2_of_words (username password tail first second : Bytes)
    (userClean : CleanField username) (passClean : CleanField password)
    (tailEnds : tail = [] ∨ tail = [newline]) :
    sscanf2 (username ++ blank :: (password ++ tail)) first second = (username, password) := by
  have noNul : (0 : Byte) ∉ username ++ blank :: (password ++ tail) := by
    simp only [List.mem_append, List.mem_cons, not_or]
    refine ⟨userClean.noNul, by decide, passClean.noNul, ?_⟩
    rcases tailEnds with empty | line <;> subst tail <;> decide
  have readUser : scanWord (username ++ blank :: (password ++ tail)) =
      some (username, blank :: (password ++ tail)) := by
    apply scan_word_of_word _ _ userClean.word
    intro byte member
    have same : byte = blank := by simpa using member.symm
    rw [same]
    decide
  have readPass : scanWord (password ++ tail) = some (password, tail) := by
    apply scan_word_of_word _ _ passClean.word
    intro byte member
    rcases tailEnds with empty | line
    · simp [empty] at member
    · have same : byte = newline := by simpa [line] using member.symm
      rw [same]
      decide
  unfold sscanf2
  rw [cstr_of_no_nul noNul, readUser]
  simp only [scan_word_skip_blank, readPass]

private theorem sscanf1_eq_fst_sscanf2 (line first second : Bytes) :
    sscanf1 line first = (sscanf2 line first second).1 := by
  unfold sscanf1 sscanf2
  cases scanWord (cstr line) with
  | none => rfl
  | some read =>
      rcases read with ⟨word, rest⟩
      simp only
      cases scanWord rest <;> rfl

theorem sscanf1_of_words (username password first : Bytes)
    (userClean : CleanField username) (passClean : CleanField password) :
    sscanf1 (username ++ blank :: password) first = username := by
  have both := sscanf2_of_words username password [] first first userClean passClean
    (Or.inl rfl)
  rw [List.append_nil] at both
  rw [sscanf1_eq_fst_sscanf2 _ _ first, both]

theorem sscanf2_newline (first second : Bytes) :
    sscanf2 [newline] first second = (first, second) := rfl

/-- The pair of arrays that every iteration over one clean line compares. -/
theorem login_loop_line (username password first second : Bytes) (pair : Bytes × Bytes)
    (rest : List Bytes) (clean : CleanPair pair) :
    loginLoop username password first second (lineBuffers pair ++ rest) =
      if pair = (username, password) then true
      else loginLoop username password pair.1 pair.2 rest := by
  rcases pair with ⟨fileUser, filePass⟩
  have whole := sscanf2_of_words fileUser filePass [newline] first second
    clean.username clean.password (Or.inr rfl)
  have cut := sscanf2_of_words fileUser filePass [] first second
    clean.username clean.password (Or.inl rfl)
  rw [List.append_nil] at cut
  by_cases small : fileUser.length + filePass.length < 98
  · simp only [lineBuffers, small, if_true, List.singleton_append, loginLoop, userLine,
      whole, Prod.mk.injEq]
  · simp only [lineBuffers, small, if_false, List.cons_append, List.nil_append, loginLoop,
      cut, sscanf2_newline, Prod.mk.injEq]
    split_ifs <;> rfl

theorem login_loop_file (username password first second : Bytes)
    (pairs : List (Bytes × Bytes)) (clean : ∀ pair ∈ pairs, CleanPair pair) :
    loginLoop username password first second (pairs.flatMap lineBuffers) =
      decide ((username, password) ∈ pairs) := by
  induction pairs generalizing first second with
  | nil => simp [loginLoop]
  | cons pair pairs ih =>
      rw [List.flatMap_cons, login_loop_line _ _ _ _ _ _ (clean pair (by simp))]
      rw [ih pair.1 pair.2 fun other member => clean other (by simp [member])]
      by_cases same : pair = (username, password)
      · simp [same]
      · simp [same, Ne.symm same]

theorem sign_in_loop_line (username first : Bytes) (pair : Bytes × Bytes)
    (rest : List Bytes) (clean : CleanPair pair) :
    signInLoop username first (lineBuffers pair ++ rest) =
      if pair.1 = username then true else signInLoop username pair.1 rest := by
  rcases pair with ⟨fileUser, filePass⟩
  have whole := sscanf2_of_words fileUser filePass [newline] first first
    clean.username clean.password (Or.inr rfl)
  have cut := sscanf2_of_words fileUser filePass [] first first
    clean.username clean.password (Or.inl rfl)
  rw [List.append_nil] at cut
  by_cases small : fileUser.length + filePass.length < 98
  · simp only [lineBuffers, small, if_true, List.singleton_append, signInLoop, userLine,
      sscanf1_eq_fst_sscanf2 _ _ first, whole]
  · simp only [lineBuffers, small, if_false, List.cons_append, List.nil_append, signInLoop,
      sscanf1_eq_fst_sscanf2 _ _ first, cut]
    rw [sscanf2_newline]
    split_ifs <;> rfl

theorem sign_in_loop_file (username first : Bytes)
    (pairs : List (Bytes × Bytes)) (clean : ∀ pair ∈ pairs, CleanPair pair) :
    signInLoop username first (pairs.flatMap lineBuffers) =
      decide (username ∈ pairs.map Prod.fst) := by
  induction pairs generalizing first with
  | nil => simp [signInLoop]
  | cons pair pairs ih =>
      rw [List.flatMap_cons, sign_in_loop_line _ _ _ _ (clean pair (by simp))]
      rw [ih pair.1 fun other member => clean other (by simp [member])]
      by_cases same : pair.1 = username
      · simp [same]
      · simp [same, Ne.symm same]

end LinuxFff.UsersFile
