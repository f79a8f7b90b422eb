import LinuxFff.LoginSoundness

/-!
# The credential store of `server.c`

`register_user` appends the line that `server_tls_final.c` also writes, without
looking for the username. `check_user` reads the whole file as a stream of
tokens, two for each `fscanf`, and never looks at line ends. An array is given
by the string in it. A conversion that meets the end of the file leaves its
array alone, which can only happen to the second one: `stale` is what it holds
before the first iteration.
-/

namespace LinuxFff.PlainCredentials

open LinuxFff.CString LinuxFff.UsersFile LinuxFff.LoginSoundness

set_option autoImplicit false

/-- `fscanf (fp, "%s %s", u, p)`: both arrays and the rest of the stream, or
nothing when it returns `EOF`. One conversion alone is not `EOF`. -/
def fscanf2 (stream p : Bytes) : Option (Bytes × Bytes × Bytes) :=
  match scanWord stream with
  | none => none
  | some (word, rest) =>
      match scanWord rest with
      | none => some (cstr word, p, [])
      | some (other, rest) => some (cstr word, cstr other, rest)

/-- The loop of `check_user`, which has no result when the fuel runs out. -/
def checkLoop (username password : Bytes) : Nat → Bytes → Bytes → Option Nat
  | 0, _, _ => none
  | fuel + 1, p, stream =>
      match fscanf2 stream p with
      | none => some 0
      | some (u, p, rest) =>
          if username = u ∧ password = p then some 1 else checkLoop username password fuel p rest

def checkUser (stale username password users : Bytes) : Option Nat :=
  checkLoop username password (users.length + 1) stale users

def registerUser (username password users : Bytes) : Nat × Bytes :=
  (1, users ++ userLine username password)

def registerAll (users : Bytes) (pairs : List (Bytes × Bytes)) : Bytes :=
  pairs.foldl (fun users pair => (registerUser pair.1 pair.2 users).2) users

theorem register_all_file (earlier pairs : List (Bytes × Bytes)) :
    registerAll (fileOf earlier) pairs = fileOf (earlier ++ pairs) := by
  induction pairs generalizing earlier with
  | nil => simp [registerAll]
  | cons pair pairs ih =>
      have next := ih (earlier ++ [pair])
      rw [file_of_append, List.append_assoc] at next
      exact next

theorem fscanf2_shorter {stream p first second rest : Bytes}
    (read : fscanf2 stream p = some (first, second, rest)) : rest.length < stream.length := by
  unfold fscanf2 at read
  cases readFirst : scanWord stream with
  | none => simp [readFirst] at read
  | some result =>
      rcases result with ⟨word, middle⟩
      have shorter := scan_word_shorter readFirst
      cases readSecond : scanWord middle with
      | none =>
          simp only [readFirst, readSecond, Option.some.injEq, Prod.mk.injEq] at read
          rw [← read.2.2, List.length_nil]
          omega
      | some result =>
          rcases result with ⟨other, last⟩
          simp only [readFirst, readSecond, Option.some.injEq, Prod.mk.injEq] at read
          have shorterStill := scan_word_shorter readSecond
          rw [← read.2.2]
          omega

/-- Every iteration consumes a byte, so the loop ends on every file. -/
theorem check_loop_terminates (username password : Bytes) (fuel : Nat) (p stream : Bytes)
    (enough : stream.length < fuel) :
    ∃ verdict, checkLoop username password fuel p stream = some verdict := by
  induction fuel generalizing p stream with
  | zero => omega
  | succ fuel ih =>
      cases read : fscanf2 stream p with
      | none => exact ⟨0, by simp [checkLoop, read]⟩
      | some result =>
          rcases result with ⟨first, second, rest⟩
          have shorter := fscanf2_shorter read
          by_cases found : username = first ∧ password = second
          · exact ⟨1, by simp [checkLoop, read, found]⟩
          · obtain ⟨verdict, later⟩ := ih second rest (by omega)
            exact ⟨verdict, by simp [checkLoop, read, found, later]⟩

theorem check_user_terminates (stale username password users : Bytes) :
    ∃ verdict, checkUser stale username password users = some verdict :=
  check_loop_terminates _ _ _ _ _ (Nat.lt_succ_self _)

theorem check_loop_newline (username password : Bytes) (fuel : Nat) (p stream : Bytes) :
    checkLoop username password fuel p (newline :: stream) =
      checkLoop username password fuel p stream := by
  have same : fscanf2 (newline :: stream) p = fscanf2 stream p := by
    unfold fscanf2
    rw [scan_word_skip_space (by decide)]
  cases fuel with
  | zero => rfl
  | succ fuel => simp only [checkLoop, same]

theorem fscanf2_user_line (username password p rest : Bytes) (userClean : CleanField username)
    (passClean : CleanField password) :
    fscanf2 (userLine username password ++ rest) p =
      some (username, password, newline :: rest) := by
  have shape : userLine username password ++ rest =
      username ++ blank :: (password ++ newline :: rest) := by
    simp [userLine]
  have readUser : scanWord (username ++ blank :: (password ++ newline :: rest)) =
      some (username, blank :: (password ++ newline :: rest)) := by
    apply scan_word_of_word _ _ userClean.word
    intro byte member
    have same : byte = blank := by simpa using member.symm
    rw [same]
    decide
  have readPass : scanWord (password ++ newline :: rest) = some (password, newline :: rest) := by
    apply scan_word_of_word _ _ passClean.word
    intro byte member
    have same : byte = newline := by simpa using member.symm
    rw [same]
    decide
  unfold fscanf2
  rw [shape, readUser]
  simp only [scan_word_skip_blank, readPass]
  rw [cstr_of_no_nul userClean.noNul, cstr_of_no_nul passClean.noNul]

theorem check_loop_file (username password : Bytes) (pairs : List (Bytes × Bytes))
    (clean : ∀ pair ∈ pairs, CleanPair pair) (fuel : Nat) (p : Bytes)
    (enough : pairs.length < fuel) :
    checkLoop username password fuel p (fileOf pairs) =
      some (if (username, password) ∈ pairs then 1 else 0) := by
  induction pairs generalizing fuel p with
  | nil =>
      cases fuel with
      | zero => cases enough
      | succ fuel => rfl
  | cons pair pairs ih =>
      rcases pair with ⟨first, second⟩
      have cleanPair := clean (first, second) (by simp)
      cases fuel with
      | zero => simp at enough
      | succ fuel =>
          have later := ih (fun other member => clean other (by simp [member])) fuel second
            (by simpa using enough)
          have file : fileOf ((first, second) :: pairs) =
              userLine first second ++ fileOf pairs := by
            simp [fileOf]
          rw [file, checkLoop, fscanf2_user_line _ _ _ _ cleanPair.username cleanPair.password]
          simp only [check_loop_newline, later]
          by_cases found : username = first ∧ password = second
          · simp [found]
          · rw [if_neg found]
            congr 2
            simp [found]

theorem check_user_file (stale username password : Bytes)
    (pairs : List (Bytes × Bytes)) (clean : ∀ pair ∈ pairs, CleanPair pair) :
    checkUser stale username password (fileOf pairs) =
      some (if (username, password) ∈ pairs then 1 else 0) := by
  apply check_loop_file username password pairs clean
  have longer : ∀ rows : List (Bytes × Bytes), rows.length ≤ (fileOf rows).length := by
    intro rows
    induction rows with
    | nil => simp
    | cons row rows ih =>
        simp only [fileOf, List.flatMap_cons, List.length_append, List.length_cons, userLine] at ih ⊢
        omega
  exact Nat.lt_succ_of_le (longer pairs)

theorem file_of_no_nul (pairs : List (Bytes × Bytes))
    (fields : ∀ pair ∈ pairs, FieldText pair.1 ∧ FieldText pair.2) :
    (0 : Byte) ∉ fileOf pairs := by
  intro member
  obtain ⟨pair, present, inLine⟩ := List.mem_flatMap.mp member
  obtain ⟨userField, passField⟩ := fields pair present
  have noNul : (0 : Byte) ∉ userLine pair.1 pair.2 := by
    simp only [userLine, List.mem_append, List.mem_cons, List.not_mem_nil, or_false, not_or]
    exact ⟨userField.noNul, by decide, passField.noNul, by decide⟩
  exact noNul inLine

/-- A stream without NUL puts a word into the first array, and a word or
nothing into the second. -/
theorem fscanf2_reads_words {stream p first second rest : Bytes} (noNul : (0 : Byte) ∉ stream)
    (read : fscanf2 stream p = some (first, second, rest)) :
    Word first ∧ (second = p ∨ Word second) ∧ (0 : Byte) ∉ rest := by
  unfold fscanf2 at read
  cases readFirst : scanWord stream with
  | none => simp [readFirst] at read
  | some result =>
      rcases result with ⟨word, middle⟩
      obtain ⟨isWord, inside, suffix⟩ := scan_word_sound readFirst
      have wordNul : (0 : Byte) ∉ word := fun member => noNul (inside.subset member)
      have middleNul : (0 : Byte) ∉ middle := fun member => noNul (suffix.subset member)
      cases readSecond : scanWord middle with
      | none =>
          simp only [readFirst, readSecond, Option.some.injEq, Prod.mk.injEq,
            cstr_of_no_nul wordNul] at read
          obtain ⟨firstEq, secondEq, restEq⟩ := read
          refine ⟨firstEq ▸ isWord, Or.inl secondEq.symm, ?_⟩
          rw [← restEq]
          exact List.not_mem_nil
      | some result =>
          rcases result with ⟨other, last⟩
          obtain ⟨otherWord, otherInside, lastSuffix⟩ := scan_word_sound readSecond
          have otherNul : (0 : Byte) ∉ other := fun member => middleNul (otherInside.subset member)
          simp only [readFirst, readSecond, Option.some.injEq, Prod.mk.injEq,
            cstr_of_no_nul wordNul, cstr_of_no_nul otherNul] at read
          obtain ⟨firstEq, secondEq, restEq⟩ := read
          refine ⟨firstEq ▸ isWord, Or.inr (secondEq ▸ otherWord), ?_⟩
          rw [← restEq]
          exact fun member => middleNul (lastSuffix.subset member)

theorem check_loop_accepts_words (username password : Bytes) (fuel : Nat) (p stream : Bytes)
    (noNul : (0 : Byte) ∉ stream) (staleWord : Word p)
    (accepted : checkLoop username password fuel p stream = some 1) :
    Word username ∧ Word password := by
  induction fuel generalizing p stream with
  | zero => cases accepted
  | succ fuel ih =>
      cases read : fscanf2 stream p with
      | none => simp [checkLoop, read] at accepted
      | some result =>
          rcases result with ⟨first, second, rest⟩
          obtain ⟨firstWord, secondRead, restNul⟩ := fscanf2_reads_words noNul read
          have secondWord : Word second := by
            rcases secondRead with old | new
            · rw [old]
              exact staleWord
            · exact new
          simp only [checkLoop, read] at accepted
          by_cases found : username = first ∧ password = second
          · rw [found.1, found.2]
            exact ⟨firstWord, secondWord⟩
          · rw [if_neg found] at accepted
            exact ih second rest restNul secondWord accepted

/-- After some registrations every query gets the right answer exactly when
every registered field is non-empty and free of white space. -/
theorem check_user_correct_iff (pairs : List (Bytes × Bytes))
    (fields : ∀ pair ∈ pairs, FieldText pair.1 ∧ FieldText pair.2) :
    (∀ stale username password, FieldText username → FieldText password →
        checkUser stale username password (registerAll [] pairs) =
          some (if (username, password) ∈ pairs then 1 else 0)) ↔
      ∀ pair ∈ pairs, Word pair.1 ∧ Word pair.2 := by
  have file : registerAll [] pairs = fileOf pairs := register_all_file [] pairs
  rw [file]
  constructor
  · intro correct pair present
    obtain ⟨userField, passField⟩ := fields pair present
    have accepted := correct [120] pair.1 pair.2 userField passField
    rw [if_pos present] at accepted
    exact check_loop_accepts_words pair.1 pair.2 _ [120] _ (file_of_no_nul pairs fields)
      (by decide) accepted
  · intro words stale username password _ _
    apply check_user_file
    intro pair present
    obtain ⟨userField, passField⟩ := fields pair present
    obtain ⟨userWord, passWord⟩ := words pair present
    exact ⟨⟨userField, userWord⟩, ⟨passField, passWord⟩⟩

def twoUsers : List (Bytes × Bytes) := [(ascii "al", ascii "x"), (ascii "bo", ascii "y")]

theorem registered_user_logs_in :
    checkUser [] (ascii "bo") (ascii "y") (registerAll [] twoUsers) = some 1 ∧
      checkUser [] (ascii "bo") (ascii "x") (registerAll [] twoUsers) = some 0 := by
  have correct := (check_user_correct_iff twoUsers (by decide)).mpr (by decide)
  exact ⟨correct _ _ _ (by decide) (by decide), correct _ _ _ (by decide) (by decide)⟩

/-- An empty password shifts the pairing of the tokens: the next user is locked out. -/
theorem empty_password_locks_out_next_user :
    ¬∀ (pairs : List (Bytes × Bytes)) (stale username password : Bytes),
      (∀ pair ∈ pairs, FieldText pair.1 ∧ FieldText pair.2) →
        FieldText username → FieldText password →
        checkUser stale username password (registerAll [] pairs) =
          some (if (username, password) ∈ pairs then 1 else 0) := by
  intro correct
  have fields : ∀ pair ∈ [(([97, 108] : Bytes), ([] : Bytes)), ([98, 111], [120])],
      FieldText pair.1 ∧ FieldText pair.2 := by
    decide
  exact absurd (correct _ [] [98, 111] [120] fields (by decide) (by decide)) (by decide)

/-- On a file of clean pairs the token loop of `server.c` and the line loop of
`server_tls_final.c` give one verdict, which tells who has registered. -/
theorem login_checks_agree (pairs : List (Bytes × Bytes)) (username password : Bytes)
    (clean : ∀ pair ∈ pairs, CleanPair pair) :
    ∀ stale arrays, checkUser stale username password (registerAll [] pairs) =
        some (authenticate arrays 1 username password (registerAll [] pairs)).1 ∧
      ((authenticate arrays 1 username password (registerAll [] pairs)).1 = 1 ↔
        (username, password) ∈ pairs) := by
  intro stale arrays
  have file : registerAll [] pairs = fileOf pairs := register_all_file [] pairs
  rw [file, check_user_file stale username password pairs clean,
    authenticate_login_file arrays username password pairs clean]
  by_cases present : (username, password) ∈ pairs <;> simp [present]

/-- The longest record, whose newline `fgets` returns in a buffer of its own. -/
def longestPair : Bytes × Bytes := (List.replicate 49 97, List.replicate 49 98)

theorem longest_record_agrees :
    checkUser [] longestPair.1 longestPair.2 (registerAll [] [longestPair]) =
        some (authenticate ([], []) 1 longestPair.1 longestPair.2
          (registerAll [] [longestPair])).1 ∧
      ((authenticate ([], []) 1 longestPair.1 longestPair.2
          (registerAll [] [longestPair])).1 = 1 ↔ longestPair ∈ [longestPair]) := by
  exact login_checks_agree [longestPair] longestPair.1 longestPair.2 (by decide) [] ([], [])

end LinuxFff.PlainCredentials
