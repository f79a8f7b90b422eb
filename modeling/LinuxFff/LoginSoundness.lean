import LinuxFff.UsersFile

/-!
# Logins of `server_tls_final.c` over a history of sign-ins

Calls of `authenticate` run one after another on one `users.txt`. A login is
sound when the accepted pair was signed in before. It is sound in every history
exactly when every pair that signs in reads back as it was written: both fields
non-empty and without white space. Any other pair lets somebody log in with a
pair that nobody registered.
-/

namespace LinuxFff.LoginSoundness

open LinuxFff.CString LinuxFff.UsersFile

set_option autoImplicit false

structure AuthCall where
  mode : Int
  username : Bytes
  password : Bytes
  stale : Bytes × Bytes
  deriving DecidableEq

/-- Calls executed one after another, each with the result it returned. -/
def serve : Bytes → List AuthCall → List (AuthCall × Nat)
  | _, [] => []
  | users, call :: rest =>
      let result := authenticate call.stale call.mode call.username call.password users
      (call, result.1) :: serve result.2 rest

/-- What a call may be given: a mode that leaves the menu loop, and two
fields of at most 49 bytes without newline or NUL. -/
structure Admissible (call : AuthCall) : Prop where
  mode : call.mode = 1 ∨ call.mode = 2
  username : FieldText call.username
  password : FieldText call.password

/-- A sign-in that succeeded with exactly this username and password. -/
def SignedIn (history : List (AuthCall × Nat)) (username password : Bytes) : Prop :=
  ∃ earlier ∈ history, earlier.1.mode = 2 ∧ earlier.2 = 1 ∧
    earlier.1.username = username ∧ earlier.1.password = password

def LoginSound (calls : List AuthCall) : Prop :=
  ∀ before call after, serve [] calls = before ++ (call, 1) :: after →
    call.mode = 1 → SignedIn before call.username call.password

theorem authenticate_login_file (stale : Bytes × Bytes) (username password : Bytes)
    (pairs : List (Bytes × Bytes)) (clean : ∀ pair ∈ pairs, CleanPair pair) :
    authenticate stale 1 username password (fileOf pairs) =
      (if (username, password) ∈ pairs then 1 else 0, fileOf pairs) := by
  have fields : ∀ pair ∈ pairs, FieldText pair.1 ∧ FieldText pair.2 := fun pair member =>
    ⟨(clean pair member).username.toFieldText, (clean pair member).password.toFieldText⟩
  unfold authenticate
  rw [if_pos rfl, fgets_loop_file_of pairs fields, login_loop_file _ _ _ _ pairs clean]
  simp

theorem authenticate_sign_in_file (stale : Bytes × Bytes) (username password : Bytes)
    (pairs : List (Bytes × Bytes)) (clean : ∀ pair ∈ pairs, CleanPair pair) :
    authenticate stale 2 username password (fileOf pairs) =
      if username ∈ pairs.map Prod.fst then (0, fileOf pairs)
      else (1, fileOf (pairs ++ [(username, password)])) := by
  have fields : ∀ pair ∈ pairs, FieldText pair.1 ∧ FieldText pair.2 := fun pair member =>
    ⟨(clean pair member).username.toFieldText, (clean pair member).password.toFieldText⟩
  unfold authenticate
  rw [if_neg (by decide), if_pos rfl, fgets_loop_file_of pairs fields,
    sign_in_loop_file _ _ pairs clean, file_of_append]
  by_cases present : username ∈ pairs.map Prod.fst <;> simp [present]

def AuthCall.result (call : AuthCall) (users : Bytes) : Nat × Bytes :=
  authenticate call.stale call.mode call.username call.password users

/-- What one call does to a file of clean pairs: it stays one, gaining at most
the pair that signs in, and only a recorded pair logs in. -/
theorem result_on_clean_file (call : AuthCall) (pairs : List (Bytes × Bytes))
    (clean : ∀ pair ∈ pairs, CleanPair pair)
    (mode : call.mode = 1 ∨ call.mode = 2)
    (signIn : call.mode = 2 → CleanPair (call.username, call.password)) :
    ∃ next, (call.result (fileOf pairs)).2 = fileOf next ∧ (∀ pair ∈ next, CleanPair pair) ∧
      (∀ pair ∈ next, pair ∈ pairs ∨ (call.mode = 2 ∧ (call.result (fileOf pairs)).1 = 1 ∧
        pair = (call.username, call.password))) ∧
      (call.mode = 1 → (call.result (fileOf pairs)).1 = 1 →
        (call.username, call.password) ∈ pairs) := by
  unfold AuthCall.result
  rcases mode with login | signs
  · rw [login, authenticate_login_file _ _ _ pairs clean]
    refine ⟨pairs, rfl, clean, fun pair member => Or.inl member, ?_⟩
    intro _ accepted
    by_contra absent
    simp [absent] at accepted
  · rw [signs, authenticate_sign_in_file _ _ _ pairs clean]
    by_cases present : call.username ∈ pairs.map Prod.fst
    · rw [if_pos present]
      exact ⟨pairs, rfl, clean, fun pair member => Or.inl member, by simp⟩
    · rw [if_neg present]
      refine ⟨pairs ++ [(call.username, call.password)], rfl, ?_, ?_, by simp⟩
      · intro pair member
        rcases List.mem_append.mp member with old | new
        · exact clean pair old
        · rw [List.mem_singleton.mp new]
          exact signIn signs
      · intro pair member
        rcases List.mem_append.mp member with old | new
        · exact Or.inl old
        · exact Or.inr ⟨rfl, rfl, List.mem_singleton.mp new⟩

/-- The history invariant: while the file holds clean pairs only, an accepted
login is one of them or was signed in during the history. -/
theorem serve_from_clean_file (calls : List AuthCall) (pairs : List (Bytes × Bytes))
    (clean : ∀ pair ∈ pairs, CleanPair pair)
    (modes : ∀ call ∈ calls, call.mode = 1 ∨ call.mode = 2)
    (signIns : ∀ call ∈ calls, call.mode = 2 → CleanPair (call.username, call.password))
    (before : List (AuthCall × Nat)) (call : AuthCall) (after : List (AuthCall × Nat))
    (served : serve (fileOf pairs) calls = before ++ (call, 1) :: after)
    (login : call.mode = 1) :
    (call.username, call.password) ∈ pairs ∨
      SignedIn before call.username call.password := by
  induction calls generalizing pairs before with
  | nil => simp [serve] at served
  | cons first rest ih =>
      obtain ⟨next, file, nextClean, gained, loggedIn⟩ := result_on_clean_file first pairs clean
        (modes first (by simp)) (signIns first (by simp))
      simp only [serve] at served
      change (first, (first.result (fileOf pairs)).1) ::
        serve (first.result (fileOf pairs)).2 rest = _ at served
      rw [file] at served
      cases before with
      | nil =>
          simp only [List.nil_append, List.cons.injEq, Prod.mk.injEq] at served
          obtain ⟨⟨same, accepted⟩, _⟩ := served
          subst same
          exact Or.inl (loggedIn login accepted)
      | cons head before =>
          simp only [List.cons_append, List.cons.injEq] at served
          obtain ⟨headEq, tailServed⟩ := served
          have later := ih next nextClean (fun other member => modes other (by simp [member]))
            (fun other member => signIns other (by simp [member])) before tailServed
          rcases later with recorded | ⟨entry, member, facts⟩
          · rcases gained _ recorded with old | ⟨signs, succeeded, pairEq⟩
            · exact Or.inl old
            · simp only [Prod.mk.injEq] at pairEq
              refine Or.inr ⟨head, by simp, ?_⟩
              rw [← headEq]
              exact ⟨signs, succeeded, pairEq.1.symm, pairEq.2.symm⟩
          · exact Or.inr ⟨entry, by simp [member], facts⟩

/-- Whatever the line, the two arrays end up with words of the line or with
their old contents. -/
theorem sscanf2_reads_words (line first second : Bytes) :
    ((sscanf2 line first second).1 = first ∨
      Word (sscanf2 line first second).1 ∧ (sscanf2 line first second).1 <:+: cstr line) ∧
    ((sscanf2 line first second).2 = second ∨
      Word (sscanf2 line first second).2 ∧ (sscanf2 line first second).2 <:+: cstr line) := by
  unfold sscanf2
  cases readFirst : scanWord (cstr line) with
  | none => simp
  | some read =>
      rcases read with ⟨word, rest⟩
      obtain ⟨isWord, inside, suffix⟩ := scan_word_sound readFirst
      cases readSecond : scanWord rest with
      | none =>
          simp only [readSecond, true_or, and_true]
          exact Or.inr ⟨isWord, inside⟩
      | some read =>
          rcases read with ⟨other, rest'⟩
          obtain ⟨otherWord, otherInside, _⟩ := scan_word_sound readSecond
          simp only [readSecond]
          exact ⟨Or.inr ⟨isWord, inside⟩,
            Or.inr ⟨otherWord, otherInside.trans suffix.isInfix⟩⟩

theorem clean_of_word_in_line {username password tail word : Bytes}
    (userField : FieldText username) (passField : FieldText password)
    (tailEnds : tail = [] ∨ tail = [newline]) (isWord : Word word)
    (inside : word <:+: cstr (username ++ blank :: (password ++ tail))) : CleanField word := by
  have noNul : (0 : Byte) ∉ username ++ blank :: (password ++ tail) := by
    simp only [List.mem_append, List.mem_cons, not_or]
    refine ⟨userField.noNul, by decide, passField.noNul, ?_⟩
    rcases tailEnds with empty | line <;> subst tail <;> decide
  rw [cstr_of_no_nul noNul] at inside
  have noBlank : blank ∉ word := by
    intro member
    have space := isWord.2 blank member
    simp [blank, isspace] at space
  have inField : word <:+: username ∨ word <:+: password := by
    rcases infix_of_separated noBlank inside with left | right
    · exact Or.inl left
    · rcases tailEnds with empty | line
      · subst tail
        exact Or.inr (by simpa using right)
      · subst tail
        rcases infix_of_separated isWord.no_newline right with left | right
        · exact Or.inr left
        · exact absurd (List.infix_nil.mp right) isWord.1
  refine ⟨⟨?_, isWord.no_newline, fun member => noNul (inside.subset member)⟩, isWord⟩
  rcases inField with left | right
  · exact left.length_le.trans userField.short
  · exact right.length_le.trans passField.short

/-- After one sign-in, the pair that the first buffer of its line reads back as
can log in, whatever the pair that signed in was. -/
theorem read_back_pair_logs_in (username password : Bytes)
    (userField : FieldText username) (passField : FieldText password)
    (first second : Bytes) (firstClean : CleanField first) (secondClean : CleanField second) :
    ∃ pair, CleanPair pair ∧
      (authenticate (first, second) 1 pair.1 pair.2 (userLine username password)).1 = 1 := by
  obtain ⟨tail, rest, buffers, tailEnds⟩ : ∃ tail rest, fgetsLoop lineRoom
      (userLine username password) = (username ++ blank :: (password ++ tail)) :: rest ∧
      (tail = [] ∨ tail = [newline]) := by
    have lines := fgets_loop_user_line username password [] userField passField
    rw [List.append_nil, fgets_loop_nil, List.append_nil] at lines
    rw [lines]
    by_cases small : username.length + password.length < 98
    · exact ⟨[newline], [], by simp [lineBuffers, small, userLine], Or.inr rfl⟩
    · exact ⟨[], [[newline]], by simp [lineBuffers, small], Or.inl rfl⟩
  have reads := sscanf2_reads_words (username ++ blank :: (password ++ tail)) first second
  refine ⟨sscanf2 (username ++ blank :: (password ++ tail)) first second, ⟨?_, ?_⟩, ?_⟩
  · rcases reads.1 with old | ⟨isWord, inside⟩
    · rw [old]
      exact firstClean
    · exact clean_of_word_in_line userField passField tailEnds isWord inside
  · rcases reads.2 with old | ⟨isWord, inside⟩
    · rw [old]
      exact secondClean
    · exact clean_of_word_in_line userField passField tailEnds isWord inside
  · unfold authenticate
    rw [if_pos rfl, buffers]
    simp [loginLoop]

/-- Logins are sound in every history of sign-ins with allowed pairs exactly
when every allowed pair is clean. -/
theorem login_sound_iff_clean (allowed : Bytes → Bytes → Prop) :
    (∀ calls, (∀ call ∈ calls, Admissible call ∧
        (call.mode = 2 → allowed call.username call.password)) → LoginSound calls) ↔
      ∀ username password, FieldText username → FieldText password →
        allowed username password → Word username ∧ Word password := by
  constructor
  · intro sound username password userField passField permitted
    obtain ⟨pair, pairClean, accepted⟩ := read_back_pair_logs_in username password
      userField passField [120] [120] (by decide) (by decide)
    let signIn : AuthCall := ⟨2, username, password, ([], [])⟩
    let login : AuthCall := ⟨1, pair.1, pair.2, ([120], [120])⟩
    have served : serve [] [signIn, login] = [(signIn, 1)] ++ (login, 1) :: [] := by
      have stored : authenticate ([], []) 2 username password [] =
          (1, userLine username password) := rfl
      simp only [serve, signIn, login, stored, accepted]
      rfl
    have admissible : ∀ call ∈ [signIn, login], Admissible call ∧
        (call.mode = 2 → allowed call.username call.password) := by
      intro call member
      rcases List.mem_pair.mp member with same | same
      · subst same
        exact ⟨⟨Or.inr rfl, userField, passField⟩, fun _ => permitted⟩
      · subst same
        exact ⟨⟨Or.inl rfl, pairClean.username.toFieldText, pairClean.password.toFieldText⟩,
          fun wrong => absurd wrong (show ¬(1 : Int) = 2 by decide)⟩
    obtain ⟨earlier, member, _, _, userEq, passEq⟩ :=
      sound _ admissible [(signIn, 1)] login [] served rfl
    have same : earlier = (signIn, 1) := by simpa using member
    subst same
    change username = pair.1 at userEq
    change password = pair.2 at passEq
    rw [userEq, passEq]
    exact ⟨pairClean.username.word, pairClean.password.word⟩
  · intro clean calls admissible before call after served login
    have signIns : ∀ call ∈ calls, call.mode = 2 →
        CleanPair (call.username, call.password) := by
      intro call member signs
      obtain ⟨fits, permitted⟩ := admissible call member
      have words := clean _ _ fits.username fits.password (permitted signs)
      exact ⟨⟨fits.username, words.1⟩, ⟨fits.password, words.2⟩⟩
    have outcome := serve_from_clean_file calls [] (by simp)
      (fun call member => (admissible call member).1.mode) signIns before call after served login
    simpa using outcome

/-- Signing in with the password `x y` lets the same user log in with `x`. -/
theorem login_with_part_of_password :
    ¬ ∀ calls, (∀ call ∈ calls, Admissible call) → LoginSound calls := by
  intro sound
  let signIn : AuthCall := ⟨2, [97, 108], [120, 32, 121], ([], [])⟩
  let login : AuthCall := ⟨1, [97, 108], [120], ([], [])⟩
  have admissible : ∀ call ∈ [signIn, login], Admissible call := by
    intro call member
    rcases List.mem_pair.mp member with same | same <;> subst same
    · exact ⟨Or.inr rfl, by decide, by decide⟩
    · exact ⟨Or.inl rfl, by decide, by decide⟩
  have served : serve [] [signIn, login] = [(signIn, 1)] ++ (login, 1) :: [] := by decide
  obtain ⟨earlier, member, _, _, _, passEq⟩ :=
    sound _ admissible [(signIn, 1)] login [] served rfl
  have same : earlier = (signIn, 1) := by simpa using member
  subst same
  exact absurd passEq (by decide)

end LinuxFff.LoginSoundness
