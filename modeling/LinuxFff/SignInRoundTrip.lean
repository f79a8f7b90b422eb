import LinuxFff.LoginSoundness

/-!
# Logging in after a sign-in

A pair that has signed in can log in from then on exactly when `%s` reads both
of its fields back as they were written. The lines of other users, clean or
not, do not matter: each of them fills buffers of its own.
-/

namespace LinuxFff.SignInRoundTrip

open LinuxFff.CString LinuxFff.UsersFile LinuxFff.LoginSoundness

set_option autoImplicit false

/-- Whatever else is called, once this pair has signed in its logins succeed. -/
def RoundTrip (username password : Bytes) : Prop :=
  ∀ calls, (∀ call ∈ calls, Admissible call) →
    ∀ before signIn after, serve [] calls = before ++ (signIn, 1) :: after →
      signIn.mode = 2 → signIn.username = username → signIn.password = password →
      ∀ login result, (login, result) ∈ after →
        login.mode = 1 → login.username = username → login.password = password → result = 1

theorem login_loop_append (username password first second : Bytes) (lines rest : List Bytes)
    (accepts : ∀ first second, loginLoop username password first second rest = true) :
    loginLoop username password first second (lines ++ rest) = true := by
  induction lines generalizing first second with
  | nil => exact accepts first second
  | cons line lines ih =>
      simp only [List.cons_append, loginLoop]
      split_ifs
      · rfl
      · exact ih _ _

theorem login_loop_of_mem (pairs : List (Bytes × Bytes)) (pair : Bytes × Bytes)
    (clean : CleanPair pair) (present : pair ∈ pairs) (first second : Bytes) :
    loginLoop pair.1 pair.2 first second (pairs.flatMap lineBuffers) = true := by
  induction pairs generalizing first second with
  | nil => cases present
  | cons head pairs ih =>
      rw [List.flatMap_cons]
      rcases List.mem_cons.mp present with same | later
      · rw [← same, login_loop_line _ _ _ _ _ _ clean, if_pos rfl]
      · exact login_loop_append _ _ _ _ _ _ fun first second => ih later first second

theorem result_on_file (call : AuthCall) (pairs : List (Bytes × Bytes))
    (admissible : Admissible call)
    (fields : ∀ pair ∈ pairs, FieldText pair.1 ∧ FieldText pair.2) :
    ∃ next, (call.result (fileOf pairs)).2 = fileOf next ∧
      (∀ pair ∈ next, FieldText pair.1 ∧ FieldText pair.2) ∧
      (∀ pair ∈ pairs, pair ∈ next) ∧
      (call.mode = 2 → (call.result (fileOf pairs)).1 = 1 →
        (call.username, call.password) ∈ next) := by
  unfold AuthCall.result authenticate
  rcases admissible.mode with login | signs
  · rw [login, if_pos rfl]
    exact ⟨pairs, rfl, fields, fun _ member => member, fun wrong => absurd wrong (by decide)⟩
  · rw [signs, if_neg (by decide), if_pos rfl]
    split_ifs with present
    · exact ⟨pairs, rfl, fields, fun _ member => member, fun _ wrong => absurd wrong (by decide)⟩
    · have file := file_of_append pairs (call.username, call.password)
      refine ⟨pairs ++ [(call.username, call.password)], file.symm, ?_, ?_, ?_⟩
      · intro pair member
        rcases List.mem_append.mp member with old | new
        · exact fields pair old
        · rw [List.mem_singleton.mp new]
          exact ⟨admissible.username, admissible.password⟩
      · exact fun pair member => List.mem_append.mpr (Or.inl member)
      · intro _ _
        simp

theorem login_of_recorded (call : AuthCall) (pairs : List (Bytes × Bytes))
    (fields : ∀ pair ∈ pairs, FieldText pair.1 ∧ FieldText pair.2) (login : call.mode = 1)
    (clean : CleanPair (call.username, call.password))
    (present : (call.username, call.password) ∈ pairs) :
    (call.result (fileOf pairs)).1 = 1 := by
  unfold AuthCall.result authenticate
  rw [login, if_pos rfl, fgets_loop_file_of pairs fields]
  simp only [login_loop_of_mem pairs _ clean present call.stale.1 call.stale.2, if_true]

section Histories

variable {username password : Bytes} {calls : List AuthCall} {pairs : List (Bytes × Bytes)}

theorem logins_of_recorded (clean : CleanPair (username, password))
    (admissible : ∀ call ∈ calls, Admissible call)
    (fields : ∀ pair ∈ pairs, FieldText pair.1 ∧ FieldText pair.2)
    (present : (username, password) ∈ pairs) (login : AuthCall) (result : Nat)
    (served : (login, result) ∈ serve (fileOf pairs) calls) (mode : login.mode = 1)
    (user : login.username = username) (pass : login.password = password) : result = 1 := by
  induction calls generalizing pairs with
  | nil => cases served
  | cons call rest ih =>
      obtain ⟨next, file, nextFields, kept, _⟩ := result_on_file call pairs
        (admissible call (by simp)) fields
      change (login, result) ∈ (call, (call.result (fileOf pairs)).1) ::
        serve (call.result (fileOf pairs)).2 rest at served
      rw [file] at served
      rcases List.mem_cons.mp served with here | later
      · obtain ⟨callEq, resultEq⟩ := Prod.mk.inj here
        subst callEq user pass
        rw [resultEq]
        exact login_of_recorded login pairs fields mode clean present
      · exact ih (fun other member => admissible other (by simp [member])) nextFields
          (kept _ present) later

theorem logins_after_sign_in (clean : CleanPair (username, password))
    (admissible : ∀ call ∈ calls, Admissible call)
    (fields : ∀ pair ∈ pairs, FieldText pair.1 ∧ FieldText pair.2)
    (before : List (AuthCall × Nat)) (signIn : AuthCall) (after : List (AuthCall × Nat))
    (served : serve (fileOf pairs) calls = before ++ (signIn, 1) :: after)
    (signs : signIn.mode = 2) (user : signIn.username = username)
    (pass : signIn.password = password) (login : AuthCall) (result : Nat)
    (later : (login, result) ∈ after) (mode : login.mode = 1)
    (sameUser : login.username = username) (samePass : login.password = password) :
    result = 1 := by
  induction calls generalizing pairs before with
  | nil => simp [serve] at served
  | cons call rest ih =>
      obtain ⟨next, file, nextFields, kept, gained⟩ := result_on_file call pairs
        (admissible call (by simp)) fields
      have others : ∀ other ∈ rest, Admissible other :=
        fun other member => admissible other (by simp [member])
      change (call, (call.result (fileOf pairs)).1) ::
        serve (call.result (fileOf pairs)).2 rest = _ at served
      rw [file] at served
      cases before with
      | nil =>
          simp only [List.nil_append, List.cons.injEq, Prod.mk.injEq] at served
          obtain ⟨⟨callEq, accepted⟩, restServed⟩ := served
          subst callEq user pass
          rw [← restServed] at later
          exact logins_of_recorded clean others nextFields (gained signs accepted) login result
            later mode sameUser samePass
      | cons head before =>
          simp only [List.cons_append, List.cons.injEq] at served
          exact ih others nextFields before served.2

end Histories

theorem login_loop_accepts_words (username password first second : Bytes) (lines : List Bytes)
    (firstWord : Word first) (secondWord : Word second)
    (accepted : loginLoop username password first second lines = true) :
    Word username ∧ Word password := by
  induction lines generalizing first second with
  | nil => cases accepted
  | cons line lines ih =>
      obtain ⟨readFirst, readSecond⟩ := sscanf2_reads_words line first second
      have nextFirst : Word (sscanf2 line first second).1 := by
        rcases readFirst with old | new
        · rw [old]
          exact firstWord
        · exact new.1
      have nextSecond : Word (sscanf2 line first second).2 := by
        rcases readSecond with old | new
        · rw [old]
          exact secondWord
        · exact new.1
      simp only [loginLoop] at accepted
      split_ifs at accepted with found
      · rw [← found.1, ← found.2]
        exact ⟨nextFirst, nextSecond⟩
      · exact ih _ _ nextFirst nextSecond accepted

/-- Logging in right after the sign-in, with words left in both arrays. -/
theorem words_of_round_trip {username password : Bytes} (userField : FieldText username)
    (passField : FieldText password) (roundTrip : RoundTrip username password) :
    Word username ∧ Word password := by
  let signIn : AuthCall := ⟨2, username, password, ([], [])⟩
  let login : AuthCall := ⟨1, username, password, ([120], [120])⟩
  have admissible : ∀ call ∈ [signIn, login], Admissible call := by
    intro call member
    rcases List.mem_pair.mp member with same | same <;> rw [same]
    · exact ⟨Or.inr rfl, userField, passField⟩
    · exact ⟨Or.inl rfl, userField, passField⟩
  have served : serve [] [signIn, login] = [] ++ (signIn, 1) ::
      [(login, (login.result (userLine username password)).1)] := rfl
  have accepted := roundTrip [signIn, login] admissible [] signIn _ served rfl rfl rfl
    login _ (List.mem_singleton.mpr rfl) rfl rfl rfl
  unfold AuthCall.result authenticate at accepted
  rw [if_pos rfl] at accepted
  apply login_loop_accepts_words username password [120] [120]
    (fgetsLoop lineRoom (userLine username password)) (by decide) (by decide)
  by_contra refused
  simp [login, refused] at accepted

/-- Every login after a sign-in succeeds exactly when both fields are
non-empty and free of white space. -/
theorem sign_in_round_trip_iff (username password : Bytes) (userField : FieldText username)
    (passField : FieldText password) :
    RoundTrip username password ↔ Word username ∧ Word password := by
  constructor
  · exact words_of_round_trip userField passField
  · rintro ⟨userWord, passWord⟩ calls admissible before signIn after served signs user pass
      login result later mode sameUser samePass
    have clean : CleanPair (username, password) := ⟨⟨userField, userWord⟩, ⟨passField, passWord⟩⟩
    have none : ∀ pair ∈ ([] : List (Bytes × Bytes)), FieldText pair.1 ∧ FieldText pair.2 := by
      simp
    exact logins_after_sign_in clean admissible none before signIn after served signs user pass
      login result later mode sameUser samePass

theorem al_logs_in_again : RoundTrip [97, 108] [120] :=
  (sign_in_round_trip_iff [97, 108] [120] (by decide) (by decide)).mpr (by decide)

/-- With the password `x y` the login after the sign-in fails. -/
theorem blank_in_password_locks_out :
    ¬∀ username password, FieldText username → FieldText password →
      RoundTrip username password := by
  intro roundTrip
  have passField : FieldText [120, 32, 121] := by decide
  have userField : FieldText [97, 108] := by decide
  have words := words_of_round_trip userField passField
    (roundTrip [97, 108] [120, 32, 121] userField passField)
  exact absurd words.2 (by decide)

end LinuxFff.SignInRoundTrip
