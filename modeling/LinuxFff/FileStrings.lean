import LinuxFff.Authenticate
import LinuxFff.CString

/-!
# The strings of the file loops

The loops over `users.txt` compare arrays that `sscanf` fills. An array that no
line has filled yet holds whatever was on the stack, and a word of 50 bytes does
not fit with its terminator. The conditions below look at the lines alone:
`user` and `pass` are the words stored last.
-/

namespace LinuxFff.FileStrings

open LinuxFff.Authenticate LinuxFff.CString LinuxFff.StackArray

set_option autoImplicit false

/-- In a login, every word fits, a comparison finds a stored username, and one
of passwords a stored password. -/
def loginFits (name word : Bytes) : Option Bytes → Option Bytes → List Bytes → Bool
  | _, _, [] => true
  | user, pass, line :: rest =>
      let user := (scanned line).1.or user
      let pass := (scanned line).2.or pass
      fits (scanned line).1 && fits (scanned line).2 && user.isSome &&
        if user = some name then
          pass.isSome && (pass = some word || loginFits name word user pass rest)
        else loginFits name word user pass rest

/-- In a sign-in, every username fits and a comparison finds a stored one. -/
def signInFits (name : Bytes) : Option Bytes → List Bytes → Bool
  | _, [] => true
  | user, line :: rest =>
      let user := (scanned line).1.or user
      fits (scanned line).1 && user.isSome &&
        (user = some name || signInFits name user rest)

/-- An array that holds the word stored last. -/
def Knows (field : CharArray 50) (known : Option Bytes) : Prop :=
  ∀ word, known = some word → field.text = word ∧ field.terminated = true

/-- Moreover, an array that nothing was stored in has no terminator. -/
structure Mirrors (field : CharArray 50) (known : Option Bytes) : Prop where
  knows : Knows field known
  unset : known = none → field.terminated = false

theorem scanned_no_nul {line word : Bytes}
    (stored : (scanned line).1 = some word ∨ (scanned line).2 = some word) :
    (0 : Byte) ∉ word := by
  have clean : (0 : Byte) ∉ cstr line := cstr_no_nul line
  unfold scanned at stored
  cases first : scanWord (cstr line) with
  | none => simp [first] at stored
  | some result =>
      rcases result with ⟨one, rest⟩
      obtain ⟨-, oneInside, restInside⟩ := scan_word_sound first
      simp only [first, Option.some.injEq] at stored
      rcases stored with same | other
      · exact fun member => clean (oneInside.subset (same ▸ member))
      · obtain ⟨⟨two, tail⟩, second, same⟩ := Option.map_eq_some_iff.mp other
        obtain ⟨-, twoInside, -⟩ := scan_word_sound second
        change two = word at same
        subst same
        exact fun member => clean (restInside.subset (twoInside.subset member))

section Store

variable {field : CharArray 50} {known stored : Option Bytes}

theorem knows_store (knows : Knows field known) (room : fits stored = true)
    (clean : ∀ word, stored = some word → (0 : Byte) ∉ word) :
    Knows (store field stored) (stored.or known) := by
  cases stored with
  | none => simpa [store] using knows
  | some word =>
      intro other same
      have equal : word = other := by simpa using same
      subst equal
      exact CharArray.fill_string (clean word rfl) (by simpa [fits] using room)

theorem mirrors_store (mirrors : Mirrors field known) (room : fits stored = true)
    (clean : ∀ word, stored = some word → (0 : Byte) ∉ word) :
    Mirrors (store field stored) (stored.or known) where
  knows := knows_store mirrors.knows room clean
  unset := by
    intro nothing
    obtain ⟨none, unknown⟩ := Option.or_eq_none_iff.mp nothing
    rw [none]
    exact mirrors.unset unknown

theorem Mirrors.stored_word (mirrors : Mirrors field known) (ends : field.terminated = true) :
    ∃ word, known = some word ∧ field.text = word := by
  cases known with
  | none => simp [mirrors.unset rfl] at ends
  | some word => exact ⟨word, rfl, (mirrors.knows word rfl).1⟩

end Store

section Loops

variable {username password fileUser filePass : CharArray 50} {user pass : Option Bytes}

theorem login_inside_of_fits (nameEnds : username.terminated = true)
    (wordEnds : password.terminated = true) (lines : List Bytes) (knowsUser : Knows fileUser user)
    (knowsPass : Knows filePass pass)
    (lineFits : loginFits username.text password.text user pass lines = true) :
    loginInside username password fileUser filePass lines = true := by
  induction lines generalizing fileUser filePass user pass with
  | nil => rfl
  | cons line rest ih =>
      simp only [loginFits, Bool.and_eq_true] at lineFits
      obtain ⟨⟨⟨roomUser, roomPass⟩, userStored⟩, compared⟩ := lineFits
      have userAfter := knows_store knowsUser roomUser fun word stored =>
        scanned_no_nul (Or.inl stored)
      have passAfter := knows_store knowsPass roomPass fun word stored =>
        scanned_no_nul (Or.inr stored)
      obtain ⟨name, named⟩ := Option.isSome_iff_exists.mp userStored
      obtain ⟨nameText, userEnds⟩ := userAfter name named
      simp only [loginInside, roomUser, roomPass, userEnds, nameEnds, Bool.and_self, Bool.true_and]
      by_cases same : name = username.text
      · rw [if_pos (by rw [named, same]), Bool.and_eq_true] at compared
        obtain ⟨word, worded⟩ := Option.isSome_iff_exists.mp compared.1
        obtain ⟨wordText, passEnds⟩ := passAfter word worded
        rw [if_pos (by rw [nameText, same]), passEnds, wordEnds]
        simp only [Bool.and_self, Bool.true_and, Bool.or_eq_true, decide_eq_true_eq]
        by_cases equal : word = password.text
        · exact Or.inl (by rw [wordText, equal])
        · right
          apply ih userAfter passAfter
          simpa [worded, equal] using compared.2
      · rw [if_neg (by simpa [named] using same)] at compared
        rw [if_neg (by simpa [nameText] using same)]
        exact ih userAfter passAfter compared

theorem login_fits_of_inside (lines : List Bytes) (mirrorsUser : Mirrors fileUser user)
    (mirrorsPass : Mirrors filePass pass)
    (inside : loginInside username password fileUser filePass lines = true) :
    loginFits username.text password.text user pass lines = true := by
  induction lines generalizing fileUser filePass user pass with
  | nil => rfl
  | cons line rest ih =>
      simp only [loginInside, Bool.and_eq_true] at inside
      obtain ⟨⟨⟨⟨roomUser, roomPass⟩, userEnds⟩, -⟩, compared⟩ := inside
      have userAfter := mirrors_store mirrorsUser roomUser fun word stored =>
        scanned_no_nul (Or.inl stored)
      have passAfter := mirrors_store mirrorsPass roomPass fun word stored =>
        scanned_no_nul (Or.inr stored)
      obtain ⟨name, named, nameText⟩ := userAfter.stored_word userEnds
      simp only [loginFits, roomUser, roomPass, named, Option.isSome_some, Bool.true_and,
        Option.some.injEq]
      by_cases same : name = username.text
      · rw [if_pos (by rw [nameText, same]), Bool.and_eq_true, Bool.and_eq_true] at compared
        obtain ⟨⟨passEnds, -⟩, later⟩ := compared
        obtain ⟨word, worded, wordText⟩ := passAfter.stored_word passEnds
        rw [if_pos same, worded]
        simp only [Option.isSome_some, Bool.true_and, Bool.or_eq_true, decide_eq_true_eq,
          Option.some.injEq] at later ⊢
        rcases later with found | goes
        · exact Or.inl (by rw [← wordText, found])
        · right
          rw [← named, ← worded]
          exact ih userAfter passAfter goes
      · rw [if_neg (by simpa [nameText] using same)] at compared
        rw [if_neg same, ← named]
        exact ih userAfter passAfter compared

theorem sign_in_inside_of_fits (nameEnds : username.terminated = true)
    (wordEnds : password.terminated = true) (lines : List Bytes) (knowsUser : Knows fileUser user)
    (lineFits : signInFits username.text user lines = true) :
    signInInside username password fileUser lines = true := by
  induction lines generalizing fileUser user with
  | nil => simp [signInInside, nameEnds, wordEnds]
  | cons line rest ih =>
      simp only [signInFits, Bool.and_eq_true] at lineFits
      obtain ⟨⟨roomUser, userStored⟩, compared⟩ := lineFits
      have userAfter := knows_store knowsUser roomUser fun word stored =>
        scanned_no_nul (Or.inl stored)
      obtain ⟨name, named⟩ := Option.isSome_iff_exists.mp userStored
      obtain ⟨nameText, userEnds⟩ := userAfter name named
      simp only [signInInside, roomUser, userEnds, nameEnds, Bool.and_self, Bool.true_and,
        Bool.or_eq_true, decide_eq_true_eq, nameText]
      simp only [Bool.or_eq_true, decide_eq_true_eq] at compared
      rcases compared with found | goes
      · exact Or.inl (by simpa [named] using found)
      · exact Or.inr (ih userAfter goes)

theorem sign_in_fits_of_inside (lines : List Bytes) (mirrorsUser : Mirrors fileUser user)
    (inside : signInInside username password fileUser lines = true) :
    signInFits username.text user lines = true := by
  induction lines generalizing fileUser user with
  | nil => rfl
  | cons line rest ih =>
      simp only [signInInside, Bool.and_eq_true] at inside
      obtain ⟨⟨⟨roomUser, userEnds⟩, -⟩, compared⟩ := inside
      have userAfter := mirrors_store mirrorsUser roomUser fun word stored =>
        scanned_no_nul (Or.inl stored)
      obtain ⟨name, named, nameText⟩ := userAfter.stored_word userEnds
      simp only [signInFits, roomUser, named, Option.isSome_some, Bool.true_and, Bool.or_eq_true,
        decide_eq_true_eq, Option.some.injEq] at compared ⊢
      rcases compared with found | goes
      · exact Or.inl (by rw [← nameText, found])
      · right
        rw [← named]
        exact ih userAfter goes

end Loops

end LinuxFff.FileStrings
