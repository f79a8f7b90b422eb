import LinuxFff.ArrayAccesses
import LinuxFff.PlainCredentials

/-!
# When the arrays of the two servers are left

`buffer[len] = 0` leaves `buffer` behind a chunk that fills it. A name of 50
bytes leaves no terminator in `username`, and a word of 50 bytes in `users.txt`
no room for one in `u` or `p`. Comparisons stop at the terminator of a word
that was stored; `p` has none when the file has a single word.
-/

namespace LinuxFff.BufferBounds

open LinuxFff.ArrayAccesses LinuxFff.Authenticate LinuxFff.ClientTables LinuxFff.CString
open LinuxFff.StackArray

set_option autoImplicit false

/-- The words that the loop takes from the file, up to the pair that it accepts.
A pair without its second word keeps the one before, which is `p`. -/
def wordsRead (name word : Bytes) : Bytes → List (Bytes × Option Bytes) → List Bytes
  | _, [] => []
  | p, (first, second) :: rest =>
      first :: second.toList ++
        if name = cstr first ∧ word = (second.map cstr).getD p then []
        else wordsRead name word ((second.map cstr).getD p) rest

def credentials : Bytes → List (Bytes × Option Bytes) → List (Bytes × Bytes)
  | _, [] => []
  | p, (first, second) :: rest =>
      (cstr first, (second.map cstr).getD p) :: credentials ((second.map cstr).getD p) rest

section Loop

variable {program : Program} {username password u p : CharArray 50}
variable {first : Bytes} {second : Option Bytes} {rest list : List (Bytes × Option Bytes)}

theorem store_word (u : CharArray 50) (room : first.length < 50) :
    (store u (some first)).text = cstr first ∧ (store u (some first)).terminated = true :=
  CharArray.fill_terminated room

theorem store_text (p : CharArray 50) (room : fits second = true) :
    (store p second).text = (second.map cstr).getD p.text := by
  cases second with
  | none => rfl
  | some word => exact (store_word p (by simpa [fits] using room)).1

theorem in_bounds_check_cons :
    InBounds program (checkLoop username password u p ((first, second) :: rest)).1 ↔
      (first.length < 50 ∧ fits second = true) ∧
      (username.text = cstr first → common password.text (store p second).text < 50) ∧
      (¬(username.text = cstr first ∧ password.text = (store p second).text) →
        InBounds program
          (checkLoop username password (store u (some first)) (store p second) rest).1) := by
  have userStore := @in_bounds_stored program .u rfl (some first)
  have passStore := @in_bounds_stored program .p rfl second
  have words := @in_bounds_compared program .password .p password (store p second) rfl rfl
  by_cases room : first.length < 50
  case pos =>
    obtain ⟨uText, uEnds⟩ := store_word u room
    have names := (@in_bounds_compared program .username .u username (store u (some first))
      rfl rfl).mpr (compared_terminated uEnds)
    have roomFits : fits (some first) = true := decide_eq_true room
    rw [checkLoop, ← uText]
    have stores : InBounds program (stored .u (some first) ++ stored .p second ++
        compared .username username .u (store u (some first))) ↔ fits second = true := by
      rw [in_bounds_append, in_bounds_append, userStore, passStore, and_iff_left names]
      exact and_iff_right roomFits
    by_cases sameName : username.text = (store u (some first)).text
    · by_cases sameWord : password.text = (store p second).text
      · rw [if_pos sameName, if_pos sameWord, in_bounds_append, stores, words]
        simp only [room, sameName, sameWord, true_and, and_true, true_implies, not_true_eq_false,
          false_implies]
      · rw [if_pos sameName, if_neg sameWord, in_bounds_append, in_bounds_append, stores, words]
        simp only [room, sameName, sameWord, true_and, and_false, true_implies,
          not_false_eq_true, and_assoc]
    · rw [if_neg sameName, in_bounds_append, stores]
      simp only [room, sameName, false_and, true_and, false_implies, not_false_eq_true,
        true_implies]
  case neg =>
    refine iff_of_false ?_ (fun parts => room parts.1.1)
    intro inside
    have stores : InBounds program (stored .u (some first)) := by
      rw [checkLoop] at inside
      split_ifs at inside
      · exact (in_bounds_append.mp (in_bounds_append.mp (in_bounds_append.mp inside).1).1).1
      · have rounds := (in_bounds_append.mp inside).1
        exact (in_bounds_append.mp (in_bounds_append.mp (in_bounds_append.mp rounds).1).1).1
      · exact (in_bounds_append.mp (in_bounds_append.mp (in_bounds_append.mp inside).1).1).1
    exact room (by simpa [fits] using userStore.mp stores)

theorem check_cons_accepts :
    (checkLoop username password u p ((first, second) :: rest)).2 = true ↔
      (username.text = (store u (some first)).text ∧ password.text = (store p second).text) ∨
        (checkLoop username password (store u (some first)) (store p second) rest).2 = true := by
  rw [checkLoop]
  split_ifs with sameName sameWord
  · exact iff_of_true rfl (Or.inl ⟨sameName, sameWord⟩)
  · exact (or_iff_right fun both => sameWord both.2).symm
  · exact (or_iff_right fun both => sameName both.1).symm

/-- The loop stays inside when every word that it reads leaves room for its
terminator, unless it compares the password with an array never stored to. -/
theorem in_bounds_check (ready : ∀ first rest, list = (first, none) :: rest → p.terminated = true) :
    InBounds program (checkLoop username password u p list).1 ↔
      ∀ word ∈ wordsRead username.text password.text p.text list, word.length < 50 := by
  induction list generalizing u p with
  | nil => exact iff_of_true in_bounds_nil (fun word impossible => absurd impossible
      List.not_mem_nil)
  | cons pair rest ih =>
      rcases pair with ⟨first, second⟩
      rw [in_bounds_check_cons]
      by_cases room : first.length < 50 ∧ fits second = true
      case pos =>
        have pText := store_text p room.2
        have pEnds : (store p second).terminated = true := by
          cases second with
          | none => exact ready first rest rfl
          | some word => exact (store_word p (by simpa [fits] using room.2)).2
        have later := @ih (store u (some first)) (store p second) (fun _ _ _ => pEnds)
        have head : ∀ word ∈ first :: second.toList, word.length < 50 := by
          intro word member
          rcases List.mem_cons.mp member with same | other
          · exact same ▸ room.1
          · rw [Option.mem_toList.mp other] at room
            simpa [fits] using room.2
        rw [later, pText, wordsRead, List.forall_mem_append]
        have compares : username.text = cstr first →
            common password.text ((second.map cstr).getD p.text) < 50 := by
          intro _
          rw [← pText]
          exact compared_terminated pEnds
        split_ifs with same
        · exact iff_of_true ⟨room, compares, fun different => absurd same different⟩
            ⟨head, fun word impossible => absurd impossible List.not_mem_nil⟩
        · constructor
          · exact fun parts => ⟨head, parts.2.2 same⟩
          · exact fun parts => ⟨room, compares, fun _ => parts.2⟩
      case neg =>
        refine iff_of_false (fun parts => room parts.1) ?_
        intro short
        rw [wordsRead, List.forall_mem_append] at short
        refine room ⟨short.1 first List.mem_cons_self, ?_⟩
        cases second with
        | none => rfl
        | some word =>
            have wordShort := short.1 word (List.mem_cons_of_mem _ (List.mem_singleton.mpr rfl))
            simpa [fits] using wordShort

theorem check_accepts_iff (inside : InBounds program (checkLoop username password u p list).1) :
    (checkLoop username password u p list).2 = true ↔
      (username.text, password.text) ∈ credentials p.text list := by
  induction list generalizing u p with
  | nil => exact iff_of_false Bool.false_ne_true List.not_mem_nil
  | cons pair rest ih =>
      rcases pair with ⟨first, second⟩
      obtain ⟨room, -, goesOn⟩ := in_bounds_check_cons.mp inside
      have uText := (store_word u room.1).1
      have pText := store_text p room.2
      rw [check_cons_accepts, credentials, List.mem_cons, Prod.mk.injEq, uText, ← pText]
      by_cases same : username.text = cstr first ∧ password.text = (store p second).text
      · exact iff_of_true (Or.inl same) (Or.inl same)
      · rw [or_iff_right same, or_iff_right same]
        exact ih (goesOn same)

theorem check_accepts_terminated
    (inside : InBounds program (checkLoop username password u p list).1)
    (accepts : (checkLoop username password u p list).2 = true) : username.terminated = true := by
  induction list generalizing u p with
  | nil => exact absurd accepts Bool.false_ne_true
  | cons pair rest ih =>
      rcases pair with ⟨first, second⟩
      obtain ⟨room, -, goesOn⟩ := in_bounds_check_cons.mp inside
      obtain ⟨uText, uEnds⟩ := store_word u room.1
      by_cases same : username.text = cstr first ∧ password.text = (store p second).text
      · rw [← CharArray.text_length_lt_iff, same.1, ← uText]
        exact CharArray.text_length_lt_iff.mpr uEnds
      · rw [check_cons_accepts, uText, or_iff_right same] at accepts
        exact ih (goesOn same) accepts

end Loop

section Users

theorem scan_pair_odd {fuel : Nat} {stream first : Bytes} {rest : List (Bytes × Option Bytes)}
    (found : scanPairsWithin fuel stream = (first, none) :: rest) : rest = [] := by
  cases fuel with
  | zero => cases found
  | succ fuel =>
      unfold scanPairsWithin scanPair at found
      cases one : scanWord stream with
      | none => simp [one] at found
      | some result =>
          cases two : scanWord result.2 with
          | none =>
              simp only [one, two, List.cons.injEq] at found
              rw [← found.2]
              cases fuel <;> rfl
          | some other => simp [one, two] at found

variable (setting : Setting) (stack : Stack) (username password : CharArray 50)

/-- What `check_user` needs of the file: every word that it takes leaves room
for its terminator. A file of a single word leaves `p` as it was, so where that
word is the name, `p` must not begin with the fifty bytes of a password array
without terminator. -/
structure UsersFit : Prop where
  short : ∀ word ∈ wordsRead username.text password.text stack.p.text
    (conversions (setting.users.getD [])), word.length < 50
  single : ∀ first, conversions (setting.users.getD []) = [(first, none)] →
    username.text = cstr first → common password.text stack.p.text < 50

theorem in_bounds_check_user {program : Program} :
    InBounds program (checkUser setting stack username password).1 ↔
      UsersFit setting stack username password := by
  have parts : UsersFit setting stack username password ↔
      (∀ word ∈ wordsRead username.text password.text stack.p.text
        (conversions (setting.users.getD [])), word.length < 50) ∧
      ∀ first, conversions (setting.users.getD []) = [(first, none)] →
        username.text = cstr first → common password.text stack.p.text < 50 :=
    ⟨fun fit => ⟨fit.short, fit.single⟩, fun fit => ⟨fit.1, fit.2⟩⟩
  have odd : ∀ first rest, conversions (setting.users.getD []) = (first, none) :: rest →
      rest = [] := fun first rest => scan_pair_odd
  rw [parts, checkUser]
  generalize conversions (setting.users.getD []) = list at odd ⊢
  rcases list with _ | ⟨⟨first, second⟩, rest⟩
  case nil =>
    rw [in_bounds_check (by simp)]
    exact (and_iff_left (by simp)).symm
  case cons =>
    cases second with
    | some other =>
        rw [in_bounds_check (by simp)]
        exact (and_iff_left (by simp)).symm
    | none =>
        have last := odd first rest rfl
        subst last
        have read : wordsRead username.text password.text stack.p.text [(first, none)] =
            [first] := by
          simp [wordsRead]
        rw [in_bounds_check_cons, read]
        simp only [fits, and_true, List.forall_mem_singleton, List.cons.injEq, Prod.mk.injEq,
          forall_eq', checkLoop, in_bounds_nil, implies_true]
        rfl

end Users

section Verdict

theorem fscanf2_scan_pair (stream p : Bytes) :
    PlainCredentials.fscanf2 stream p = (scanPair stream).map fun found =>
      (cstr found.1, (found.2.1.map cstr).getD p, found.2.2) := by
  unfold PlainCredentials.fscanf2 scanPair
  cases one : scanWord stream with
  | none => rfl
  | some result =>
      cases two : scanWord result.2 with
      | none => simp only [two, Option.map_some, Option.map_none, Option.getD_none]
      | some other => simp only [two, Option.map_some, Option.getD_some]

theorem check_loop_credentials (name word : Bytes) (fuel other : Nat) (p stream : Bytes)
    (enough : stream.length < fuel) (alsoEnough : stream.length ≤ other) :
    PlainCredentials.checkLoop name word fuel p stream = some 1 ↔
      (name, word) ∈ credentials p (scanPairsWithin other stream) := by
  induction fuel generalizing p stream other with
  | zero => omega
  | succ fuel ih =>
      have read := fscanf2_scan_pair stream p
      cases other with
      | zero =>
          rw [List.eq_nil_of_length_eq_zero (Nat.le_zero.mp alsoEnough)]
          exact iff_of_false (fun impossible => by cases impossible) List.not_mem_nil
      | succ other =>
          cases found : scanPair stream with
          | none =>
              rw [found, Option.map_none] at read
              simp only [PlainCredentials.checkLoop, read, scanPairsWithin, found, credentials]
              exact iff_of_false (by decide) List.not_mem_nil
          | some result =>
              rcases result with ⟨first, second, rest⟩
              rw [found, Option.map_some] at read
              have shorter : rest.length < stream.length := PlainCredentials.fscanf2_shorter read
              have later := ih other ((second.map cstr).getD p) rest (by omega) (by omega)
              simp only [PlainCredentials.checkLoop, read, scanPairsWithin, found, credentials,
                List.mem_cons, Prod.mk.injEq]
              by_cases same : name = cstr first ∧ word = (second.map cstr).getD p
              · rw [if_pos same]
                exact iff_of_true rfl (Or.inl same)
              · rw [if_neg same, or_iff_right same]
                exact later

/-- Inside its arrays, `check_user` decides as it does on strings. -/
theorem check_user_decides (setting : Setting) (stack : Stack) (username password : CharArray 50)
    (fit : UsersFit setting stack username password) :
    (checkUser setting stack username password).2 = true ↔
      PlainCredentials.checkUser stack.p.text username.text password.text
        (setting.users.getD []) = some 1 := by
  have inside : InBounds .server (checkUser setting stack username password).1 :=
    (in_bounds_check_user setting stack username password).mpr fit
  rw [checkUser, check_accepts_iff inside]
  exact (check_loop_credentials _ _ _ _ _ _ (Nat.lt_succ_self _) (Nat.le_refl _)).symm

end Verdict

section Registered

theorem word_of_pairs {pairs : List (Bytes × Bytes)} {word : Bytes} (isWord : Word word)
    (inside : word <:+: UsersFile.fileOf pairs)
    (short : ∀ pair ∈ pairs, pair.1.length < 50 ∧ pair.2.length < 50) : word.length < 50 := by
  have noSpace : ∀ byte, isspace byte = true → byte ∉ word := by
    intro byte space member
    exact absurd space (by simp [isWord.2 byte member])
  induction pairs with
  | nil =>
      rw [List.infix_nil.mp inside]
      decide
  | cons pair pairs ih =>
      have shape : UsersFile.fileOf (pair :: pairs) =
          pair.1 ++ blank :: (pair.2 ++ newline :: UsersFile.fileOf pairs) := by
        simp [UsersFile.fileOf, UsersFile.userLine]
      obtain ⟨shortFirst, shortSecond⟩ := short pair List.mem_cons_self
      rw [shape] at inside
      rcases infix_of_separated (noSpace blank (by decide)) inside with name | rest
      · exact Nat.lt_of_le_of_lt name.length_le shortFirst
      · rcases infix_of_separated (noSpace newline (by decide)) rest with field | later
        · exact Nat.lt_of_le_of_lt field.length_le shortSecond
        · exact ih later fun other member => short other (List.mem_cons_of_mem _ member)

theorem words_read_in_file {fuel : Nat} {name word p stream found : Bytes}
    (member : found ∈ wordsRead name word p (scanPairsWithin fuel stream)) :
    Word found ∧ found <:+: stream := by
  induction fuel generalizing p stream with
  | zero => cases member
  | succ fuel ih =>
      unfold scanPairsWithin scanPair at member
      cases one : scanWord stream with
      | none => simp [one, wordsRead] at member
      | some result =>
          rcases result with ⟨first, middle⟩
          obtain ⟨firstWord, firstInside, middleInside⟩ := scan_word_sound one
          cases two : scanWord middle with
          | none =>
              have ended : scanPairsWithin fuel [] = [] := by cases fuel <;> rfl
              simp only [one, two, wordsRead, ended, Option.toList_none, ite_self,
                List.append_nil, List.mem_singleton] at member
              exact member ▸ ⟨firstWord, firstInside⟩
          | some result =>
              rcases result with ⟨second, rest⟩
              obtain ⟨secondWord, secondInside, restInside⟩ := scan_word_sound two
              simp only [one, two, wordsRead, Option.toList_some, List.cons_append,
                List.nil_append, List.mem_cons] at member
              rcases member with same | same | later
              · exact same ▸ ⟨firstWord, firstInside⟩
              · exact same ▸ ⟨secondWord, secondInside.trans middleInside.isInfix⟩
              · split at later
                · cases later
                · obtain ⟨laterWord, laterInside⟩ := ih later
                  exact ⟨laterWord, (laterInside.trans restInside.isInfix).trans
                    middleInside.isInfix⟩

/-- Registrations of fields that end in their arrays leave no word that is too
long for `u` or `p`. -/
theorem registered_words_short (pairs : List (Bytes × Bytes)) (name word p : Bytes)
    (short : ∀ pair ∈ pairs, pair.1.length < 50 ∧ pair.2.length < 50) :
    ∀ found ∈ wordsRead name word p (conversions (PlainCredentials.registerAll [] pairs)),
      found.length < 50 := by
  intro found member
  obtain ⟨isWord, inside⟩ := words_read_in_file member
  have file := PlainCredentials.register_all_file [] pairs
  change PlainCredentials.registerAll [] pairs = UsersFile.fileOf pairs at file
  rw [file] at inside
  exact word_of_pairs isWord inside short

end Registered

def Admitted (setting : Setting) (stack : Stack) (input : Received) : Prop :=
  setting.clientCount < maxClients ∧
    (modeOf setting stack input = 2 ∨ modeOf setting stack input = 1 ∧
      ((delivered stack.username input.username).text,
        (delivered stack.password input.password).text) ∈
          credentials stack.p.text (conversions (setting.users.getD [])))

def ChatFits (chat : List (Chunk 1024)) : Prop := ∀ chunk ∈ chat, chunk.bytes.length < 1024

def ConnectionFits (setting : Setting) (stack : Stack) (input : Received) : Program → Prop
  | .server =>
      (modeOf setting stack input = 1 → UsersFit setting stack
        (delivered stack.username input.username) (delivered stack.password input.password)) ∧
      (Admitted setting stack input → ChatFits input.chat) ∧
      (modeOf setting stack input = 2 → setting.clientCount < maxClients →
        (delivered stack.username input.username).terminated = true)
  | .serverTls =>
      ChatFits input.chat ∧
        (input.chat ≠ [] → (delivered stack.username input.username).terminated = true)

section Connections

variable (setting : Setting) (stack : Stack) (input : Received)

theorem server_kept_iff :
    InBounds .server (connection .server setting stack input).checkUser ∧
      InBounds .server (connection .server setting stack input).handleClient ↔
      ConnectionFits setting stack input .server := by
  have chat := @in_bounds_handle_client .server setting stack.buffer
    (strncpy (delivered stack.username input.username) stack.behindCli) input.chat
  have check := @in_bounds_check_user setting stack (delivered stack.username input.username)
    (delivered stack.password input.password) .server
  simp only [strncpy_terminated, true_or, true_implies] at chat
  simp only [connection, ConnectionFits, Admitted]
  generalize modeOf setting stack input = mode
  by_cases login : mode = 1
  case pos =>
    subst login
    simp only [if_true, true_and, true_implies, Int.reduceEq, or_false, false_or, false_implies,
      and_true]
    constructor
    · rintro ⟨checkInside, chatInside⟩
      refine ⟨check.mp checkInside, ?_⟩
      rintro ⟨room, listed⟩
      rw [if_pos ⟨(check_accepts_iff checkInside).mpr listed, room⟩] at chatInside
      exact (chat.mp chatInside).1
    · rintro ⟨fit, short⟩
      have checkInside := check.mpr fit
      refine ⟨checkInside, ?_⟩
      split
      case isTrue admitted =>
        exact chat.mpr ⟨short ⟨admitted.2, (check_accepts_iff checkInside).mp admitted.1⟩,
          check_accepts_terminated checkInside admitted.1⟩
      case isFalse => exact in_bounds_nil
  case neg =>
    simp only [login, if_false, in_bounds_nil, true_and, false_and, or_false, false_implies,
      Bool.false_eq_true, false_or]
    constructor
    · intro chatInside
      constructor
      · rintro ⟨room, signIn⟩
        rw [if_pos ⟨signIn, room⟩] at chatInside
        exact (chat.mp chatInside).1
      · intro signIn room
        rw [if_pos ⟨signIn, room⟩] at chatInside
        exact (chat.mp chatInside).2
    · rintro ⟨short, ends⟩
      split
      case isTrue admitted =>
        exact chat.mpr ⟨short ⟨admitted.2, admitted.1⟩, ends admitted.1 admitted.2⟩
      case isFalse => exact in_bounds_nil

theorem server_tls_kept_iff :
    InBounds .serverTls (connection .serverTls setting stack input).checkUser ∧
      InBounds .serverTls (connection .serverTls setting stack input).handleClient ↔
      ConnectionFits setting stack input .serverTls := by
  have chat := @in_bounds_handle_client .serverTls setting stack.buffer
    (strncpy (delivered stack.username input.username) stack.behindCli) input.chat
  simp only [strncpy_terminated, reduceCtorEq, false_or] at chat
  exact (and_iff_right in_bounds_nil).trans chat

end Connections

/-- Every access of `main`, `check_user` and `handle_client` is inside its array
exactly when the connection fits. The accesses of `register_user`, which `main`
hands its arrays to, are inside exactly when both strings end in them. -/
theorem arrays_kept_iff (program : Program) (setting : Setting) (stack : Stack)
    (input : Received) :
    (InBounds program (connection program setting stack input).main ∧
        InBounds program (connection program setting stack input).checkUser ∧
        InBounds program (connection program setting stack input).handleClient ↔
      ConnectionFits setting stack input program) ∧
    (InBounds program (connection program setting stack input).registerUser ↔
      (program = .server → modeOf setting stack input = 2 →
        (delivered stack.username input.username).terminated = true ∧
          (delivered stack.password input.password).terminated = true)) := by
  rw [and_iff_right (in_bounds_main setting stack input)]
  cases program with
  | server =>
      refine ⟨server_kept_iff setting stack input, ?_⟩
      by_cases signIn : modeOf setting stack input = 2
      case pos =>
        have names := @in_bounds_scanned .server .username 50
          (delivered stack.username input.username) rfl
        have words := @in_bounds_scanned .server .password 50
          (delivered stack.password input.password) rfl
        simp only [connection, signIn, if_true, in_bounds_append, names, words, true_implies]
      case neg =>
        simp only [connection, signIn, if_false, in_bounds_nil, false_implies, implies_true]
  | serverTls =>
      refine ⟨server_tls_kept_iff setting stack input, ?_⟩
      exact iff_of_true in_bounds_nil (fun impossible => absurd impossible (by decide))

section FullChunk

def field (name : Bytes) (short : name.length ≤ 50) : Chunk 50 where
  bytes := name ++ List.replicate (50 - name.length) 0
  positive := by
    rw [List.length_append, List.length_replicate]
    omega
  room := by
    rw [List.length_append, List.length_replicate]
    omega

def fullChunk : Chunk 1024 where
  bytes := List.replicate 1024 97
  positive := by
    rw [List.length_replicate]
    omega
  room := by rw [List.length_replicate]

def firstSetting : Setting where
  users := none
  chatlog := none
  clientCount := 0
  readInt := fun bytes => bytes.foldr (fun byte value => byte.toNat + 256 * value) 0

def zeroStack : Stack where
  mode := List.replicate 4 0
  username := CharArray.zeroed 50 []
  password := CharArray.zeroed 50 []
  u := CharArray.zeroed 50 []
  p := CharArray.zeroed 50 []
  behindCli := []
  buffer := CharArray.zeroed 1024 []

def signsIn (chat : List (Chunk 1024)) : Received where
  mode := some ⟨[2, 0, 0, 0], by decide, by decide⟩
  username := some (field (ascii "al") (by decide))
  password := some (field (ascii "pw") (by decide))
  chat := chat

/-- The terminator behind a chunk of 1024 bytes is stored outside `buffer`. -/
theorem full_chunk_leaves_buffer :
    ¬(InBounds .server (connection .server firstSetting zeroStack (signsIn [fullChunk])).main ∧
      InBounds .server
        (connection .server firstSetting zeroStack (signsIn [fullChunk])).checkUser ∧
      InBounds .server
        (connection .server firstSetting zeroStack (signsIn [fullChunk])).handleClient) := by
  rintro ⟨-, inside⟩
  obtain ⟨-, short, -⟩ := (server_kept_iff firstSetting zeroStack (signsIn [fullChunk])).mp inside
  have admitted : Admitted firstSetting zeroStack (signsIn [fullChunk]) :=
    ⟨by decide, Or.inl (by decide)⟩
  have size : fullChunk.bytes.length = 1024 := List.length_replicate
  have below := short admitted fullChunk (List.mem_singleton.mpr rfl)
  omega

end FullChunk

end LinuxFff.BufferBounds
