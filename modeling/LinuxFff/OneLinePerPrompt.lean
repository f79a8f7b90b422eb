import LinuxFff.FileStrings
import LinuxFff.LoginTranscript
import LinuxFff.RelayFidelity

/-!
# One typed line for each prompt

The client sends every line as one record of up to 1023 bytes. The menu reads
up to 1024 bytes and takes a whole line; a field has 50 bytes, and what a read
leaves of a longer line is the answer to the next prompt, or the first message
of the chat.
-/

namespace LinuxFff.OneLinePerPrompt

open LinuxFff.Authenticate LinuxFff.CString LinuxFff.FileStrings
open LinuxFff.RelayFidelity LinuxFff.SizeArith LinuxFff.StackArray
open LinuxFff.UsersFile hiding authenticate

set_option autoImplicit false

/-- A line as the user types it, without its newline. -/
structure Line where
  body : Bytes
  noNewline : newline ∉ body
  noNul : (0 : Byte) ∉ body
  short : body.length ≤ 1022

def Line.bytes (line : Line) : Bytes := line.body ++ [newline]

/-- The records that the loop of `client_tls_final.c` makes of the lines; its
array `input` may hold anything at first. -/
def typed (input : Bytes) (lines : List Line) : List Bytes :=
  (sendLoop input (fgetsLoop 1023 (lines.flatMap Line.bytes))).getD []

/-- The mode that the lines choose, and the lines behind the choice. -/
def afterMenu (abi : Abi) : List Line → Option (Int × List Line)
  | [] => none
  | line :: rest =>
      if Chosen (atoi abi line.bytes) then some (atoi abi line.bytes, rest)
      else afterMenu abi rest

/-- What the file loop of the mode finds in `users.txt`, if there is one. -/
def fileFits (mode : Int) (name word : Bytes) : Option Bytes → Bool
  | none => true
  | some file =>
      if mode = 1 then loginFits name word none none (fgetsLoop lineRoom file)
      else signInFits name none (fgetsLoop lineRoom file)

/-- The username and the password fit into 50 bytes with their newlines, and
`users.txt` fills every array that is compared with words that fit. -/
def linesFit (abi : Abi) (users : Option Bytes) (lines : List Line) : Bool :=
  match afterMenu abi lines with
  | none => true
  | some (_, []) => true
  | some (_, [name]) => name.bytes.length ≤ 50
  | some (mode, name :: word :: _) =>
      name.bytes.length ≤ 50 && word.bytes.length ≤ 50 && fileFits mode name.body word.body users

/-- How a run has dealt with the lines: it has consumed some of them whole, the
others are still to come, every string ended inside its array, and the decision
was about the last two lines that were consumed. -/
structure OneLineEach (lines : List Line) (progress : Progress Decision) : Prop where
  consumed : progress.session.answers =
    (lines.take progress.session.answers.length).map fun line => some line.bytes
  left : progress.session.peer.records =
    (lines.drop progress.session.answers.length).map Line.bytes
  inside : progress.session.inside = true
  credentials : ∀ decision after menu name word, progress = .goes decision after →
    lines.take progress.session.answers.length = menu ++ [name, word] →
      (decision.username = name.body ∧ decision.password = word.body) ∨
        (decision.auth = 0 ∧ (50 < name.bytes.length ∨ 50 < word.bytes.length))

/-- Whatever the arrays hold at first, and however far the run is followed. -/
def LinesKeptApart (abi : Abi) (users : Option Bytes) (lines : List Line) : Prop :=
  ∀ locals input fuel, OneLineEach lines
    (authenticate abi locals users fuel (Session.start (.sent (typed input lines) false)))

section Typing

theorem Line.bytes_no_nul (line : Line) : (0 : Byte) ∉ line.bytes := by
  rw [bytes, List.mem_append, not_or]
  exact ⟨line.noNul, by decide⟩

theorem Line.bytes_length (line : Line) : line.bytes.length = line.body.length + 1 := by
  rw [bytes, List.length_append, List.length_singleton]

theorem fgets_loop_lines (lines : List Line) :
    fgetsLoop 1023 (lines.flatMap Line.bytes) = lines.map Line.bytes := by
  induction lines with
  | nil => rfl
  | cons line rest ih =>
      have shape : (line :: rest).flatMap Line.bytes =
          line.body ++ newline :: rest.flatMap Line.bytes := by
        simp [Line.bytes]
      obtain ⟨byte, tail, head⟩ : ∃ byte tail,
          line.body ++ newline :: rest.flatMap Line.bytes = byte :: tail := by
        cases line.body <;> exact ⟨_, _, rfl⟩
      have room : line.body.length < 1023 := Nat.lt_succ_of_le line.short
      rw [shape, head, fgets_loop_cons, ← head, fgets_line 1023 _ _ line.noNewline room, ih]
      rfl

theorem typed_lines (input : Bytes) (lines : List Line) :
    typed input lines = lines.map Line.bytes := by
  have sent : sendLoop input (lines.map Line.bytes) = some (lines.map Line.bytes) := by
    apply send_loop_records
    · intro record member
      obtain ⟨line, -, same⟩ := List.mem_map.mp member
      exact same ▸ line.bytes_no_nul
    · intro record member
      obtain ⟨line, -, same⟩ := List.mem_map.mp member
      have short := line.short
      rw [← same, line.bytes_length]
      omega
  rw [typed, fgets_loop_lines, sent, Option.getD_some]

theorem sent_lines (input : Bytes) (lines : List Line) (closed : Bool) :
    Peer.sent (typed input lines) closed = ⟨lines.map Line.bytes, closed⟩ := by
  have kept : (lines.map Line.bytes).filter (fun record => !record.isEmpty) =
      lines.map Line.bytes := by
    apply List.filter_eq_self.mpr
    intro record member
    obtain ⟨line, -, same⟩ := List.mem_map.mp member
    simp [← same, Line.bytes]
  rw [Peer.sent, typed_lines, kept]

theorem menu_mode_line (abi : Abi) (behind : Bytes) (line : Line) :
    menuMode abi behind (some line.bytes) = atoi abi line.bytes ∧
      (menuBuffer behind (some line.bytes)).terminated = true := by
  have short := line.short
  have filled := @CharArray.zeroed_fill 1024 line.bytes behind line.bytes_no_nul
    (by rw [line.bytes_length]; omega)
  exact ⟨congrArg (atoi abi) filled.1, filled.2⟩

end Typing

structure Heard (session : Session) (taken rest : List Line) : Prop where
  answers : session.answers = taken.map fun line => some line.bytes
  records : session.peer = ⟨rest.map Line.bytes, false⟩
  inside : session.inside = true

section Reading

variable {session : Session} {taken rest : List Line} {line : Line}

theorem Heard.write (heard : Heard session taken rest) (text : Bytes) :
    Heard (session.sslWrite text) taken rest :=
  ⟨heard.answers, heard.records, heard.inside⟩

theorem heard_nothing (heard : Heard session taken []) (size : Nat) :
    session.peer.sslRead size = none := by
  rw [heard.records]
  rfl

theorem heard_line (heard : Heard session taken (line :: rest)) {size : Nat}
    (room : line.bytes.length ≤ size) :
    session.peer.sslRead size = some (some line.bytes, ⟨rest.map Line.bytes, false⟩) := by
  rw [heard.records]
  simp only [Peer.sslRead, List.map_cons, RecordStream.read, if_pos room]

theorem heard_part (heard : Heard session taken (line :: rest)) {size : Nat}
    (long : size < line.bytes.length) :
    session.peer.sslRead size = some (some (line.bytes.take size),
      ⟨line.bytes.drop size :: rest.map Line.bytes, false⟩) := by
  rw [heard.records]
  simp only [Peer.sslRead, List.map_cons, RecordStream.read, if_neg (Nat.not_le.mpr long)]

theorem menu_heard (abi : Abi) (behind : Bytes) (fuel : Nat) (heard : Heard session taken rest) :
    ∃ more left, rest = more ++ left ∧
      Heard (menuLoop abi behind fuel session).session (taken ++ more) left ∧
      (∀ mode after, menuLoop abi behind fuel session = .goes mode after →
        afterMenu abi rest = some (mode, left)) ∧
      (rest.length ≤ fuel → ∀ mode later, afterMenu abi rest = some (mode, later) →
        ∃ after, menuLoop abi behind fuel session = .goes mode after) := by
  induction fuel generalizing session taken rest with
  | zero =>
      refine ⟨[], rest, rfl, ?_, ?_, ?_⟩
      · rw [List.append_nil]
        exact heard.write menuText
      · intro mode after impossible
        cases impossible
      · intro enough mode later chosen
        rw [List.eq_nil_of_length_eq_zero (Nat.le_zero.mp enough)] at chosen
        cases chosen
  | succ fuel ih =>
      cases rest with
      | nil =>
          have waits := @ssl_read_none (session.sslWrite menuText) 1024
            (heard_nothing heard 1024)
          simp only [menuLoop, waits]
          refine ⟨[], [], rfl, ?_, ?_, ?_⟩
          · rw [List.append_nil]
            exact heard.write menuText
          · intro mode after impossible
            cases impossible
          · intro enough mode later chosen
            cases chosen
      | cons line rest =>
          have short := line.short
          have reads := @ssl_read_some (session.sslWrite menuText) 1024 _ _
            (heard_line heard (by rw [line.bytes_length]; omega))
          obtain ⟨mode, ends⟩ := menu_mode_line abi behind line
          simp only [menuLoop, reads, mode, afterMenu]
          by_cases chosen : Chosen (atoi abi line.bytes)
          case pos =>
            simp only [if_pos chosen]
            refine ⟨[line], rest, rfl, ⟨?_, rfl, ?_⟩, ?_, ?_⟩
            · simp [Progress.session, Session.look, Session.sslWrite, heard.answers]
            · simp [Progress.session, Session.look, Session.sslWrite, heard.inside, ends]
            · intro mode after goes
              cases goes
              rfl
            · intro enough mode later same
              cases same
              exact ⟨_, rfl⟩
          case neg =>
            simp only [if_neg chosen]
            have next : Heard ((Session.look { session.sslWrite menuText with
                peer := ⟨rest.map Line.bytes, false⟩
                answers := session.answers ++ [some line.bytes] }
              (menuBuffer behind (some line.bytes)).terminated).sslWrite tryAgain)
                (taken ++ [line]) rest := by
              refine ⟨?_, rfl, ?_⟩
              · simp [Session.look, Session.sslWrite, heard.answers]
              · simp [Session.look, Session.sslWrite, heard.inside, ends]
            obtain ⟨more, left, split, after, goes, reaches⟩ := ih next
            refine ⟨line :: more, left, by rw [split]; rfl, ?_, goes, ?_⟩
            · rw [List.append_assoc] at after
              exact after
            · intro enough mode later later'
              exact reaches (Nat.le_of_succ_le_succ enough) mode later later'

theorem prompt_heard (text : Bytes) (field : CharArray 50)
    (heard : Heard session taken (line :: rest)) (room : line.bytes.length ≤ 50) :
    ∃ filled after, prompt text field session = .goes filled after ∧
      filled.text = line.body ∧ filled.terminated = true ∧ Heard after (taken ++ [line]) rest := by
  have length := line.bytes_length
  obtain ⟨ends, reads, terminated⟩ := @CharArray.cut_line 50 field line.body line.noNul
    line.noNewline (by omega)
  refine ⟨_, _, prompt_goes field (heard_line heard room), reads, terminated, ?_, rfl, ?_⟩
  · simp [Session.look, Session.sslWrite, heard.answers]
  · change (session.inside && (field.fill (line.body ++ [newline])).endsLine) = true
    rw [heard.inside, ends]
    rfl

/-- A prompt for a line that does not fit takes its first 50 bytes. -/
theorem prompt_part (text : Bytes) (field : CharArray 50)
    (heard : Heard session taken (line :: rest)) (long : 50 < line.bytes.length) :
    ∃ filled after, prompt text field session = .goes filled after ∧
      after.answers = (taken.map fun line => some line.bytes) ++ [some (line.bytes.take 50)] ∧
      after.peer = ⟨line.bytes.drop 50 :: rest.map Line.bytes, false⟩ := by
  refine ⟨_, _, prompt_goes field (heard_part heard long), ?_, rfl⟩
  simp [Session.look, Session.sslWrite, heard.answers]

theorem prompt_waits (text : Bytes) (field : CharArray 50) (heard : Heard session taken []) :
    prompt text field session = .stops (session.sslWrite text) :=
  prompt_stops field (heard_nothing heard 50)

theorem prompt_answers (text : Bytes) (field : CharArray 50) (session : Session) :
    session.answers <+: (prompt text field session).session.answers := by
  unfold prompt
  cases read : (session.sslWrite text).sslRead 50 with
  | none => exact List.prefix_rfl
  | some result =>
      rcases result with ⟨answer, after⟩
      change session.answers <+: after.answers
      rw [(LoginTranscript.session_read read).1]
      exact List.prefix_append _ _

end Reading

section Decision

variable (locals : Locals) (mode : Int) (username password : CharArray 50)
variable (users : Option Bytes) (session : Session)

/-- Whether the file loop of the mode stays inside its arrays. -/
def usersInside : Option Bytes → Bool
  | none => true
  | some file => locals.fileInside mode username password file

theorem decide_auth_session :
    (decideAuth locals mode username password users session).session.answers = session.answers ∧
      (decideAuth locals mode username password users session).session.peer = session.peer ∧
      (decideAuth locals mode username password users session).session.inside =
        (session.inside && usersInside locals mode username password users) := by
  cases users with
  | none => exact ⟨rfl, rfl, (Bool.and_true _).symm⟩
  | some file => exact ⟨rfl, rfl, rfl⟩

variable {username password}

theorem users_inside_of_fits (nameEnds : username.terminated = true)
    (wordEnds : password.terminated = true)
    (words : fileFits mode username.text password.text users = true) :
    usersInside locals mode username password users = true := by
  have nothing : ∀ field : CharArray 50, Knows field none := by
    intro field word impossible
    cases impossible
  cases users with
  | none => rfl
  | some file =>
      simp only [usersInside, Locals.fileInside, fileFits] at words ⊢
      by_cases login : mode = 1
      · rw [if_pos login] at words ⊢
        exact login_inside_of_fits nameEnds wordEnds _ (nothing _) (nothing _) words
      · rw [if_neg login] at words ⊢
        exact sign_in_inside_of_fits nameEnds wordEnds _ (nothing _) words

/-- On a stack without zeros, an array is terminated only if it was filled. -/
theorem fits_of_users_inside
    (inside : usersInside someLocals mode username password users = true) :
    fileFits mode username.text password.text users = true := by
  have unset : ∀ field : CharArray 50, field.terminated = false → Mirrors field none := by
    intro field open'
    refine ⟨?_, fun _ => open'⟩
    intro word impossible
    cases impossible
  cases users with
  | none => rfl
  | some file =>
      simp only [usersInside, Locals.fileInside, fileFits] at inside ⊢
      by_cases login : mode = 1
      · rw [if_pos login] at inside ⊢
        exact login_fits_of_inside _ (unset _ (by decide)) (unset _ (by decide)) inside
      · rw [if_neg login] at inside ⊢
        exact sign_in_fits_of_inside _ (unset _ (by decide)) inside

end Decision

section Prompts

variable {abi : Abi} {locals : Locals} {users : Option Bytes} {fuel : Nat} {lines : List Line}
variable {session : Session} {taken rest : List Line}

theorem heard_start (input : Bytes) (lines : List Line) :
    Heard (Session.start (.sent (typed input lines) false)) [] lines :=
  ⟨rfl, sent_lines input lines false, rfl⟩

theorem line_fits_of_consumed {answers : List (Option Bytes)} {line : Line}
    (whole : answers = (lines.take answers.length).map fun line => some line.bytes)
    (split : lines = taken ++ line :: rest)
    (part : (taken.map fun line => some line.bytes) ++ [some (line.bytes.take 50)] <+: answers) :
    line.bytes.length ≤ 50 := by
  obtain ⟨later, same⟩ := part
  have given : answers[taken.length]? = some (some (line.bytes.take 50)) := by
    rw [← same]
    simp
  have long : taken.length < answers.length := by
    rw [← same]
    simp
  have typedLine : answers[taken.length]? = some (some line.bytes) := by
    rw [whole, List.getElem?_map, List.getElem?_take_of_lt long, split]
    simp
  rw [given, Option.some_inj, Option.some_inj] at typedLine
  have lengths := congrArg List.length typedLine
  rw [List.length_take] at lengths
  omega

theorem one_line_each_of_heard {progress : Progress Decision}
    (heard : Heard progress.session taken rest) (split : lines = taken ++ rest)
    (decided : ∀ decision after, progress = .goes decision after →
      ∃ menu name word, taken = menu ++ [name, word] ∧
        decision.username = name.body ∧ decision.password = word.body) :
    OneLineEach lines progress := by
  have count : progress.session.answers.length = taken.length := by
    rw [heard.answers, List.length_map]
  constructor
  case consumed =>
    rw [count, split, List.take_left]
    exact heard.answers
  case left =>
    rw [count, split, List.drop_left, heard.records]
  case inside => exact heard.inside
  case credentials =>
    intro decision after menu name word goes last
    obtain ⟨menu', name', word', same, username, password⟩ := decided decision after goes
    rw [count, split, List.take_left, same] at last
    have tails := (List.append_inj' last rfl).2
    simp only [List.cons.injEq, and_true] at tails
    exact Or.inl ⟨tails.1 ▸ username, tails.2 ▸ password⟩

/-- A run that stops in front of a read has decided nothing yet. -/
theorem one_line_each_stopped (heard : Heard session taken rest) (split : lines = taken ++ rest) :
    OneLineEach lines (.stops session) := by
  refine one_line_each_of_heard heard split ?_
  intro decision after impossible
  cases impossible

theorem one_line_each_decided {mode : Int} {username password : CharArray 50} {name word : Line}
    {menu : List Line} (heard : Heard session (menu ++ [name] ++ [word]) rest)
    (split : lines = menu ++ [name] ++ [word] ++ rest) (nameText : username.text = name.body)
    (wordText : password.text = word.body)
    (inside : usersInside locals mode username password users = true) :
    OneLineEach lines (decideAuth locals mode username password users session) := by
  obtain ⟨sameAnswers, samePeer, sameInside⟩ :=
    decide_auth_session locals mode username password users session
  refine one_line_each_of_heard ⟨sameAnswers.trans heard.answers,
    samePeer.trans heard.records, ?_⟩ split ?_
  · rw [sameInside, heard.inside, inside]
    rfl
  · intro decision after goes
    obtain ⟨told, decided⟩ := decide_auth_goes locals mode username password users session
    rw [decided] at goes
    cases goes
    refine ⟨menu, name, word, by simp, ?_, ?_⟩
    · cases users <;> exact nameText
    · cases users <;> exact wordText

theorem authenticate_menu_stops {after : Session}
    (stops : menuLoop abi locals.behindBuffer fuel session = .stops after) :
    authenticate abi locals users fuel session = .stops after := by
  simp only [authenticate, stops]

theorem authenticate_name_stops {mode : Int} {after waiting : Session}
    (menu : menuLoop abi locals.behindBuffer fuel session = .goes mode after)
    (stops : prompt usernamePrompt locals.username after = .stops waiting) :
    authenticate abi locals users fuel session = .stops waiting := by
  simp only [authenticate, menu, stops]

theorem authenticate_word_stops {mode : Int} {after named waiting : Session}
    {username : CharArray 50}
    (menu : menuLoop abi locals.behindBuffer fuel session = .goes mode after)
    (name : prompt usernamePrompt locals.username after = .goes username named)
    (stops : prompt passwordPrompt locals.password named = .stops waiting) :
    authenticate abi locals users fuel session = .stops waiting := by
  simp only [authenticate, menu, name, stops]

theorem authenticate_decides {mode : Int} {after named finished : Session}
    {username password : CharArray 50}
    (menu : menuLoop abi locals.behindBuffer fuel session = .goes mode after)
    (name : prompt usernamePrompt locals.username after = .goes username named)
    (word : prompt passwordPrompt locals.password named = .goes password finished) :
    authenticate abi locals users fuel session =
      decideAuth locals mode username password users finished := by
  simp only [authenticate, menu, name, word]

variable (users) in
theorem authenticate_answers {mode : Int} {after named : Session} {username : CharArray 50}
    (menu : menuLoop abi locals.behindBuffer fuel session = .goes mode after)
    (name : prompt usernamePrompt locals.username after = .goes username named) :
    named.answers <+: (authenticate abi locals users fuel session).session.answers := by
  have next := prompt_answers passwordPrompt locals.password named
  cases word : prompt passwordPrompt locals.password named with
  | stops waiting =>
      rw [word] at next
      rw [authenticate_word_stops menu name word]
      exact next
  | goes password finished =>
      rw [word] at next
      rw [authenticate_decides menu name word,
        (decide_auth_session locals mode username password users finished).1]
      exact next

/-- Lines that fit are consumed one for each prompt. -/
theorem lines_kept_apart_of_fit (lineFits : linesFit abi users lines = true) :
    LinesKeptApart abi users lines := by
  intro locals input fuel
  obtain ⟨menu, left, split, heard, chosen, -⟩ :=
    menu_heard abi locals.behindBuffer fuel (heard_start input lines)
  rw [List.nil_append] at heard
  cases loop : menuLoop abi locals.behindBuffer fuel
      (Session.start (.sent (typed input lines) false)) with
  | stops after =>
      rw [loop] at heard
      rw [authenticate_menu_stops loop]
      exact one_line_each_stopped heard split
  | goes mode after =>
      rw [loop] at heard
      rw [linesFit, chosen mode after loop] at lineFits
      rcases left with _ | ⟨name, left⟩
      case nil =>
        rw [authenticate_name_stops loop (prompt_waits usernamePrompt locals.username heard)]
        exact one_line_each_stopped (heard.write usernamePrompt) split
      case cons =>
        have nameRoom : name.bytes.length ≤ 50 := by
          cases left <;> simp_all
        obtain ⟨username, named, asked, nameText, nameEnds, heardName⟩ :=
          prompt_heard usernamePrompt locals.username heard nameRoom
        rw [← List.singleton_append, ← List.append_assoc] at split
        rcases left with _ | ⟨word, left⟩
        case nil =>
          rw [authenticate_word_stops loop asked
            (prompt_waits passwordPrompt locals.password heardName)]
          exact one_line_each_stopped (heardName.write passwordPrompt) split
        case cons =>
          simp only [Bool.and_eq_true, decide_eq_true_eq] at lineFits
          obtain ⟨⟨-, wordRoom⟩, words⟩ := lineFits
          obtain ⟨password, finished, askedAgain, wordText, wordEnds, heardWord⟩ :=
            prompt_heard passwordPrompt locals.password heardName wordRoom
          have split : lines = menu ++ [name] ++ [word] ++ left := by
            simpa using split
          rw [← nameText, ← wordText] at words
          rw [authenticate_decides loop asked askedAgain]
          exact one_line_each_decided heardWord split nameText wordText
            (users_inside_of_fits locals mode users nameEnds wordEnds words)

theorem name_fits_of_consumed {mode : Int} {after : Session} {name : Line} {menu : List Line}
    (loop : menuLoop abi locals.behindBuffer fuel session = .goes mode after)
    (heard : Heard after menu (name :: rest)) (split : lines = menu ++ name :: rest)
    (each : OneLineEach lines (authenticate abi locals users fuel session)) :
    name.bytes.length ≤ 50 := by
  by_contra long
  obtain ⟨username, named, asked, answers, -⟩ :=
    prompt_part usernamePrompt locals.username heard (Nat.lt_of_not_le long)
  have kept := authenticate_answers users loop asked
  rw [answers] at kept
  exact long (line_fits_of_consumed each.consumed split kept)

theorem word_fits_of_consumed {mode : Int} {after named : Session} {username : CharArray 50}
    {word : Line} (loop : menuLoop abi locals.behindBuffer fuel session = .goes mode after)
    (asked : prompt usernamePrompt locals.username after = .goes username named)
    (heard : Heard named taken (word :: rest)) (split : lines = taken ++ word :: rest)
    (each : OneLineEach lines (authenticate abi locals users fuel session)) :
    word.bytes.length ≤ 50 := by
  by_contra long
  obtain ⟨password, finished, askedAgain, answers, -⟩ :=
    prompt_part passwordPrompt locals.password heard (Nat.lt_of_not_le long)
  have kept : finished.answers <+:
      (authenticate abi locals users fuel session).session.answers := by
    rw [authenticate_decides loop asked askedAgain,
      (decide_auth_session locals mode username password users finished).1]
  rw [answers] at kept
  exact long (line_fits_of_consumed each.consumed split kept)

/-- A run of as many rounds as there are lines reaches every prompt. -/
theorem fit_of_lines_kept_apart (apart : LinesKeptApart abi users lines) :
    linesFit abi users lines = true := by
  have each := apart someLocals [] lines.length
  obtain ⟨menu, left, split, heard, chosen, reaches⟩ :=
    menu_heard abi someLocals.behindBuffer lines.length (heard_start [] lines)
  rw [List.nil_append] at heard
  unfold linesFit
  cases choice : afterMenu abi lines with
  | none => rfl
  | some result =>
      rcases result with ⟨mode, later⟩
      obtain ⟨after, loop⟩ := reaches (Nat.le_refl _) mode later choice
      rw [loop] at heard
      have same := chosen mode after loop
      rw [choice, Option.some_inj, Prod.mk.injEq] at same
      obtain ⟨-, same⟩ := same
      subst same
      rcases later with _ | ⟨name, later⟩
      case nil => rfl
      case cons =>
        have nameRoom := name_fits_of_consumed loop heard split each
        rcases later with _ | ⟨word, later⟩
        case nil => exact decide_eq_true nameRoom
        case cons =>
          obtain ⟨username, named, asked, nameText, nameEnds, heardName⟩ :=
            prompt_heard usernamePrompt someLocals.username heard nameRoom
          rw [← List.singleton_append, ← List.append_assoc] at split
          have wordRoom := word_fits_of_consumed loop asked heardName split each
          obtain ⟨password, finished, askedAgain, wordText, wordEnds, heardWord⟩ :=
            prompt_heard passwordPrompt someLocals.password heardName wordRoom
          have inside := each.inside
          rw [authenticate_decides loop asked askedAgain,
            (decide_auth_session someLocals mode username password users finished).2.2,
            heardWord.inside, Bool.true_and] at inside
          have words := fits_of_users_inside mode users inside
          rw [nameText, wordText] at words
          simp [nameRoom, wordRoom, words]

end Prompts

/-- One line for each prompt, exactly for lines that fit. -/
theorem lines_kept_apart_iff (abi : Abi) (users : Option Bytes) (lines : List Line) :
    LinesKeptApart abi users lines ↔ linesFit abi users lines = true :=
  ⟨fit_of_lines_kept_apart, lines_kept_apart_of_fit⟩

/-- The password prompt is answered with the end of a long username. -/
def longName : List Line :=
  [⟨ascii "1", by decide, by decide, by decide⟩,
    ⟨List.replicate 50 97, by decide, by decide, by decide⟩]

theorem long_name_runs_over : ¬LinesKeptApart .lp64 (some []) longName := by
  intro apart
  have lineFits := fit_of_lines_kept_apart apart
  revert lineFits
  decide

end LinuxFff.OneLinePerPrompt
