import LinuxFff.LoginSoundness
import LinuxFff.MessageAuthors
import LinuxFff.SignInRace

/-!
# Accounts and chat of `server_tls_final.c`

Here the threads that are in `authenticate` work on `users.txt`, while the others chat: the file
steps of sign-ins and logins, the accesses to `clients[]` and the writes of broadcasts mix in any
order. Whatever anybody gets to read was said by a session that gave a username and a password
which stand in the file.
-/

namespace LinuxFff.AccountChat

open LinuxFff.CString LinuxFff.StepSystem
open LinuxFff.MessageAuthors LinuxFff.UsersFile
open LinuxFff.SignInRace (Caller)
open LinuxFff.TlsServer (Message Notice Session)

set_option autoImplicit false

/-- A login; `stale` is what `file_user` and `file_pass` hold before the first line is read. -/
structure Login where
  username : Bytes
  password : Bytes
  stale : Bytes × Bytes
  verdict : Option Bool
  deriving DecidableEq

structure State where
  signIns : SignInRace.State
  logins : Nat → Option Login
  chat : TlsThreads.State

def started (pairs : List (Bytes × Bytes)) : State :=
  ⟨SignInRace.initial pairs, fun _ => none, TlsThreads.initial⟩

/-- `signIn` and `login` are the menu and the prompts, with what the client has sent. -/
inductive Action where
  | signIn (session : Nat) (username password fileUser : Bytes)
  | openFile (session : Nat)
  | scan (session : Nat)
  | finish (session : Nat)
  | login (session : Nat) (username password : Bytes) (stale : Bytes × Bytes)
  | check (session : Nat)
  | fopenFails (session : Nat)
  | answer (session : Nat)
  | chat (action : TlsThreads.Action)

def State.authenticating (state : State) (session : Nat) : Bool :=
  match state.chat.sessions session with
  | some found => found.phase == .authenticating
  | none => false

def State.fileStep (state : State) (session : Nat) (action : SignInRace.Action) : Option State :=
  if state.authenticating session then
    (SignInRace.step state.signIns action).map fun signIns => { state with signIns }
  else none

/-- The value of `auth` when the file has been read, and the username. -/
def State.verdict (state : State) (session : Nat) : Option (Option Bytes) :=
  match state.signIns.callers session with
  | some caller =>
      match caller.phase with
      | .returned auth => some (if auth = 1 then some caller.username else none)
      | _ => none
  | none =>
      (state.logins session).bind fun login =>
        login.verdict.map fun auth => if auth then some login.username else none

def State.beforeOpen (state : State) (session : Nat) : Bool :=
  match state.signIns.callers session with
  | some caller => caller.phase == .starting
  | none => (state.logins session).any fun login => login.verdict == none

def authenticated (action : TlsThreads.Action) : Bool :=
  match action with
  | .outside (.authenticate _ _) => true
  | _ => false

def State.chatStep (state : State) (action : TlsThreads.Action) : Option State :=
  (TlsThreads.step state.chat action).map fun chat => { state with chat }

def step (state : State) : Action → Option State
  | .signIn session username password fileUser =>
      if state.logins session = none then
        state.fileStep session (.spawn session username password fileUser)
      else none
  | .openFile session => state.fileStep session (.openFile session)
  | .scan session => state.fileStep session (.scan session)
  | .finish session => state.fileStep session (.finish session)
  | .login session username password stale =>
      if state.authenticating session ∧ state.signIns.callers session = none ∧
          state.logins session = none then
        some { state with
          logins := Function.update state.logins session
            (some ⟨username, password, stale, none⟩) }
      else none
  | .check session =>
      match state.logins session with
      | some login =>
          if state.authenticating session ∧ login.verdict = none then
            some { state with
              logins := Function.update state.logins session (some { login with
                verdict := some (loginLoop login.username login.password login.stale.1
                  login.stale.2 (fgetsLoop lineRoom state.signIns.users)) }) }
          else none
      | none => none
  | .fopenFails session =>
      if state.beforeOpen session then
        state.chatStep (.outside (.authenticate session none))
      else none
  | .answer session =>
      match state.verdict session with
      | some result => state.chatStep (.outside (.authenticate session result))
      | none => none
  | .chat action => if authenticated action then none else state.chatStep action

/-- What a successful sign-in of the session has put into the file. -/
def State.signedIn (state : State) (session : Nat) : Option (Bytes × Bytes) :=
  (state.signIns.callers session).bind fun caller =>
    if caller.phase = .returned 1 then some (caller.username, caller.password) else none

/-- The username and the password of the session have been accepted, by a sign-in or by a
login. -/
inductive Gave (state : State) (session : Nat) : Bytes × Bytes → Prop where
  | signIn (caller : Caller) (lookup : state.signIns.callers session = some caller)
      (accepted : caller.phase = .returned 1) :
      Gave state session (caller.username, caller.password)
  | login (login : Login) (unsigned : state.signIns.callers session = none)
      (lookup : state.logins session = some login) (accepted : login.verdict = some true) :
      Gave state session (login.username, login.password)

/-- Usernames and passwords of sign-ins are words. -/
def CleanSignIn (_ : State) : Action → Prop
  | .signIn _ username password _ => CleanPair (username, password)
  | _ => True

instance decidableCleanSignIn (state : State) (action : Action) :
    Decidable (CleanSignIn state action) := by
  unfold CleanSignIn
  cases action <;> infer_instance

/-- No scan while another sign-in under the same username is between its scan and its append. -/
def SoloScan (state : State) : Action → Prop
  | .scan session => SignInRace.SoloScan state.signIns (.scan session)
  | _ => True

inductive Effect (state : State) : Action → State → Prop where
  | file (action : Action) (fileAction : SignInRace.Action) (signIns : SignInRace.State)
      (moved : SignInRace.step state.signIns fileAction = some signIns)
      (clean : CleanSignIn state action → SignInRace.CleanSpawn state.signIns fileAction)
      (solo : SoloScan state action → SignInRace.SoloScan state.signIns fileAction)
      (apart : ∀ session, (signIns.callers session).isSome →
        state.signIns.callers session = none → state.logins session = none) :
      Effect state action { state with signIns }
  | login (session : Nat) (username password : Bytes) (stale : Bytes × Bytes)
      (unsigned : state.signIns.callers session = none) (fresh : state.logins session = none) :
      Effect state (.login session username password stale) { state with
        logins := Function.update state.logins session (some ⟨username, password, stale, none⟩) }
  | check (session : Nat) (login : Login) (lookup : state.logins session = some login)
      (pending : login.verdict = none) :
      Effect state (.check session) { state with
        logins := Function.update state.logins session (some { login with
          verdict := some (loginLoop login.username login.password login.stale.1
            login.stale.2 (fgetsLoop lineRoom state.signIns.users)) }) }
  | answer (action : Action) (session : Nat) (result : Option Bytes) (chat : TlsThreads.State)
      (accepted : ∀ username, result = some username → ∃ password,
        Gave state session (username, password))
      (moved : TlsThreads.step state.chat (.outside (.authenticate session result)) = some chat) :
      Effect state action { state with chat }
  | chat (action : TlsThreads.Action) (chat : TlsThreads.State)
      (other : authenticated action = false)
      (moved : TlsThreads.step state.chat action = some chat) :
      Effect state (.chat action) { state with chat }

section SignIns

variable {signIns next : SignInRace.State} {action : SignInRace.Action} {index : Nat}
  {caller moved : Caller}

/-- One thread moves: a new one, or one that has not returned yet and keeps its username and
password; if it returns 1, it has put them into the file. -/
theorem sign_in_moves (stepped : SignInRace.step signIns action = some next) :
    ∃ index moved, next.callers = Function.update signIns.callers index (some moved) ∧
      ((∃ username password fileUser, action = .spawn index username password fileUser ∧
          signIns.callers index = none ∧ moved = ⟨username, password, fileUser, .starting⟩ ∧
          next.users = signIns.users) ∨
        ∃ caller, signIns.callers index = some caller ∧ caller.phase ≠ .returned 1 ∧
          moved = { caller with phase := moved.phase } ∧
          (moved.phase ≠ .returned 1 ∧ next.users = signIns.users ∨
            moved.phase = .returned 1 ∧
              next.users = signIns.users ++ userLine caller.username caller.password)) := by
  cases action with
  | spawn index username password fileUser =>
      simp only [SignInRace.step] at stepped
      split at stepped
      case h_1 => cases stepped
      case h_2 fresh =>
        cases stepped
        exact ⟨index, _, rfl, Or.inl ⟨username, password, fileUser, rfl, fresh, rfl, rfl⟩⟩
  | openFile index =>
      simp only [SignInRace.step] at stepped
      split at stepped
      case h_1 caller lookup =>
        split at stepped
        case h_1 here =>
          cases stepped
          refine ⟨index, _, rfl, Or.inr ⟨caller, lookup, ?_, rfl, Or.inl ⟨?_, rfl⟩⟩⟩
          · simp [here]
          · simp
        case h_2 => cases stepped
      case h_2 => cases stepped
  | scan index =>
      simp only [SignInRace.step] at stepped
      split at stepped
      case h_1 caller lookup =>
        split at stepped
        case h_1 here =>
          cases stepped
          refine ⟨index, _, rfl, Or.inr ⟨caller, lookup, ?_, rfl, Or.inl ⟨?_, rfl⟩⟩⟩
          · simp [here]
          · simp
        case h_2 => cases stepped
      case h_2 => cases stepped
  | finish index =>
      simp only [SignInRace.step] at stepped
      split at stepped
      case h_1 caller lookup =>
        split at stepped
        case h_1 here =>
          cases stepped
          refine ⟨index, _, rfl, Or.inr ⟨caller, lookup, ?_, rfl, Or.inl ⟨?_, rfl⟩⟩⟩
          · simp [here]
          · simp
        case h_2 here =>
          cases stepped
          refine ⟨index, _, rfl, Or.inr ⟨caller, lookup, ?_, rfl, Or.inr ⟨rfl, rfl⟩⟩⟩
          simp [here]
        case h_3 => cases stepped
      case h_2 => cases stepped

end SignIns

section Inversion

variable {state next : State} {session : Nat} {action : Action}

theorem file_step_some {fileAction : SignInRace.Action}
    (stepped : state.fileStep session fileAction = some next) :
    ∃ signIns, SignInRace.step state.signIns fileAction = some signIns ∧
      next = { state with signIns } := by
  simp only [State.fileStep, Option.ite_none_right_eq_some, Option.map_eq_some_iff] at stepped
  obtain ⟨_, signIns, moved, rfl⟩ := stepped
  exact ⟨signIns, moved, rfl⟩

theorem no_new_caller {signIns after : SignInRace.State} {fileAction : SignInRace.Action}
    (stepped : SignInRace.step signIns fileAction = some after)
    (begun : ∀ index username password fileUser,
      fileAction ≠ .spawn index username password fileUser) (other : Nat) :
    (after.callers other).isSome = (signIns.callers other).isSome := by
  obtain ⟨index, moved, callers, ⟨username, password, fileUser, spawned, _⟩ |
    ⟨caller, lookup, _⟩⟩ := sign_in_moves stepped
  · exact absurd spawned (begun index username password fileUser)
  · rw [callers]
    by_cases same : other = index
    · rw [same, Function.update_self, lookup]
      rfl
    · rw [Function.update_of_ne same]

theorem verdict_gave {username : Bytes} (verdict : state.verdict session = some (some username)) :
    ∃ password, Gave state session (username, password) := by
  unfold State.verdict at verdict
  cases called : state.signIns.callers session with
  | some caller =>
      rw [called] at verdict
      cases here : caller.phase with
      | returned auth =>
          simp only [here, Option.some.injEq, Option.ite_none_right_eq_some] at verdict
          obtain ⟨one, rfl⟩ := verdict
          exact ⟨caller.password, Gave.signIn caller called (one ▸ here)⟩
      | _ => simp [here] at verdict
  | none =>
      simp only [called, Option.bind_eq_some_iff, Option.map_eq_some_iff] at verdict
      obtain ⟨login, lookup, auth, checked, named⟩ := verdict
      simp only [Option.ite_none_right_eq_some, Option.some.injEq] at named
      obtain ⟨yes, rfl⟩ := named
      exact ⟨login.password, Gave.login login called lookup (yes ▸ checked)⟩

theorem step_effect (stepped : step state action = some next) : Effect state action next := by
  cases action with
  | signIn session username password fileUser =>
      simp only [step, Option.ite_none_right_eq_some] at stepped
      obtain ⟨fresh, stepped⟩ := stepped
      obtain ⟨signIns, moved, rfl⟩ := file_step_some stepped
      refine Effect.file _ _ signIns moved id (fun _ => trivial) ?_
      intro other called before
      obtain ⟨index, caller, callers, cases⟩ := sign_in_moves moved
      rw [callers] at called
      by_cases same : other = index
      · rcases cases with ⟨_, _, _, spawned, _⟩ | ⟨old, lookup, _⟩
        · cases spawned
          rw [same]
          exact fresh
        · rw [same, lookup] at before
          cases before
      · rw [Function.update_of_ne same, before] at called
        cases called
  | openFile session =>
      obtain ⟨signIns, moved, rfl⟩ := file_step_some stepped
      refine Effect.file _ _ signIns moved (fun _ => trivial) (fun _ => trivial) ?_
      intro other called before
      rw [no_new_caller moved (by simp), before] at called
      cases called
  | scan session =>
      obtain ⟨signIns, moved, rfl⟩ := file_step_some stepped
      refine Effect.file _ _ signIns moved (fun _ => trivial) id ?_
      intro other called before
      rw [no_new_caller moved (by simp), before] at called
      cases called
  | finish session =>
      obtain ⟨signIns, moved, rfl⟩ := file_step_some stepped
      refine Effect.file _ _ signIns moved (fun _ => trivial) (fun _ => trivial) ?_
      intro other called before
      rw [no_new_caller moved (by simp), before] at called
      cases called
  | login session username password stale =>
      simp only [step, Option.ite_none_right_eq_some, Option.some.injEq] at stepped
      obtain ⟨⟨_, unsigned, fresh⟩, rfl⟩ := stepped
      exact Effect.login session username password stale unsigned fresh
  | check session =>
      simp only [step] at stepped
      split at stepped
      case h_1 login lookup =>
        simp only [Option.ite_none_right_eq_some, Option.some.injEq] at stepped
        obtain ⟨⟨_, pending⟩, rfl⟩ := stepped
        exact Effect.check session login lookup pending
      case h_2 => cases stepped
  | fopenFails session =>
      simp only [step, State.chatStep, Option.ite_none_right_eq_some,
        Option.map_eq_some_iff] at stepped
      obtain ⟨_, chat, moved, rfl⟩ := stepped
      exact Effect.answer _ session none chat (by simp) moved
  | answer session =>
      simp only [step, State.chatStep] at stepped
      split at stepped
      case h_1 result verdict =>
        obtain ⟨chat, moved, rfl⟩ := Option.map_eq_some_iff.mp stepped
        refine Effect.answer _ session result chat ?_ moved
        intro username same
        rw [same] at verdict
        exact verdict_gave verdict
      case h_2 => cases stepped
  | chat action =>
      simp only [step, State.chatStep, Option.ite_none_left_eq_some,
        Option.map_eq_some_iff] at stepped
      obtain ⟨other, chat, moved, rfl⟩ := stepped
      exact Effect.chat action chat (Bool.eq_false_iff.mpr other) moved

end Inversion

/-- `added` are the pairs that sign-ins have put behind those of the file at the start. -/
structure Kept (start added : List (Bytes × Bytes)) (signIns : SignInRace.State) : Prop where
  file : signIns.users = fileOf (start ++ added)
  clean : ∀ pair ∈ start ++ added, CleanPair pair
  callers : ∀ session caller, signIns.callers session = some caller →
    CleanPair (caller.username, caller.password)
  accepted : ∀ session caller, signIns.callers session = some caller →
    caller.phase = .returned 1 → (caller.username, caller.password) ∈ added
  source : ∀ pair ∈ added, ∃ session caller, signIns.callers session = some caller ∧
    caller.phase = .returned 1 ∧ (caller.username, caller.password) = pair

section Files

variable {start added : List (Bytes × Bytes)} {signIns next : SignInRace.State}
  {action : SignInRace.Action}

theorem kept_initial (clean : ∀ pair ∈ start, CleanPair pair) :
    Kept start [] (SignInRace.initial start) where
  file := by rw [List.append_nil]; rfl
  clean := by rwa [List.append_nil]
  callers := by
    intro session caller impossible
    cases impossible
  accepted := by
    intro session caller impossible
    cases impossible
  source := by
    intro pair impossible
    cases impossible

theorem accepted_stays (stepped : SignInRace.step signIns action = some next) {session : Nat}
    {caller : Caller} (lookup : signIns.callers session = some caller)
    (accepted : caller.phase = .returned 1) : next.callers session = some caller := by
  obtain ⟨index, moved, callers, moves⟩ := sign_in_moves stepped
  have apart : session ≠ index := by
    intro same
    rcases moves with ⟨_, _, _, _, fresh, _⟩ | ⟨other, otherLookup, going, _⟩
    · rw [← same, lookup] at fresh
      cases fresh
    · rw [← same, lookup] at otherLookup
      cases otherLookup
      exact going accepted
  rw [callers, Function.update_of_ne apart]
  exact lookup

theorem Kept.source_stays (kept : Kept start added signIns)
    (stepped : SignInRace.step signIns action = some next) :
    ∀ pair ∈ added, ∃ session caller, next.callers session = some caller ∧
      caller.phase = .returned 1 ∧ (caller.username, caller.password) = pair := by
  intro pair member
  obtain ⟨session, caller, lookup, accepted, same⟩ := kept.source pair member
  exact ⟨session, caller, accepted_stays stepped lookup accepted, accepted, same⟩

theorem callers_only_grow (stepped : SignInRace.step signIns action = some next) {session : Nat}
    (unsigned : next.callers session = none) : signIns.callers session = none := by
  obtain ⟨index, moved, callers, _⟩ := sign_in_moves stepped
  rw [callers] at unsigned
  by_cases same : session = index
  · rw [same, Function.update_self] at unsigned
    cases unsigned
  · rw [Function.update_of_ne same] at unsigned
    exact unsigned

/-- The file grows by the pairs of those who are accepted. -/
theorem kept_step (kept : Kept start added signIns) (clean : SignInRace.CleanSpawn signIns action)
    (stepped : SignInRace.step signIns action = some next) :
    ∃ more, Kept start (added ++ more) next := by
  have stays := kept.source_stays stepped
  obtain ⟨index, moved, callers, moves⟩ := sign_in_moves stepped
  rcases moves with ⟨username, password, fileUser, spawned, _, rfl, users⟩ |
    ⟨caller, lookup, _, same, ⟨going, users⟩ | ⟨returned, users⟩⟩
  · refine ⟨[], ?_⟩
    rw [List.append_nil]
    rw [spawned] at clean
    constructor
    case file => rw [users, kept.file]
    case clean => exact kept.clean
    case callers => exact forall_update kept.callers callers clean
    case accepted => exact forall_update kept.accepted callers (by simp)
    case source => exact stays
  · refine ⟨[], ?_⟩
    rw [List.append_nil]
    constructor
    case file => rw [users, kept.file]
    case clean => exact kept.clean
    case callers =>
      refine forall_update kept.callers callers ?_
      rw [same]
      exact kept.callers index caller lookup
    case accepted => exact forall_update kept.accepted callers fun wrong => absurd wrong going
    case source => exact stays
  · have pairClean := kept.callers index caller lookup
    refine ⟨[(caller.username, caller.password)], ?_⟩
    constructor
    case file => rw [users, kept.file, ← List.append_assoc, file_of_append]
    case clean =>
      intro pair member
      rw [← List.append_assoc] at member
      rcases List.mem_append.mp member with old | new
      · exact kept.clean pair old
      · rw [List.mem_singleton.mp new]
        exact pairClean
    case callers =>
      refine forall_update kept.callers callers ?_
      rw [same]
      exact pairClean
    case accepted =>
      refine forall_update (fun session other otherLookup accepted =>
        List.mem_append_left _ (kept.accepted session other otherLookup accepted)) callers ?_
      rw [same]
      exact fun _ => List.mem_append_right _ (List.mem_singleton_self _)
    case source =>
      intro pair member
      rcases List.mem_append.mp member with old | new
      · exact stays pair old
      · refine ⟨index, moved, ?_, returned, ?_⟩
        · rw [callers, Function.update_self]
        · rw [List.mem_singleton.mp new, same]

end Files

/-- Every pair that has been accepted is in the file, and every session with a name gave one. -/
structure Vouched (start : List (Bytes × Bytes)) (state : State) : Prop where
  filed : ∃ added, Kept start added state.signIns ∧
    ∀ session pair, Gave state session pair → pair ∈ start ++ added
  named : ∀ session found, state.chat.sessions session = some found → Entered found →
    ∃ password, Gave state session (found.username, password)

section Step

variable {start : List (Bytes × Bytes)} {state next : State} {action : Action} {session : Nat}
  {pair : Bytes × Bytes}

theorem Gave.elsewhere (given : Gave state session pair)
    (callers : next.signIns.callers session = state.signIns.callers session)
    (logins : next.logins session = state.logins session) : Gave next session pair := by
  cases given with
  | signIn caller lookup accepted => exact Gave.signIn caller (callers.trans lookup) accepted
  | login login unsigned lookup accepted =>
      exact Gave.login login (callers.trans unsigned) (logins.trans lookup) accepted

theorem gave_stays (effect : Effect state action next) (given : Gave state session pair) :
    Gave next session pair := by
  cases effect with
  | file action fileAction signIns stepped clean solo apart =>
      cases given with
      | signIn caller lookup accepted =>
          exact Gave.signIn caller (accepted_stays stepped lookup accepted) accepted
      | login login unsigned lookup accepted =>
          refine Gave.login login ?_ lookup accepted
          by_contra begun
          have fresh := apart session (Option.isSome_iff_ne_none.mpr begun) unsigned
          rw [lookup] at fresh
          cases fresh
  | login other username password stale unsigned fresh =>
      by_cases same : session = other
      · cases given with
        | signIn caller lookup accepted => exact Gave.signIn caller lookup accepted
        | login login _ lookup accepted =>
            rw [same, fresh] at lookup
            cases lookup
      · exact given.elsewhere rfl (Function.update_of_ne same _ _)
  | check other found otherLookup pending =>
      by_cases same : session = other
      · cases given with
        | signIn caller lookup accepted => exact Gave.signIn caller lookup accepted
        | login login _ lookup accepted =>
            rw [same, otherLookup] at lookup
            cases lookup
            rw [pending] at accepted
            cases accepted
      · exact given.elsewhere rfl (Function.update_of_ne same _ _)
  | answer action other result chat accepted stepped => exact given.elsewhere rfl rfl
  | chat action chat other stepped => exact given.elsewhere rfl rfl

theorem filed_step {added : List (Bytes × Bytes)} (kept : Kept start added state.signIns)
    (filed : ∀ session pair, Gave state session pair → pair ∈ start ++ added)
    (clean : CleanSignIn state action) (effect : Effect state action next) :
    ∃ more, Kept start (added ++ more) next.signIns ∧
      ∀ session pair, Gave next session pair → pair ∈ start ++ (added ++ more) := by
  have nothing : added ++ [] = added := List.append_nil added
  cases effect with
  | file action fileAction signIns stepped cleanFile solo apart =>
      obtain ⟨more, grown⟩ := kept_step kept (cleanFile clean) stepped
      refine ⟨more, grown, ?_⟩
      intro session pair given
      cases given with
      | signIn caller lookup accepted =>
          exact List.mem_append_right _ (grown.accepted session caller lookup accepted)
      | login login unsigned lookup accepted =>
          have before : state.signIns.callers session = none := callers_only_grow stepped unsigned
          rw [← List.append_assoc]
          exact List.mem_append_left _ (filed session _ (Gave.login login before lookup accepted))
  | login other username password stale unsigned fresh =>
      refine ⟨[], nothing.symm ▸ kept, ?_⟩
      rw [nothing]
      intro session pair given
      by_cases same : session = other
      · cases given with
        | signIn caller lookup accepted => exact filed session _ (Gave.signIn caller lookup accepted)
        | login login begun lookup accepted =>
            change Function.update state.logins other _ session = _ at lookup
            rw [same, Function.update_self] at lookup
            cases lookup
            cases accepted
      · exact filed session pair (given.elsewhere rfl (Function.update_of_ne same _ _).symm)
  | check other found otherLookup pending =>
      refine ⟨[], nothing.symm ▸ kept, ?_⟩
      rw [nothing]
      intro session pair given
      by_cases same : session = other
      · cases given with
        | signIn caller lookup accepted => exact filed session _ (Gave.signIn caller lookup accepted)
        | login login begun lookup accepted =>
            change Function.update state.logins other _ session = _ at lookup
            rw [same, Function.update_self] at lookup
            cases lookup
            have fields : ∀ pair ∈ start ++ added, FieldText pair.1 ∧ FieldText pair.2 :=
              fun pair member => ⟨(kept.clean pair member).username.toFieldText,
                (kept.clean pair member).password.toFieldText⟩
            simp only [kept.file, fgets_loop_file_of _ fields,
              login_loop_file _ _ _ _ _ kept.clean, Option.some.injEq] at accepted
            exact of_decide_eq_true accepted
      · exact filed session pair (given.elsewhere rfl (Function.update_of_ne same _ _).symm)
  | answer action other result chat accepted stepped =>
      refine ⟨[], nothing.symm ▸ kept, ?_⟩
      rw [nothing]
      exact fun session pair given => filed session pair (given.elsewhere rfl rfl)
  | chat action chat other stepped =>
      refine ⟨[], nothing.symm ▸ kept, ?_⟩
      rw [nothing]
      exact fun session pair given => filed session pair (given.elsewhere rfl rfl)

theorem answered {chat after : TlsThreads.State} {result : Option Bytes}
    (stepped : TlsThreads.step chat (.outside (.authenticate session result)) = some after) :
    ∃ found, chat.sessions session = some found ∧
      (result = none ∧ after.sessions = Function.update chat.sessions session
          (some { found with phase := .freeing }) ∨
        ∃ name, result = some name ∧ after.sessions = Function.update chat.sessions session
          (some { found with username := (cstr name).take 50, phase := .adding })) := by
  cases TlsThreads.step_effect stepped with
  | outside _ next free chatStepped =>
      obtain ⟨found, lookup, _, ⟨rejected, rfl⟩ | ⟨name, accepted, rfl⟩⟩ :=
        TlsServer.authenticate_cases chatStepped
      · exact ⟨found, lookup, Or.inl ⟨rejected, rfl⟩⟩
      · exact ⟨found, lookup, Or.inr ⟨name, accepted, rfl⟩⟩

theorem vouched_step (vouched : Vouched start state) (clean : CleanSignIn state action)
    (stepped : step state action = some next) : Vouched start next := by
  have effect := step_effect stepped
  obtain ⟨added, kept, filed⟩ := vouched.filed
  obtain ⟨more, grown, filedAfter⟩ := filed_step kept filed clean effect
  refine ⟨⟨added ++ more, grown, filedAfter⟩, ?_⟩
  have carried : ∀ session (found : Session), (∃ before, state.chat.sessions session = some before ∧
      Entered before ∧ before.username = found.username) →
        ∃ password, Gave next session (found.username, password) := by
    rintro session found ⟨before, lookup, entered, username⟩
    obtain ⟨password, given⟩ := vouched.named session before lookup entered
    exact ⟨password, username ▸ gave_stays effect given⟩
  have unchanged : ∀ session found, state.chat.sessions session = some found → Entered found →
      ∃ password, Gave next session (found.username, password) :=
    fun session found lookup entered => carried session found ⟨found, lookup, entered, rfl⟩
  cases effect with
  | file action fileAction signIns moved clean solo apart => exact unchanged
  | login session username password stale unsigned fresh => exact unchanged
  | check session login lookup pending => exact unchanged
  | answer action session result chat accepted moved =>
      obtain ⟨found, lookup, ⟨_, sessions⟩ | ⟨name, named, sessions⟩⟩ := answered moved
      · have names := named_advance .freeing found.sent lookup sessions
          (Or.inr ⟨rfl, by simp [TlsServer.Phase.rank]⟩)
        exact fun other found lookup entered => carried other found (names other found lookup entered)
      · obtain ⟨password, given⟩ := accepted name named
        have field := (kept.clean _ (filed session _ given)).username
        have whole : (cstr name).take 50 = name := by
          rw [cstr_of_no_nul field.noNul]
          exact List.take_of_length_le (Nat.le_succ_of_le field.short)
        rw [whole] at sessions
        exact forall_update unchanged sessions fun _ => ⟨password, given.elsewhere rfl rfl⟩
  | chat action chat other moved =>
      have names := threads_named (by
        intro session result same
        rw [same] at other
        cases other) moved
      exact fun other found lookup entered => carried other found (names other found lookup entered)

theorem vouched_started (clean : ∀ pair ∈ start, CleanPair pair) : Vouched start (started start) where
  filed := by
    refine ⟨[], kept_initial clean, ?_⟩
    intro session pair given
    cases given with
    | signIn caller lookup accepted => cases lookup
    | login login unsigned lookup accepted => cases lookup
  named := by
    intro session found impossible
    cases impossible

theorem chat_matched (stepped : step state action = some next) :
    Matched TlsThreads.step state.chat next.chat := by
  cases step_effect stepped with
  | answer action session result chat accepted moved => exact Or.inr ⟨_, moved⟩
  | chat action chat other moved => exact Or.inr ⟨_, moved⟩
  | _ => exact Or.inl rfl

end Step

theorem chat_run {start : List (Bytes × Bytes)} {actions : List Action} {state : State}
    (ran : run step (started start) actions = some state) :
    ∃ chatActions, run TlsThreads.step TlsThreads.initial chatActions = some state.chat := by
  have always : ∀ state action next, True → step state action = some next → True :=
    fun _ _ _ _ _ => trivial
  exact run_refines always (fun _ _ _ _ stepped => chat_matched stepped) trivial ran

theorem Vouched.read {start : List (Bytes × Bytes)} {actions : List Action} {state : State}
    (vouched : Vouched start state) (ran : run step (started start) actions = some state)
    {message : Message} (read : Read state.chat message) :
    ∃ username password, Gave state message.author (username, password) ∧
      message.text = message.notice.text username := by
  obtain ⟨chatActions, chatRan⟩ := chat_run ran
  obtain ⟨found, lookup, entered, spoken⟩ := said_by_entered chatRan read
  obtain ⟨password, given⟩ := vouched.named message.author found lookup entered
  exact ⟨found.username, password, given, spoken⟩

/-- In every interleaving of sign-ins, logins and chat, whatever anybody gets to read was said by
a session whose username and password have been accepted, under that username; and this pair was
in the file at the start or has been put there by a successful sign-in. -/
theorem messages_are_authenticated (start : List (Bytes × Bytes))
    (clean : ∀ pair ∈ start, CleanPair pair) (actions : List Action) (state : State)
    (met : Meets step CleanSignIn (started start) actions)
    (ran : run step (started start) actions = some state) (message : Message)
    (read : Read state.chat message) :
    ∃ username password, Gave state message.author (username, password) ∧
      message.text = message.notice.text username ∧
      ((username, password) ∈ start ∨
        ∃ session, state.signedIn session = some (username, password)) := by
  have vouched : Vouched start state :=
    run_keeps (fun _ _ _ holds clean stepped => vouched_step holds clean stepped)
      (vouched_started clean) met ran
  obtain ⟨username, password, given, spoken⟩ := vouched.read ran read
  obtain ⟨added, kept, filed⟩ := vouched.filed
  refine ⟨username, password, given, spoken, ?_⟩
  rcases List.mem_append.mp (filed _ _ given) with old | new
  · exact Or.inl old
  · obtain ⟨session, caller, called, accepted, same⟩ := kept.source _ new
    refine Or.inr ⟨session, ?_⟩
    simp [State.signedIn, called, accepted, same]

/-- A user signs in while another one logs in with a pair of the file. -/
def signInAndLogin : List Action :=
  [.chat (.outside (.accept 0 5)), .chat (.outside (.handshake 0 true)),
    .signIn 0 (ascii "al") (ascii "x") [], .openFile 0, .scan 0,
    .chat (.outside (.accept 1 7)), .chat (.outside (.handshake 1 true)),
    .login 1 (ascii "bo") (ascii "y") ([], []), .check 1, .finish 0, .answer 1, .answer 0] ++
  (TlsThreads.calling 1 4 ++ TlsThreads.calling 0 5).map Action.chat

/-- Half of the broadcast of the line about the first. -/
def halfBroadcast : List Action :=
  [.chat (.call 0), .chat (.lock 0), .chat (.access 0), .chat (.access 0)]

def boAccount : List (Bytes × Bytes) := [(ascii "bo", ascii "y")]

theorem messages_are_authenticated_half_broadcast :
    ∃ state, ∃ message : Message,
      run step (started boAccount) (signInAndLogin ++ halfBroadcast) = some state ∧
      state.chat.live 1 = [message] ∧ message.text = ascii "[SERVER]: al joined the chat\n" ∧
      ∃ username password, Gave state message.author (username, password) ∧
        message.text = message.notice.text username ∧
        ((username, password) ∈ boAccount ∨
          ∃ session, state.signedIn session = some (username, password)) := by
  have observed : ((run step (started boAccount) (signInAndLogin ++ halfBroadcast)).map fun state =>
      state.chat.live 1) =
        some [⟨0, 0, .joined, ascii "[SERVER]: al joined the chat\n", ClientTables.null⟩] := by
    decide +kernel
  obtain ⟨state, ran, seen⟩ := Option.map_eq_some_iff.mp observed
  have met : Meets step CleanSignIn (started boAccount) (signInAndLogin ++ halfBroadcast) := by
    decide +kernel
  refine ⟨state, _, ran, seen, rfl, ?_⟩
  apply messages_are_authenticated boAccount (by decide) _ state met ran
  refine Or.inr ⟨1, Or.inl ?_⟩
  rw [seen]
  exact List.mem_singleton_self _

def Undisturbed (state : State) (action : Action) : Prop :=
  CleanSignIn state action ∧ SoloScan state action

theorem distinct_step {state next : State} {action : Action}
    (distinct : ∃ pairs, SignInRace.Distinct pairs state.signIns)
    (met : Undisturbed state action) (stepped : step state action = some next) :
    ∃ pairs, SignInRace.Distinct pairs next.signIns := by
  cases step_effect stepped with
  | file action fileAction signIns moved clean solo apart =>
      exact SignInRace.distinct_step distinct ⟨clean met.1, solo met.2⟩ moved
  | _ => exact distinct

theorem usernames_distinct {start added : List (Bytes × Bytes)} {signIns : SignInRace.State}
    (kept : Kept start added signIns) (distinct : ∃ pairs, SignInRace.Distinct pairs signIns) :
    ((start ++ added).map Prod.fst).Nodup := by
  obtain ⟨pairs, distinct⟩ := distinct
  have same : (start ++ added).map Prod.fst = pairs.map Prod.fst := by
    rw [← SignInRace.file_usernames_file_of _ kept.clean, ← kept.file, distinct.file,
      SignInRace.file_usernames_file_of _ distinct.clean]
  rw [same]
  exact distinct.distinct

/-- When moreover nobody scans the file for a username while another sign-in under it is between
its scan and its append, two messages that bear one name come from sessions that have given one
password: nobody speaks under a name who does not know its password. -/
theorem one_password_per_name (start : List (Bytes × Bytes))
    (clean : ∀ pair ∈ start, CleanPair pair) (names : (start.map Prod.fst).Nodup)
    (actions : List Action) (state : State)
    (met : Meets step Undisturbed (started start) actions)
    (ran : run step (started start) actions = some state) (first second : Message)
    (firstRead : Read state.chat first) (secondRead : Read state.chat second) :
    ∃ username password other guess, Gave state first.author (username, password) ∧
      first.text = first.notice.text username ∧ Gave state second.author (other, guess) ∧
      second.text = second.notice.text other ∧ (username = other → password = guess) := by
  have vouched : Vouched start state :=
    run_keeps (fun _ _ _ holds met stepped => vouched_step holds met.1 stepped)
      (vouched_started clean) met ran
  have distinct : ∃ pairs, SignInRace.Distinct pairs state.signIns := by
    have begun : ∃ pairs, SignInRace.Distinct pairs (started start).signIns :=
      ⟨start, SignInRace.distinct_initial start clean names⟩
    exact run_keeps (fun _ _ _ holds met stepped => distinct_step holds met stepped) begun met ran
  obtain ⟨username, password, given, spoken⟩ := vouched.read ran firstRead
  obtain ⟨other, guess, otherGiven, otherSpoken⟩ := vouched.read ran secondRead
  obtain ⟨added, kept, filed⟩ := vouched.filed
  refine ⟨username, password, other, guess, given, spoken, otherGiven, otherSpoken, ?_⟩
  intro same
  have once := List.inj_on_of_nodup_map (usernames_distinct kept distinct) (filed _ _ given)
    (filed _ _ otherGiven) same
  exact congrArg Prod.snd once

def SoloBelow (bound : Nat) (state : State) : Action → Prop
  | .signIn session _ _ _ => session < bound
  | .scan session => SignInRace.SoloBelow bound state.signIns (.scan session)
  | _ => True

instance (bound : Nat) (state : State) : ∀ action, Decidable (SoloBelow bound state action)
  | .signIn session _ _ _ => inferInstanceAs (Decidable (session < bound))
  | .scan session => inferInstanceAs (Decidable (SignInRace.SoloBelow bound state.signIns
      (.scan session)))
  | .openFile _ | .finish _ | .login _ _ _ _ | .check _ | .fopenFails _ | .answer _ | .chat _ =>
      isTrue trivial

theorem file_step_cases {state next : State} {session : Nat} {action : SignInRace.Action}
    (stepped : state.fileStep session action = some next) :
    SignInRace.step state.signIns action = some next.signIns := by
  simp only [State.fileStep, Option.ite_none_right_eq_some, Option.map_eq_some_iff] at stepped
  obtain ⟨_, signIns, moved, rfl⟩ := stepped
  exact moved

theorem chat_step_sign_ins {state next : State} {action : TlsThreads.Action}
    (stepped : state.chatStep action = some next) : next.signIns = state.signIns := by
  obtain ⟨chat, _, rfl⟩ := Option.map_eq_some_iff.mp stepped
  rfl

theorem callers_below_step {bound : Nat} {state next : State} {action : Action}
    (below : SignInRace.CallersBelow bound state.signIns) (met : SoloBelow bound state action)
    (stepped : step state action = some next) :
    SignInRace.CallersBelow bound next.signIns := by
  cases action with
  | signIn session username password fileUser =>
      simp only [step, Option.ite_none_right_eq_some] at stepped
      refine SignInRace.callers_below_step below ?_ (file_step_cases stepped.2)
      exact met
  | openFile session =>
      refine SignInRace.callers_below_step below ?_ (file_step_cases stepped)
      trivial
  | scan session =>
      refine SignInRace.callers_below_step below ?_ (file_step_cases stepped)
      exact met
  | finish session =>
      refine SignInRace.callers_below_step below ?_ (file_step_cases stepped)
      trivial
  | login session username password stale =>
      simp only [step, Option.ite_none_right_eq_some, Option.some.injEq] at stepped
      rw [← stepped.2]
      exact below
  | check session =>
      simp only [step] at stepped
      split at stepped
      case h_1 login lookup =>
        simp only [Option.ite_none_right_eq_some, Option.some.injEq] at stepped
        rw [← stepped.2]
        exact below
      case h_2 => cases stepped
  | fopenFails session =>
      simp only [step, Option.ite_none_right_eq_some] at stepped
      rw [chat_step_sign_ins stepped.2]
      exact below
  | answer session =>
      simp only [step] at stepped
      split at stepped
      case h_1 =>
        rw [chat_step_sign_ins stepped]
        exact below
      case h_2 => cases stepped
  | chat action =>
      simp only [step] at stepped
      split at stepped
      case isTrue => cases stepped
      case isFalse =>
        rw [chat_step_sign_ins stepped]
        exact below

theorem solo_scan_of_below {bound : Nat} {state : State} {action : Action}
    (below : SignInRace.CallersBelow bound state.signIns) (met : SoloBelow bound state action) :
    SoloScan state action := by
  cases action with
  | scan session =>
      have solo : SignInRace.SoloBelow bound state.signIns (.scan session) := met
      exact SignInRace.solo_scan_of_below below solo
  | _ => trivial

/-- Two sign-ins with mixed file steps; then another session logs in to the account of the
first. -/
def signInsAndLogin : List Action :=
  [.chat (.outside (.accept 0 5)), .chat (.outside (.handshake 0 true)),
    .chat (.outside (.accept 1 7)), .chat (.outside (.handshake 1 true)),
    .chat (.outside (.accept 2 9)), .chat (.outside (.handshake 2 true)),
    .signIn 0 (ascii "al") (ascii "x") [], .openFile 0, .signIn 1 (ascii "cy") (ascii "w") [],
    .openFile 1, .scan 0, .scan 1, .finish 1, .finish 0, .answer 0, .answer 1,
    .login 2 (ascii "al") (ascii "x") ([], []), .check 2, .answer 2] ++
  (TlsThreads.calling 0 4 ++ TlsThreads.calling 2 5 ++ TlsThreads.calling 0 103).map Action.chat ++
  [.chat (.call 2), .chat (.lock 2), .chat (.access 2), .chat (.access 2)]

theorem one_password_per_name_two_sign_ins :
    ∃ state first second, run step (started boAccount) signInsAndLogin = some state ∧
      Read state.chat first ∧ Read state.chat second ∧ first.author ≠ second.author ∧
      first.text = second.text ∧
      ∃ username password other guess, Gave state first.author (username, password) ∧
        first.text = first.notice.text username ∧ Gave state second.author (other, guess) ∧
        second.text = second.notice.text other ∧ (username = other → password = guess) := by
  have observed : ((run step (started boAccount) signInsAndLogin).map fun state =>
      state.chat.live 0) =
      some [⟨0, 0, .joined, ascii "[SERVER]: al joined the chat\n", ClientTables.null⟩,
        ⟨2, 0, .joined, ascii "[SERVER]: al joined the chat\n", ClientTables.null⟩] := by
    decide +kernel
  obtain ⟨state, ran, seen⟩ := Option.map_eq_some_iff.mp observed
  have solo : Meets step SoloScan (started boAccount) signInsAndLogin := by
    have below : Meets step (SoloBelow 3) (started boAccount) signInsAndLogin := by
      decide +kernel
    have none : SignInRace.CallersBelow 3 (started boAccount).signIns := by
      intro index caller impossible
      cases impossible
    exact below.imp (fun _ _ _ => callers_below_step) (fun _ _ => solo_scan_of_below) none
  have spawns : Meets step CleanSignIn (started boAccount) signInsAndLogin := by
    decide +kernel
  have read : ∀ message ∈ state.chat.live 0, Read state.chat message :=
    fun message member => Or.inr ⟨0, Or.inl member⟩
  rw [seen] at read
  refine ⟨state, _, _, ran, read _ List.mem_cons_self,
    read _ (List.mem_cons_of_mem _ (List.mem_singleton_self _)), by decide, rfl, ?_⟩
  exact one_password_per_name boAccount (by decide) (by decide) signInsAndLogin state
    (spawns.and solo) ran _ _ (read _ List.mem_cons_self)
    (read _ (List.mem_cons_of_mem _ (List.mem_singleton_self _)))

end LinuxFff.AccountChat
