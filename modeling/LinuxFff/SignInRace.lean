import LinuxFff.StepSystem
import LinuxFff.UsersFile

/-!
# Concurrent sign-ins of `server_tls_final.c`

Every connection runs `authenticate` in a thread of its own, and nothing locks
`users.txt`. One sign-in opens the file, scans it for the username, and appends
and flushes its line when the scan found nothing: three steps between which any
other thread may run. Usernames stay distinct exactly as long as nobody scans
for a username that another thread has looked up without success and has not
appended yet.
-/

namespace LinuxFff.SignInRace

open LinuxFff.StepSystem LinuxFff.CString LinuxFff.UsersFile

set_option autoImplicit false

inductive SignInPhase where
  | starting
  | opened
  | scanned (found : Bool)
  | returned (auth : Nat)
  deriving DecidableEq

structure Caller where
  username : Bytes
  password : Bytes
  fileUser : Bytes
  phase : SignInPhase
  deriving DecidableEq

structure State where
  users : Bytes
  callers : Nat → Option Caller

inductive Action where
  | spawn (caller : Nat) (username password fileUser : Bytes)
  | openFile (caller : Nat)
  | scan (caller : Nat)
  | finish (caller : Nat)

def State.setPhase (state : State) (index : Nat) (caller : Caller) (phase : SignInPhase) :
    State :=
  { state with callers := Function.update state.callers index (some { caller with phase }) }

/-- The sign-in branch of `authenticate`, one file step at a time. -/
def step (state : State) : Action → Option State
  | .spawn index username password fileUser =>
      match state.callers index with
      | some _ => none
      | none => some (state.setPhase index ⟨username, password, fileUser, .starting⟩ .starting)
  | .openFile index =>
      match state.callers index with
      | some caller =>
          match caller.phase with
          | .starting => some (state.setPhase index caller .opened)
          | _ => none
      | none => none
  | .scan index =>
      match state.callers index with
      | some caller =>
          match caller.phase with
          | .opened => some (state.setPhase index caller (.scanned
              (signInLoop caller.username caller.fileUser (fgetsLoop lineRoom state.users))))
          | _ => none
      | none => none
  | .finish index =>
      match state.callers index with
      | some caller =>
          match caller.phase with
          | .scanned true => some (state.setPhase index caller (.returned 0))
          | .scanned false => some { state.setPhase index caller (.returned 1) with
              users := state.users ++ userLine caller.username caller.password }
          | _ => none
      | none => none

def fileLines : Bytes → List Bytes
  | [] => []
  | byte :: rest =>
      if byte = newline then [] :: fileLines rest
      else match fileLines rest with
        | [] => [[byte]]
        | line :: lines => (byte :: line) :: lines

/-- The usernames of a credential file, one for each of its lines. -/
def fileUsernames (users : Bytes) : List Bytes :=
  (fileLines users).map fun line => sscanf1 line []

def Caller.pending (caller : Caller) : Prop := caller.phase = .scanned false

def Caller.accepted (caller : Caller) : Prop := caller.phase = .returned 1

/-- The usernames and passwords that the threads sign in with. -/
def CleanSpawn (_ : State) : Action → Prop
  | .spawn _ username password _ => CleanPair (username, password)
  | _ => True

instance decidableCleanSpawn (state : State) (action : Action) :
    Decidable (CleanSpawn state action) := by
  unfold CleanSpawn
  cases action <;> infer_instance

/-- A scan for a username runs only when no other thread is between an
unsuccessful scan for the same username and its append. -/
def SoloScan (state : State) : Action → Prop
  | .scan index => ∀ caller other rival, state.callers index = some caller →
      state.callers other = some rival → rival.pending → rival.username ≠ caller.username
  | _ => True

/-- A server start: a credential file of clean lines with distinct usernames,
and no connection. -/
def initial (pairs : List (Bytes × Bytes)) : State :=
  { users := fileOf pairs, callers := fun _ => none }

theorem file_lines_line (line rest : Bytes) (noNewline : newline ∉ line) :
    fileLines (line ++ newline :: rest) = line :: fileLines rest := by
  induction line with
  | nil => simp [fileLines]
  | cons byte line ih =>
      have different : byte ≠ newline := by
        intro same
        exact noNewline (by simp [same])
      simp [fileLines, different, ih fun member => noNewline (by simp [member])]

theorem file_usernames_file_of (pairs : List (Bytes × Bytes))
    (clean : ∀ pair ∈ pairs, CleanPair pair) :
    fileUsernames (fileOf pairs) = pairs.map Prod.fst := by
  induction pairs with
  | nil => rfl
  | cons pair pairs ih =>
      have pairClean := clean pair (by simp)
      have tail := ih fun other member => clean other (by simp [member])
      have noNewline : newline ∉ pair.1 ++ blank :: pair.2 := by
        simp only [List.mem_append, List.mem_cons, not_or]
        exact ⟨pairClean.username.noNewline, by decide, pairClean.password.noNewline⟩
      have whole : fileOf (pair :: pairs) =
          (pair.1 ++ blank :: pair.2) ++ newline :: fileOf pairs := by
        simp [fileOf, userLine]
      have token : sscanf1 (pair.1 ++ blank :: pair.2) [] = pair.1 :=
        sscanf1_of_words pair.1 pair.2 [] pairClean.username pairClean.password
      unfold fileUsernames at tail ⊢
      rw [whole, file_lines_line _ _ noNewline, List.map_cons, tail, token, List.map_cons]

def Each (property : Caller → Prop) (state : State) : Prop :=
  ∀ index caller, state.callers index = some caller → property caller

/-- No two threads with one username are both marked. -/
def Once (marked : Caller → Prop) (state : State) : Prop :=
  ∀ left right caller rival, state.callers left = some caller →
    state.callers right = some rival → marked caller → marked rival →
    caller.username = rival.username → left = right

/-- The run invariant: the file holds distinct usernames, nobody's pending
username is among them, and no two threads are pending on, or were accepted
with, one username. -/
structure Distinct (pairs : List (Bytes × Bytes)) (state : State) : Prop where
  file : state.users = fileOf pairs
  clean : ∀ pair ∈ pairs, CleanPair pair
  distinct : (pairs.map Prod.fst).Nodup
  callers : Each (fun caller => CleanPair (caller.username, caller.password)) state
  pendingNew : Each (fun caller => caller.pending → caller.username ∉ pairs.map Prod.fst) state
  acceptedOld : Each (fun caller => caller.accepted → caller.username ∈ pairs.map Prod.fst) state
  pendingOnce : Once Caller.pending state
  acceptedOnce : Once Caller.accepted state

theorem set_phase_lookup {state : State} {index other : Nat} {caller found : Caller}
    {phase : SignInPhase} :
    (state.setPhase index caller phase).callers other = some found ↔
      (other = index ∧ { caller with phase } = found) ∨
        (other ≠ index ∧ state.callers other = some found) := by
  unfold State.setPhase
  by_cases same : other = index
  · simp [same]
  · simp [same]

theorem each_set_phase {property : Caller → Prop} {state : State} {index : Nat}
    {caller : Caller} {phase : SignInPhase} (holds : Each property state)
    (moved : property { caller with phase }) :
    Each property (state.setPhase index caller phase) :=
  forall_update holds rfl moved

theorem once_set_phase {marked : Caller → Prop} {state : State} {index : Nat}
    {caller : Caller} {phase : SignInPhase} (holds : Once marked state)
    (fresh : marked { caller with phase } → ∀ other rival, other ≠ index →
      state.callers other = some rival → marked rival → rival.username ≠ caller.username) :
    Once marked (state.setPhase index caller phase) := by
  intro left right found rival leftLookup rightLookup leftMarked rightMarked sameName
  rcases set_phase_lookup.mp leftLookup with ⟨here, same⟩ | ⟨apart, old⟩
  · rcases set_phase_lookup.mp rightLookup with ⟨there, _⟩ | ⟨rivalApart, rivalOld⟩
    · rw [here, there]
    · subst same
      exact absurd sameName.symm (fresh leftMarked right rival rivalApart rivalOld rightMarked)
  · rcases set_phase_lookup.mp rightLookup with ⟨_, same⟩ | ⟨_, rivalOld⟩
    · subst same
      exact absurd sameName (fresh rightMarked left found apart old leftMarked)
    · exact holds left right found rival old rivalOld leftMarked rightMarked sameName

/-- The steps of the model: who moves, what it saw and what the state becomes. -/
theorem step_cases {state next : State} {action : Action}
    (stepped : step state action = some next) :
    (∃ index username password fileUser,
      action = .spawn index username password fileUser ∧
      next = state.setPhase index ⟨username, password, fileUser, .starting⟩ .starting) ∨
    ∃ index caller, state.callers index = some caller ∧
      ((action = .openFile index ∧ next = state.setPhase index caller .opened) ∨
        (action = .scan index ∧ next = state.setPhase index caller (.scanned
          (signInLoop caller.username caller.fileUser (fgetsLoop lineRoom state.users)))) ∨
        (action = .finish index ∧ next = state.setPhase index caller (.returned 0)) ∨
        (action = .finish index ∧ caller.pending ∧
          next = { state.setPhase index caller (.returned 1) with
            users := state.users ++ userLine caller.username caller.password })) := by
  cases action with
  | spawn index username password fileUser =>
      left
      simp only [step] at stepped
      split at stepped
      · cases stepped
      · exact ⟨index, username, password, fileUser, rfl, (Option.some.inj stepped).symm⟩
  | openFile index =>
      right
      simp only [step] at stepped
      split at stepped
      · rename_i caller found
        split at stepped
        · exact ⟨index, caller, found, Or.inl ⟨rfl, (Option.some.inj stepped).symm⟩⟩
        · cases stepped
      · cases stepped
  | scan index =>
      right
      simp only [step] at stepped
      split at stepped
      · rename_i caller found
        split at stepped
        · exact ⟨index, caller, found, Or.inr (Or.inl ⟨rfl, (Option.some.inj stepped).symm⟩)⟩
        · cases stepped
      · cases stepped
  | finish index =>
      right
      simp only [step] at stepped
      split at stepped
      · rename_i caller found
        split at stepped
        · exact ⟨index, caller, found,
            Or.inr (Or.inr (Or.inl ⟨rfl, (Option.some.inj stepped).symm⟩))⟩
        · rename_i pending
          exact ⟨index, caller, found,
            Or.inr (Or.inr (Or.inr ⟨rfl, pending, (Option.some.inj stepped).symm⟩))⟩
        · cases stepped
      · cases stepped

/-- A phase that neither holds back an append nor reports success keeps the
invariant, whoever enters it. -/
theorem distinct_quiet_phase {pairs : List (Bytes × Bytes)} {state : State}
    (holds : Distinct pairs state) (index : Nat) (caller : Caller)
    (clean : CleanPair (caller.username, caller.password)) (phase : SignInPhase)
    (notPending : phase ≠ .scanned false) (notAccepted : phase ≠ .returned 1) :
    Distinct pairs (state.setPhase index caller phase) where
  file := holds.file
  clean := holds.clean
  distinct := holds.distinct
  callers := each_set_phase holds.callers clean
  pendingNew := each_set_phase holds.pendingNew fun pending => absurd pending notPending
  acceptedOld := each_set_phase holds.acceptedOld fun accepted => absurd accepted notAccepted
  pendingOnce := once_set_phase holds.pendingOnce fun pending => absurd pending notPending
  acceptedOnce := once_set_phase holds.acceptedOnce fun accepted => absurd accepted notAccepted

/-- An unsuccessful scan keeps the invariant when nobody else is pending on
the same username. -/
theorem distinct_scan_in_vain {pairs : List (Bytes × Bytes)} {state : State}
    (holds : Distinct pairs state) (index : Nat) (caller : Caller)
    (lookup : state.callers index = some caller)
    (absent : caller.username ∉ pairs.map Prod.fst)
    (solo : ∀ other rival, state.callers other = some rival → rival.pending →
      rival.username ≠ caller.username) :
    Distinct pairs (state.setPhase index caller (.scanned false)) where
  file := holds.file
  clean := holds.clean
  distinct := holds.distinct
  callers := each_set_phase holds.callers (holds.callers index caller lookup)
  pendingNew := each_set_phase holds.pendingNew fun _ => absent
  acceptedOld := each_set_phase holds.acceptedOld fun accepted =>
    absurd accepted (by simp [Caller.accepted])
  pendingOnce := once_set_phase holds.pendingOnce fun _ other rival _ => solo other rival
  acceptedOnce := once_set_phase holds.acceptedOnce fun accepted =>
    absurd accepted (by simp [Caller.accepted])

theorem distinct_append {pairs : List (Bytes × Bytes)} {state : State}
    (holds : Distinct pairs state) (index : Nat) (caller : Caller)
    (lookup : state.callers index = some caller) (pending : caller.pending) :
    Distinct (pairs ++ [(caller.username, caller.password)])
      { state.setPhase index caller (.returned 1) with
        users := state.users ++ userLine caller.username caller.password } := by
  have absent := holds.pendingNew index caller lookup pending
  have clean := holds.callers index caller lookup
  have recorded : ∀ name, name ∈ (pairs ++ [(caller.username, caller.password)]).map Prod.fst ↔
      name ∈ pairs.map Prod.fst ∨ name = caller.username := by simp
  have quiet : ¬{ caller with phase := .returned 1 }.pending := by simp [Caller.pending]
  constructor
  case file =>
    rw [file_of_append, ← holds.file]
  case clean =>
    intro pair member
    rcases List.mem_append.mp member with old | new
    · exact holds.clean pair old
    · rw [List.mem_singleton.mp new]
      exact clean
  case distinct =>
    rw [List.map_append, List.nodup_append]
    refine ⟨holds.distinct, by simp, ?_⟩
    intro name old other new same
    have otherEq : other = caller.username := by simpa using new
    rw [← otherEq, ← same] at absent
    exact absent old
  case callers => exact each_set_phase holds.callers clean
  case pendingNew =>
    intro other found otherLookup otherPending
    rcases set_phase_lookup.mp otherLookup with ⟨_, same⟩ | ⟨apart, old⟩
    · subst same
      exact absurd otherPending quiet
    · rw [recorded, not_or]
      refine ⟨holds.pendingNew other found old otherPending, ?_⟩
      intro sameName
      exact apart (holds.pendingOnce other index found caller old lookup otherPending
        pending sameName)
  case acceptedOld =>
    intro other found otherLookup accepted
    rw [recorded]
    rcases set_phase_lookup.mp otherLookup with ⟨_, same⟩ | ⟨_, old⟩
    · subst same
      exact Or.inr rfl
    · exact Or.inl (holds.acceptedOld other found old accepted)
  case pendingOnce =>
    exact once_set_phase holds.pendingOnce fun becomesPending => absurd becomesPending quiet
  case acceptedOnce =>
    apply once_set_phase holds.acceptedOnce
    intro _ other rival _ rivalLookup rivalAccepted sameName
    exact absent (sameName ▸ holds.acceptedOld other rival rivalLookup rivalAccepted)

/-- One step of a run whose sign-ins are clean and whose scans are solo. -/
theorem distinct_step {state next : State} {action : Action}
    (holds : ∃ pairs, Distinct pairs state)
    (met : CleanSpawn state action ∧ SoloScan state action)
    (stepped : step state action = some next) : ∃ pairs, Distinct pairs next := by
  rcases holds with ⟨pairs, holds⟩
  rcases step_cases stepped with
    ⟨index, username, password, fileUser, actionEq, nextEq⟩ | ⟨index, caller, lookup, moved⟩
  · subst actionEq nextEq
    let fresh : Caller := ⟨username, password, fileUser, .starting⟩
    exact ⟨pairs, distinct_quiet_phase holds index fresh met.1 _ (by decide) (by decide)⟩
  have clean := holds.callers index caller lookup
  rcases moved with ⟨_, nextEq⟩ | ⟨actionEq, nextEq⟩ | ⟨_, nextEq⟩ | ⟨_, pending, nextEq⟩
  · subst nextEq
    exact ⟨pairs, distinct_quiet_phase holds index caller clean _ (by decide) (by decide)⟩
  · subst actionEq nextEq
    have fields : ∀ pair ∈ pairs, FieldText pair.1 ∧ FieldText pair.2 := fun pair member =>
      ⟨(holds.clean pair member).username.toFieldText, (holds.clean pair member).password.toFieldText⟩
    rw [holds.file, fgets_loop_file_of pairs fields, sign_in_loop_file _ _ pairs holds.clean]
    by_cases present : caller.username ∈ pairs.map Prod.fst
    · rw [decide_eq_true present]
      exact ⟨pairs, distinct_quiet_phase holds index caller clean _ (by decide) (by decide)⟩
    · rw [decide_eq_false present]
      exact ⟨pairs, distinct_scan_in_vain holds index caller lookup present
        fun other rival otherLookup rivalPending =>
          met.2 caller other rival lookup otherLookup rivalPending⟩
  · subst nextEq
    exact ⟨pairs, distinct_quiet_phase holds index caller clean _ (by decide) (by decide)⟩
  · subst nextEq
    exact ⟨_, distinct_append holds index caller lookup pending⟩

theorem each_initial (property : Caller → Prop) (pairs : List (Bytes × Bytes)) :
    Each property (initial pairs) := by
  intro index caller lookup
  simp [initial] at lookup

theorem once_initial (marked : Caller → Prop) (pairs : List (Bytes × Bytes)) :
    Once marked (initial pairs) := by
  intro left right caller rival lookup
  simp [initial] at lookup

theorem distinct_initial (pairs : List (Bytes × Bytes))
    (clean : ∀ pair ∈ pairs, CleanPair pair) (distinct : (pairs.map Prod.fst).Nodup) :
    Distinct pairs (initial pairs) where
  file := rfl
  clean := clean
  distinct := distinct
  callers := each_initial _ pairs
  pendingNew := each_initial _ pairs
  acceptedOld := each_initial _ pairs
  pendingOnce := once_initial _ pairs
  acceptedOnce := once_initial _ pairs

/-- In every interleaving whose scans are solo, no two lines of `users.txt`
have the same username, and no two sign-ins with one username succeed. -/
theorem usernames_unique_of_solo_scans (pairs : List (Bytes × Bytes)) (actions : List Action)
    (final : State) (clean : ∀ pair ∈ pairs, CleanPair pair)
    (distinct : (pairs.map Prod.fst).Nodup)
    (met : Meets step (fun state action => CleanSpawn state action ∧ SoloScan state action)
      (initial pairs) actions)
    (ran : run step (initial pairs) actions = some final) :
    (fileUsernames final.users).Nodup ∧
      ∀ left right caller rival, final.callers left = some caller →
        final.callers right = some rival → caller.accepted → rival.accepted →
        caller.username = rival.username → left = right := by
  have start : ∃ pairs', Distinct pairs' (initial pairs) :=
    ⟨pairs, distinct_initial pairs clean distinct⟩
  obtain ⟨after, holds⟩ := run_keeps (fun _ _ _ here cond moved => distinct_step here cond moved)
    start met ran
  refine ⟨?_, holds.acceptedOnce⟩
  rw [holds.file, file_usernames_file_of after holds.clean]
  exact holds.distinct

/-- A solo scan among the first callers, which can be decided. -/
def SoloBelow (bound : Nat) (state : State) : Action → Prop
  | .spawn index _ _ _ => index < bound
  | .scan index => ∀ other < bound, ∀ caller ∈ state.callers index, ∀ rival ∈ state.callers other,
      rival.phase = .scanned false → rival.username ≠ caller.username
  | _ => True

instance (bound : Nat) (state : State) : ∀ action, Decidable (SoloBelow bound state action)
  | .spawn index _ _ _ => inferInstanceAs (Decidable (index < bound))
  | .openFile _ => isTrue trivial
  | .scan index => inferInstanceAs (Decidable (∀ other < bound, ∀ caller ∈ state.callers index,
      ∀ rival ∈ state.callers other,
        rival.phase = .scanned false → rival.username ≠ caller.username))
  | .finish _ => isTrue trivial

def CallersBelow (bound : Nat) (state : State) : Prop :=
  ∀ index caller, state.callers index = some caller → index < bound

theorem callers_below_step {bound : Nat} {state next : State} {action : Action}
    (below : CallersBelow bound state) (met : SoloBelow bound state action)
    (stepped : step state action = some next) : CallersBelow bound next := by
  rcases step_cases stepped with
    ⟨index, username, password, fileUser, actionEq, nextEq⟩ | ⟨index, caller, lookup, moved⟩
  · subst actionEq nextEq
    exact forall_update below rfl met
  · have here := below index caller lookup
    rcases moved with ⟨_, nextEq⟩ | ⟨_, nextEq⟩ | ⟨_, nextEq⟩ | ⟨_, _, nextEq⟩
    all_goals
      subst nextEq
      exact forall_update below rfl here

theorem solo_scan_of_below {bound : Nat} {state : State} {action : Action}
    (below : CallersBelow bound state) (met : SoloBelow bound state action) :
    SoloScan state action := by
  cases action with
  | scan index =>
      intro caller other rival lookup rivalLookup pending
      exact met other (below other rival rivalLookup) caller lookup rival rivalLookup pending
  | _ => trivial

def edAccount : List (Bytes × Bytes) := [(ascii "ed", ascii "z")]

/-- The second thread scans the file while the first has scanned it and not appended yet. -/
def twoSignIns : List Action :=
  [.spawn 0 (ascii "al") (ascii "x") [], .spawn 1 (ascii "bo") (ascii "y") [], .openFile 0,
    .openFile 1, .scan 0, .scan 1, .finish 1, .finish 0]

theorem usernames_unique_of_two_sign_ins :
    ∃ final, run step (initial edAccount) twoSignIns = some final ∧
      fileUsernames final.users = [ascii "ed", ascii "bo", ascii "al"] ∧
      (fileUsernames final.users).Nodup := by
  have observed : ((run step (initial edAccount) twoSignIns).map fun final =>
      fileUsernames final.users) = some [ascii "ed", ascii "bo", ascii "al"] := by
    decide +kernel
  obtain ⟨final, ran, names⟩ := Option.map_eq_some_iff.mp observed
  have solo : Meets step SoloScan (initial edAccount) twoSignIns := by
    have below : Meets step (SoloBelow 2) (initial edAccount) twoSignIns := by
      decide +kernel
    have none : CallersBelow 2 (initial edAccount) := by
      intro index caller impossible
      cases impossible
    exact below.imp (fun _ _ _ => callers_below_step) (fun _ _ => solo_scan_of_below) none
  have spawns : Meets step CleanSpawn (initial edAccount) twoSignIns := by
    decide +kernel
  refine ⟨final, ran, names, ?_⟩
  exact (usernames_unique_of_solo_scans edAccount twoSignIns final (by decide) (by decide)
    (spawns.and solo) ran).1

/-- Two threads that both scan before either appends. -/
def racingSignIns : List Action :=
  [.spawn 0 [97] [98] [], .spawn 1 [97] [99] [], .openFile 0, .openFile 1,
    .scan 0, .scan 1, .finish 0, .finish 1]

theorem racing_sign_ins_duplicate :
    Meets step CleanSpawn (initial []) racingSignIns ∧
      ∃ final, run step (initial []) racingSignIns = some final ∧
        fileUsernames final.users = [[97], [97]] ∧ ¬(fileUsernames final.users).Nodup ∧
        ((final.callers 0).map fun caller => (caller.username, caller.phase)) =
          some ([97], .returned 1) ∧
        ((final.callers 1).map fun caller => (caller.username, caller.phase)) =
          some ([97], .returned 1) := by
  constructor
  · decide +kernel
  · exact ⟨_, rfl, by decide, by decide, rfl, rfl⟩

end LinuxFff.SignInRace
