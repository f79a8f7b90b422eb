import LinuxFff.StepSystem

/-!
# Calls that run under one mutex

Threads call procedures whose bodies run between the lock and the unlock of one
mutex. A body is given by its single accesses: each is a step of its own, and the
steps of different threads mix in any order. What comes out is what the calls do
one after another, in the order in which they were served, and every call returns
what it returns there.
-/

namespace LinuxFff.Serialization

open LinuxFff.StepSystem

set_option autoImplicit false

variable {Call Local Shared Result : Type*}

/-- The bodies. An access goes on with other locals or ends the body with a result. -/
structure Code (Call Local Shared Result : Type*) where
  enter : Call → Local
  access : Local → Shared → Shared × (Local ⊕ Result)

inductive Phase (Call Local Result : Type*) where
  | waiting (call : Call)
  | inside (call : Call) (here : Local)
  | leaving (call : Call) (result : Result)

def Phase.call : Phase Call Local Result → Call
  | .waiting call => call
  | .inside call _ => call
  | .leaving call _ => call

def Phase.Critical : Phase Call Local Result → Prop
  | .waiting _ => False
  | .inside _ _ => True
  | .leaving _ _ => True

structure Served (Call Result : Type*) where
  thread : Nat
  call : Call
  result : Result

/-- `served` lists the calls that have unlocked the mutex, in order; no step reads it. -/
structure State (Call Local Shared Result : Type*) where
  shared : Shared
  owner : Option Nat
  phases : Nat → Option (Phase Call Local Result)
  served : List (Served Call Result)

def begin (shared : Shared) : State Call Local Shared Result := ⟨shared, none, fun _ => none, []⟩

inductive Action (Call : Type*) where
  | call (thread : Nat) (call : Call)
  | lock (thread : Nat)
  | access (thread : Nat)
  | unlock (thread : Nat)

def Action.thread : Action Call → Nat
  | .call thread _ => thread
  | .lock thread => thread
  | .access thread => thread
  | .unlock thread => thread

def State.move (state : State Call Local Shared Result) (thread : Nat)
    (phase : Option (Phase Call Local Result)) : State Call Local Shared Result :=
  { state with phases := Function.update state.phases thread phase }

def step (code : Code Call Local Shared Result) (state : State Call Local Shared Result) :
    Action Call → Option (State Call Local Shared Result)
  | .call thread call =>
      match state.phases thread with
      | none => some (state.move thread (some (.waiting call)))
      | some _ => none
  | .lock thread =>
      match state.phases thread with
      | some (.waiting call) =>
          if state.owner = none then
            some { state.move thread (some (.inside call (code.enter call))) with
              owner := some thread }
          else none
      | _ => none
  | .access thread =>
      match state.phases thread with
      | some (.inside call here) =>
          match code.access here state.shared with
          | (shared, .inl moved) =>
              some { state.move thread (some (.inside call moved)) with shared }
          | (shared, .inr result) =>
              some { state.move thread (some (.leaving call result)) with shared }
      | _ => none
  | .unlock thread =>
      match state.phases thread with
      | some (.leaving call result) =>
          some { state.move thread none with
            owner := none
            served := state.served ++ [⟨thread, call, result⟩] }
      | _ => none

inductive Effect (code : Code Call Local Shared Result) (state : State Call Local Shared Result) :
    Action Call → State Call Local Shared Result → Prop where
  | call (thread : Nat) (call : Call) (idle : state.phases thread = none) :
      Effect code state (.call thread call) (state.move thread (some (.waiting call)))
  | lock (thread : Nat) (call : Call) (waits : state.phases thread = some (.waiting call))
      (free : state.owner = none) :
      Effect code state (.lock thread)
        { state.move thread (some (.inside call (code.enter call))) with owner := some thread }
  | goOn (thread : Nat) (call : Call) (here moved : Local) (shared : Shared)
      (inside : state.phases thread = some (.inside call here))
      (accessed : code.access here state.shared = (shared, .inl moved)) :
      Effect code state (.access thread)
        { state.move thread (some (.inside call moved)) with shared }
  | finish (thread : Nat) (call : Call) (here : Local) (result : Result) (shared : Shared)
      (inside : state.phases thread = some (.inside call here))
      (accessed : code.access here state.shared = (shared, .inr result)) :
      Effect code state (.access thread)
        { state.move thread (some (.leaving call result)) with shared }
  | unlock (thread : Nat) (call : Call) (result : Result)
      (leaves : state.phases thread = some (.leaving call result)) :
      Effect code state (.unlock thread) { state.move thread none with
        owner := none
        served := state.served ++ [⟨thread, call, result⟩] }

section Steps

variable {code : Code Call Local Shared Result} {start : Shared}
  {state next : State Call Local Shared Result} {thread : Nat} {action : Action Call}

theorem step_effect (stepped : step code state action = some next) :
    Effect code state action next := by
  cases action with
  | call thread call =>
      simp only [step] at stepped
      split at stepped
      case h_1 idle =>
        cases stepped
        exact Effect.call thread call idle
      case h_2 => cases stepped
  | lock thread =>
      simp only [step] at stepped
      split at stepped
      case h_1 call waits =>
        simp only [Option.ite_none_right_eq_some, Option.some.injEq] at stepped
        obtain ⟨free, same⟩ := stepped
        rw [← same]
        exact Effect.lock thread call waits free
      case h_2 => cases stepped
  | access thread =>
      simp only [step] at stepped
      split at stepped
      case h_1 call here inside =>
        split at stepped
        case h_1 shared moved accessed =>
          cases stepped
          exact Effect.goOn thread call here moved shared inside accessed
        case h_2 shared result accessed =>
          cases stepped
          exact Effect.finish thread call here result shared inside accessed
      case h_2 => cases stepped
  | unlock thread =>
      simp only [step] at stepped
      split at stepped
      case h_1 call result leaves =>
        cases stepped
        exact Effect.unlock thread call result leaves
      case h_2 => cases stepped

end Steps

/-- The accesses of a body that go on, from its locals and data to later ones. -/
inductive Reaches (code : Code Call Local Shared Result) (here : Local) (shared : Shared) :
    Local → Shared → Prop where
  | start : Reaches code here shared here shared
  | access {middle moved : Local} {between after : Shared}
      (earlier : Reaches code here shared middle between)
      (accessed : code.access middle between = (after, .inl moved)) :
      Reaches code here shared moved after

/-- The body of a call run alone. -/
def Completes (code : Code Call Local Shared Result) (call : Call) (before after : Shared)
    (result : Result) : Prop :=
  ∃ last between, Reaches code (code.enter call) before last between ∧
    code.access last between = (after, .inr result)

/-- What each call does when it runs alone. -/
def Implements (code : Code Call Local Shared Result) (effect : Call → Shared → Shared × Result) :
    Prop :=
  ∀ call before after result, Completes code call before after result →
    effect call before = (after, result)

/-- The loop rule: what each access keeps holds of all the locals and data that a body reaches. -/
theorem Reaches.keeps {code : Code Call Local Shared Result} {invariant : Local → Shared → Prop}
    {here last : Local} {before between : Shared}
    (reaches : Reaches code here before last between) (starts : invariant here before)
    (kept : ∀ middle shared moved after, invariant middle shared →
      code.access middle shared = (after, .inl moved) → invariant moved after) :
    invariant last between := by
  induction reaches with
  | start => exact starts
  | access _ accessed ih => exact kept _ _ _ _ ih accessed

/-- An invariant of the bodies gives what their last accesses leave. -/
theorem implements_of_invariant {code : Code Call Local Shared Result}
    {effect : Call → Shared → Shared × Result}
    (invariant : Call → Shared → Local → Shared → Prop)
    (starts : ∀ call before, invariant call before (code.enter call) before)
    (kept : ∀ call before here between moved after, invariant call before here between →
      code.access here between = (after, .inl moved) → invariant call before moved after)
    (ends : ∀ call before here between result after, invariant call before here between →
      code.access here between = (after, .inr result) → effect call before = (after, result)) :
    Implements code effect := by
  rintro call before after result ⟨last, between, reaches, accessed⟩
  have holds : invariant call before last between :=
    reaches.keeps (starts call before) (kept call before)
  exact ends call before last between result after holds accessed

/-- What is left to do at each point of a body, done at once, gives what the body does. -/
theorem implements_of_rest {code : Code Call Local Shared Result}
    {effect : Call → Shared → Shared × Result} (rest : Local → Shared → Shared × Result)
    (starts : ∀ call before, rest (code.enter call) before = effect call before)
    (goesOn : ∀ here shared moved after, code.access here shared = (after, .inl moved) →
      rest moved after = rest here shared)
    (ends : ∀ here shared result after, code.access here shared = (after, .inr result) →
      rest here shared = (after, result)) : Implements code effect := by
  apply implements_of_invariant fun call before here shared => rest here shared = effect call before
  case starts => exact starts
  case kept =>
    intro call before here between moved after holds accessed
    exact (goesOn here between moved after accessed).trans holds
  case ends =>
    intro call before here between result after holds accessed
    exact holds.symm.trans (ends here between result after accessed)

/-- Calls that run one after another, each with the result it returns. -/
def Replays (effect : Call → Shared → Shared × Result) :
    Shared → List (Served Call Result) → Shared → Prop
  | before, [], after => after = before
  | before, served :: rest, after =>
      (effect served.call before).2 = served.result ∧
        Replays effect (effect served.call before).1 rest after

theorem replays_snoc {effect : Call → Shared → Shared × Result} {before middle after : Shared}
    {earlier : List (Served Call Result)} {last : Served Call Result}
    (replays : Replays effect before earlier middle)
    (runs : effect last.call middle = (after, last.result)) :
    Replays effect before (earlier ++ [last]) after := by
  induction earlier generalizing before with
  | nil =>
      have same : middle = before := replays
      rw [same] at runs
      exact ⟨congrArg Prod.snd runs, (congrArg Prod.fst runs).symm⟩
  | cons served rest ih => exact ⟨replays.1, ih replays.2⟩

theorem Replays.unique {effect : Call → Shared → Shared × Result} {before first second : Shared}
    {served : List (Served Call Result)} (one : Replays effect before served first)
    (other : Replays effect before served second) : first = second := by
  induction served generalizing before with
  | nil => exact Eq.trans one (Eq.symm other)
  | cons head rest ih => exact ih one.2 other.2

theorem Replays.keeps {effect : Call → Shared → Shared × Result} {invariant : Shared → Prop}
    {before after : Shared} {served : List (Served Call Result)}
    (replays : Replays effect before served after) (holds : invariant before)
    (kept : ∀ call shared, invariant shared → invariant (effect call shared).1) :
    invariant after := by
  induction served generalizing before with
  | nil =>
      have same : after = before := replays
      rw [same]
      exact holds
  | cons head rest ih => exact ih replays.2 (kept head.call before holds)

/-- A view of the data in which each call is one on the view, with the same result. -/
theorem Replays.view {View : Type*} {effect : Call → Shared → Shared × Result}
    {onView : Call → View → View × Result} {invariant : Shared → Prop} (view : Shared → View)
    {before after : Shared} {served : List (Served Call Result)}
    (replays : Replays effect before served after) (holds : invariant before)
    (kept : ∀ call shared, invariant shared → invariant (effect call shared).1)
    (respects : ∀ call shared, invariant shared →
      onView call (view shared) = (view (effect call shared).1, (effect call shared).2)) :
    Replays onView (view before) served (view after) := by
  induction served generalizing before with
  | nil => exact congrArg view replays
  | cons head rest ih =>
      have called := respects head.call before holds
      have later := ih replays.2 (kept head.call before holds)
      refine ⟨?_, ?_⟩
      · rw [called]
        exact replays.1
      · rw [called]
        exact later

/-- What a thread has done to the data since the calls that have been served. -/
def Account (code : Code Call Local Shared Result) (effect : Call → Shared → Shared × Result)
    (start : Shared) (served : List (Served Call Result)) (shared : Shared) :
    Phase Call Local Result → Prop
  | .waiting _ => True
  | .inside call here =>
      ∃ before, Replays effect start served before ∧ Reaches code (code.enter call) before here shared
  | .leaving call result =>
      ∃ before, Replays effect start served before ∧ effect call before = (shared, result)

structure Serialised (code : Code Call Local Shared Result)
    (effect : Call → Shared → Shared × Result) (start : Shared)
    (state : State Call Local Shared Result) : Prop where
  owned : ∀ thread phase, state.phases thread = some phase →
    (phase.Critical ↔ state.owner = some thread)
  held : ∀ thread, state.owner = some thread → ∃ phase, state.phases thread = some phase
  idle : state.owner = none → Replays effect start state.served state.shared
  accounts : ∀ thread phase, state.phases thread = some phase →
    Account code effect start state.served state.shared phase

section Run

variable {code : Code Call Local Shared Result} {effect : Call → Shared → Shared × Result}
  {start : Shared} {state next : State Call Local Shared Result} {thread : Nat}

theorem serialised_begin : Serialised code effect start (begin start) where
  owned := by
    intro other phase impossible
    cases impossible
  held := by
    intro other impossible
    cases impossible
  idle := fun _ => rfl
  accounts := by
    intro other phase impossible
    cases impossible

theorem account_outside {served : List (Served Call Result)} {shared : Shared}
    {phase : Phase Call Local Result} (outside : ¬phase.Critical) :
    Account code effect start served shared phase := by
  cases phase with
  | waiting call => trivial
  | inside call here => exact absurd trivial outside
  | leaving call result => exact absurd trivial outside

theorem moved_cases {moved : Option (Phase Call Local Result)} {other : Nat}
    {phase : Phase Call Local Result}
    (after : (state.move thread moved).phases other = some phase) :
    other = thread ∧ moved = some phase ∨ other ≠ thread ∧ state.phases other = some phase := by
  change Function.update state.phases thread moved other = some phase at after
  by_cases same : other = thread
  · rw [same, Function.update_self] at after
    exact Or.inl ⟨same, after⟩
  · rw [Function.update_of_ne same] at after
    exact Or.inr ⟨same, after⟩

theorem Serialised.outside (serialised : Serialised code effect start state) {other : Nat}
    {phase : Phase Call Local Result} (lookup : state.phases other = some phase)
    (differs : state.owner ≠ some other) : ¬phase.Critical :=
  fun critical => differs ((serialised.owned other phase lookup).mp critical)

theorem Serialised.continue (serialised : Serialised code effect start state)
    {old new : Phase Call Local Result} {shared : Shared}
    (lookup : state.phases thread = some old) (inside : old.Critical) (stays : new.Critical)
    (account : Account code effect start state.served shared new) :
    Serialised code effect start { state.move thread (some new) with shared } := by
  have owner : state.owner = some thread := (serialised.owned thread old lookup).mp inside
  constructor
  case owned =>
    refine forall_update serialised.owned rfl ?_
    exact ⟨fun _ => owner, fun _ => stays⟩
  case held =>
    intro other owns
    have same : other = thread := Option.some.inj (owns.symm.trans owner)
    exact ⟨new, by rw [same]; exact Function.update_self _ _ _⟩
  case idle =>
    intro free
    exact absurd (free.symm.trans owner) (by simp)
  case accounts =>
    intro other phase after
    rcases moved_cases after with ⟨_, now⟩ | ⟨differs, before⟩
    · cases now
      exact account
    · apply account_outside
      apply serialised.outside before
      rw [owner]
      exact fun equal => differs (Option.some.inj equal).symm

theorem Serialised.call (serialised : Serialised code effect start state) (call : Call)
    (idle : state.phases thread = none) :
    Serialised code effect start (state.move thread (some (.waiting call))) := by
  have notOwner : state.owner ≠ some thread := by
    intro owns
    obtain ⟨phase, lookup⟩ := serialised.held thread owns
    rw [idle] at lookup
    cases lookup
  constructor
  case owned =>
    refine forall_update serialised.owned rfl ?_
    exact ⟨False.elim, fun owns => absurd owns notOwner⟩
  case held =>
    intro other owns
    obtain ⟨phase, lookup⟩ := serialised.held other owns
    have differs : other ≠ thread := fun same => notOwner (same ▸ owns)
    exact ⟨phase, (Function.update_of_ne differs _ _).trans lookup⟩
  case idle => exact serialised.idle
  case accounts => exact forall_update serialised.accounts rfl trivial

theorem Serialised.lock (serialised : Serialised code effect start state) {call : Call}
    (free : state.owner = none) :
    Serialised code effect start
      { state.move thread (some (.inside call (code.enter call))) with owner := some thread } := by
  have outside : ∀ other phase, state.phases other = some phase → ¬phase.Critical := by
    intro other phase lookup
    apply serialised.outside lookup
    rw [free]
    simp
  constructor
  case owned =>
    intro other phase after
    rcases moved_cases after with ⟨same, now⟩ | ⟨differs, before⟩
    · cases now
      exact ⟨fun _ => congrArg some same.symm, fun _ => trivial⟩
    · refine ⟨fun critical => absurd critical (outside other phase before), ?_⟩
      intro owns
      exact absurd (Option.some.inj owns).symm differs
  case held =>
    intro other owns
    cases owns
    exact ⟨_, Function.update_self _ _ _⟩
  case idle =>
    intro impossible
    cases impossible
  case accounts =>
    refine forall_update serialised.accounts rfl ?_
    exact ⟨state.shared, serialised.idle free, Reaches.start⟩

theorem Serialised.unlock (serialised : Serialised code effect start state) {call : Call}
    {result : Result} (leaves : state.phases thread = some (.leaving call result)) :
    Serialised code effect start { state.move thread none with
      owner := none
      served := state.served ++ [⟨thread, call, result⟩] } := by
  have owner : state.owner = some thread := (serialised.owned thread _ leaves).mp trivial
  have outside : ∀ other phase, (state.move thread none).phases other = some phase →
      ¬phase.Critical := by
    intro other phase after
    rcases moved_cases after with ⟨_, impossible⟩ | ⟨differs, before⟩
    · cases impossible
    · apply serialised.outside before
      rw [owner]
      exact fun equal => differs (Option.some.inj equal).symm
  constructor
  case owned =>
    intro other phase after
    refine ⟨fun critical => absurd critical (outside other phase after), ?_⟩
    intro impossible
    cases impossible
  case held =>
    intro other impossible
    cases impossible
  case idle =>
    intro _
    obtain ⟨before, replays, runs⟩ := serialised.accounts thread _ leaves
    exact replays_snoc replays runs
  case accounts => exact fun other phase after => account_outside (outside other phase after)

theorem serialised_effect (implements : Implements code effect) {action : Action Call}
    (serialised : Serialised code effect start state)
    (stepped : Effect code state action next) : Serialised code effect start next := by
  cases stepped with
  | call thread call idle => exact serialised.call call idle
  | lock thread call waits free => exact serialised.lock free
  | goOn thread call here moved shared inside accessed =>
      obtain ⟨before, replays, reaches⟩ := serialised.accounts _ _ inside
      exact serialised.continue inside trivial trivial
        ⟨before, replays, Reaches.access reaches accessed⟩
  | finish thread call here result shared inside accessed =>
      obtain ⟨before, replays, reaches⟩ := serialised.accounts _ _ inside
      exact serialised.continue inside trivial trivial
        ⟨before, replays, implements call before shared result ⟨here, _, reaches, accessed⟩⟩
  | unlock thread call result leaves => exact serialised.unlock leaves

/-- However the accesses of the threads mix, the calls have been served one after another. -/
theorem serialised_run (implements : Implements code effect) {actions : List (Action Call)}
    (ran : run (step code) (begin start) actions = some state) :
    Serialised code effect start state :=
  run_keeps_always
    (fun _ _ _ serialised stepped => serialised_effect implements serialised (step_effect stepped))
    serialised_begin ran

/-- What holds between the calls and at each point inside one holds of the data at any time. -/
theorem Serialised.keeps {always : Shared → Prop} {inside : Local → Shared → Prop}
    (serialised : Serialised code effect start state) (starts : always start)
    (calls : ∀ call shared, always shared → always (effect call shared).1)
    (enters : ∀ call shared, always shared → inside (code.enter call) shared)
    (goesOn : ∀ here shared moved after, inside here shared →
      code.access here shared = (after, .inl moved) → inside moved after)
    (implies : ∀ here shared, inside here shared → always shared) : always state.shared := by
  cases owner : state.owner with
  | none => exact (serialised.idle owner).keeps starts calls
  | some holder =>
      obtain ⟨phase, lookup⟩ := serialised.held holder owner
      have account := serialised.accounts holder phase lookup
      cases phase with
      | waiting call => exact absurd ((serialised.owned holder _ lookup).mpr owner) id
      | inside call here =>
          obtain ⟨before, replays, reaches⟩ := account
          have entered := enters call before (replays.keeps starts calls)
          apply implies here
          apply reaches.keeps entered
          intro middle shared moved after holds accessed
          exact goesOn middle shared moved after holds accessed
      | leaving call result =>
          obtain ⟨before, replays, runs⟩ := account
          have called := calls call before (replays.keeps starts calls)
          rw [runs] at called
          exact called

/-- A thread that has called is served in the end, or somebody else can go on. -/
theorem Serialised.progress (serialised : Serialised code effect start state)
    {phase : Phase Call Local Result} (called : state.phases thread = some phase) :
    ∃ action next, (∀ other call, action ≠ Action.call other call) ∧
      step code state action = some next := by
  cases owner : state.owner with
  | none =>
      cases phase with
      | waiting call =>
          refine ⟨.lock thread, { state.move thread (some (.inside call (code.enter call))) with
            owner := some thread }, by simp, ?_⟩
          simp [step, called, owner]
      | inside call here =>
          exact absurd ((serialised.owned thread _ called).mp trivial) (by simp [owner])
      | leaving call result =>
          exact absurd ((serialised.owned thread _ called).mp trivial) (by simp [owner])
  | some holder =>
      obtain ⟨found, lookup⟩ := serialised.held holder owner
      cases found with
      | waiting call => exact absurd ((serialised.owned holder _ lookup).mpr owner) id
      | inside call here =>
          cases accessed : code.access here state.shared with
          | mk shared outcome =>
              cases outcome with
              | inl moved =>
                  refine ⟨.access holder, { state.move holder (some (.inside call moved)) with
                    shared }, by simp, ?_⟩
                  simp [step, lookup, accessed]
              | inr result =>
                  refine ⟨.access holder, { state.move holder (some (.leaving call result)) with
                    shared }, by simp, ?_⟩
                  simp [step, lookup, accessed]
      | leaving call result =>
          refine ⟨.unlock holder, { state.move holder none with
            owner := none
            served := state.served ++ [⟨holder, call, result⟩] }, by simp, ?_⟩
          simp [step, lookup]

end Run

end LinuxFff.Serialization
