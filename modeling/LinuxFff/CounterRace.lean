import LinuxFff.SharedCounter

/-!
# The counter without a mutex

`ex2_race_condition.c` of assignment 7 (`ex1_race_condition.c` of assignment 8 is the same
program): `NUM_THREADS` threads run `increment`, whose loop does `counter++` and nothing else.
The compiler makes a load and a store of it, so that a thread can store a value that others
have gone past. The numbers of threads and of rounds are left open; with those of the program
no value is above 100000, which an `int` holds.
-/

namespace LinuxFff.CounterRace

open LinuxFff.StepSystem
open LinuxFff.SharedCounter (exists_of_total_pos le_total total total_add total_congr total_const
  total_zero)

set_option autoImplicit false

/-- `register` is the value loaded for the `counter++` that has begun. -/
structure Thread where
  i : Nat
  register : Option Nat
  deriving DecidableEq

structure State where
  counter : Nat
  threads : Nat → Thread

def initial : State := ⟨0, fun _ => ⟨0, none⟩⟩

def State.move (state : State) (thread : Nat) (moved : Thread) : State :=
  { state with threads := Function.update state.threads thread moved }

section Program

variable (numThreads numIncrements : Nat)

def step (state : State) (thread : Nat) : Option State :=
  if thread < numThreads then
    match (state.threads thread).register with
    | none =>
        if (state.threads thread).i < numIncrements then
          some (state.move thread { state.threads thread with register := some state.counter })
        else none
    | some value =>
        some { state.move thread ⟨(state.threads thread).i + 1, none⟩ with counter := value + 1 }
  else none

/-- Every thread has left its loop, so that `main` has joined all of them. -/
def Returned (state : State) : Prop :=
  ∀ thread, thread < numThreads → state.threads thread = ⟨numIncrements, none⟩

/-- The least value that the counter can end with. -/
def leastFinal : Nat := if numThreads ≤ 1 then numThreads * numIncrements else min 2 numIncrements

inductive Effect (state : State) (thread : Nat) : State → Prop where
  | load (inside : thread < numThreads) (idle : (state.threads thread).register = none)
      (further : (state.threads thread).i < numIncrements) :
      Effect state thread
        (state.move thread { state.threads thread with register := some state.counter })
  | store (value : Nat) (inside : thread < numThreads)
      (loaded : (state.threads thread).register = some value) :
      Effect state thread
        { state.move thread ⟨(state.threads thread).i + 1, none⟩ with counter := value + 1 }

end Program

def rounds (state : State) (thread : Nat) : Nat := (state.threads thread).i

section Steps

variable {numThreads numIncrements thread : Nat} {state next : State}

theorem step_effect (stepped : step numThreads numIncrements state thread = some next) :
    Effect numThreads numIncrements state thread next := by
  simp only [step, Option.ite_none_right_eq_some] at stepped
  obtain ⟨inside, stepped⟩ := stepped
  split at stepped
  case h_1 idle =>
    simp only [Option.ite_none_right_eq_some, Option.some.injEq] at stepped
    obtain ⟨further, same⟩ := stepped
    rw [← same]
    exact Effect.load inside idle further
  case h_2 value loaded =>
    cases stepped
    exact Effect.store value inside loaded

theorem moved_self {moved : Thread} : (state.move thread moved).threads thread = moved :=
  Function.update_self _ _ _

theorem moved_other {moved : Thread} {other : Nat} (differs : other ≠ thread) :
    (state.move thread moved).threads other = state.threads other :=
  Function.update_of_ne differs _ _

end Steps

/-- A thread never goes beyond the stores done so far, and once it has stored it never loads
nothing again. -/
structure Sound (numIncrements counter stored : Nat) (thread : Thread) : Prop where
  limited : thread.i ≤ numIncrements
  unfinished : ∀ value, thread.register = some value → thread.i < numIncrements
  loaded : ∀ value, thread.register = some value → value ≤ stored
  positive : 1 ≤ thread.i → 1 ≤ counter
  fresh : ∀ value, thread.register = some value → 1 ≤ thread.i → 1 ≤ value

theorem Sound.stored {numIncrements counter stored value : Nat} {thread : Thread}
    (sound : Sound numIncrements counter stored thread) :
    Sound numIncrements (value + 1) (stored + 1) thread where
  limited := sound.limited
  unfinished := sound.unfinished
  loaded := fun value loaded => Nat.le_succ_of_le (sound.loaded value loaded)
  positive := fun _ => Nat.le_add_left 1 value
  fresh := sound.fresh

structure Bounded (numThreads numIncrements : Nat) (state : State) : Prop where
  each : ∀ thread, Sound numIncrements state.counter (total numThreads (rounds state))
    (state.threads thread)
  upper : state.counter ≤ total numThreads (rounds state)
  last : 1 ≤ numThreads → 2 ≤ numIncrements → Returned numThreads numIncrements state →
    2 ≤ state.counter

/-- A single thread loses nothing. -/
structure Alone (numThreads : Nat) (state : State) : Prop where
  counter : state.counter = total numThreads (rounds state)
  register : ∀ thread value, thread < numThreads → (state.threads thread).register = some value →
    value = state.counter

section Bounds

variable {numThreads numIncrements thread : Nat} {state next : State}

theorem bounded_initial : Bounded numThreads numIncrements initial where
  each := by
    intro thread
    constructor
    case limited => exact Nat.zero_le _
    case unfinished =>
      intro value impossible
      cases impossible
    case loaded =>
      intro value impossible
      cases impossible
    case positive =>
      intro impossible
      cases impossible
    case fresh =>
      intro value impossible
      cases impossible
  upper := Nat.zero_le _
  last := by
    intro inside two returned
    have all : 0 = numIncrements := congrArg Thread.i (returned 0 inside)
    omega

theorem alone_initial : Alone numThreads initial where
  counter := total_zero.symm
  register := by
    intro thread value _ impossible
    cases impossible

theorem forall_moved (property : Thread → Prop) {moved : Thread}
    (others : ∀ other, property (state.threads other)) (here : property moved) :
    ∀ other, property ((state.move thread moved).threads other) := by
  intro other
  by_cases same : other = thread
  · rw [same, moved_self]
    exact here
  · rw [moved_other same]
    exact others other

theorem rounds_load {register : Option Nat} :
    rounds (state.move thread { state.threads thread with register }) = rounds state := by
  funext other
  unfold rounds
  by_cases same : other = thread
  · rw [same, moved_self]
  · rw [moved_other same]

theorem total_store (inside : thread < numThreads) (counter : Nat) :
    total numThreads (rounds { state.move thread ⟨(state.threads thread).i + 1, none⟩ with counter }) =
      total numThreads (rounds state) + 1 := by
  apply total_add inside
  · exact congrArg Thread.i moved_self
  · intro other differs
    exact congrArg Thread.i (moved_other differs)

theorem bounded_load (bounded : Bounded numThreads numIncrements state)
    (inside : thread < numThreads) (further : (state.threads thread).i < numIncrements) :
    Bounded numThreads numIncrements
      (state.move thread { state.threads thread with register := some state.counter }) := by
  constructor
  case each =>
    rw [rounds_load]
    apply forall_moved _ bounded.each
    constructor
    case limited => exact (bounded.each thread).limited
    case unfinished => exact fun _ _ => further
    case loaded =>
      intro value same
      cases same
      exact bounded.upper
    case positive => exact (bounded.each thread).positive
    case fresh =>
      intro value same once
      cases same
      exact (bounded.each thread).positive once
  case upper =>
    rw [rounds_load]
    exact bounded.upper
  case last =>
    -- the thread has a store before it
    intro _ _ returned
    have here := returned thread inside
    rw [moved_self] at here
    cases here

theorem bounded_store (bounded : Bounded numThreads numIncrements state) {value : Nat}
    (inside : thread < numThreads) (loaded : (state.threads thread).register = some value) :
    Bounded numThreads numIncrements
      { state.move thread ⟨(state.threads thread).i + 1, none⟩ with counter := value + 1 } := by
  have sound := bounded.each thread
  constructor
  case each =>
    rw [total_store inside]
    refine forall_moved _ (fun other => (bounded.each other).stored) ?_
    constructor
    case limited => exact sound.unfinished value loaded
    case unfinished =>
      intro value impossible
      cases impossible
    case loaded =>
      intro value impossible
      cases impossible
    case positive => exact fun _ => Nat.le_add_left 1 value
    case fresh =>
      intro value impossible
      cases impossible
  case upper =>
    rw [total_store inside]
    exact Nat.succ_le_succ (sound.loaded value loaded)
  case last =>
    -- a thread's last round loads what it has stored itself, or something later
    intro _ two returned
    have here := returned thread inside
    rw [show (State.threads _) = (state.move thread ⟨(state.threads thread).i + 1, none⟩).threads
      from rfl, moved_self] at here
    have before : (state.threads thread).i + 1 = numIncrements := congrArg Thread.i here
    have once : 1 ≤ (state.threads thread).i := by omega
    exact Nat.succ_le_succ (sound.fresh value loaded once)

theorem bounded_step (bounded : Bounded numThreads numIncrements state)
    (stepped : step numThreads numIncrements state thread = some next) :
    Bounded numThreads numIncrements next := by
  cases step_effect stepped with
  | load inside idle further => exact bounded_load bounded inside further
  | store value inside loaded => exact bounded_store bounded inside loaded

theorem alone_step (single : numThreads ≤ 1) (alone : Alone numThreads state)
    (stepped : step numThreads numIncrements state thread = some next) :
    Alone numThreads next := by
  cases step_effect stepped with
  | load inside idle further =>
      constructor
      case counter =>
        rw [rounds_load]
        exact alone.counter
      case register =>
        intro other value below here
        have same : other = thread := by omega
        rw [same, moved_self] at here
        exact (Option.some.inj here).symm
  | store value inside loaded =>
      constructor
      case counter =>
        rw [total_store inside, ← alone.counter]
        exact congrArg Nat.succ (alone.register thread value inside loaded)
      case register =>
        intro other found below here
        have same : other = thread := by omega
        rw [same] at here
        have none : (none : Option Nat) = some found := (congrArg Thread.register moved_self.symm).trans here
        cases none

theorem final_between {actions : List Nat}
    (ran : run (step numThreads numIncrements) initial actions = some state)
    (returned : Returned numThreads numIncrements state) :
    leastFinal numThreads numIncrements ≤ state.counter ∧
      state.counter ≤ numThreads * numIncrements := by
  have bounded : Bounded numThreads numIncrements state :=
    run_keeps_always (fun _ _ _ bounded stepped => bounded_step bounded stepped) bounded_initial ran
  have all : total numThreads (rounds state) = numThreads * numIncrements :=
    total_const fun thread inside => congrArg Thread.i (returned thread inside)
  refine ⟨?_, all ▸ bounded.upper⟩
  unfold leastFinal
  split
  case isTrue single =>
    have alone : Alone numThreads state :=
      run_keeps_always (fun _ _ _ alone stepped => alone_step single alone stepped) alone_initial ran
    rw [alone.counter, all]
  case isFalse several =>
    rcases Nat.lt_or_ge numIncrements 2 with few | two
    · rw [Nat.min_eq_right (by omega)]
      rcases Nat.eq_zero_or_pos numIncrements with nothing | once
      · rw [nothing]
        exact Nat.zero_le _
      · have inside : 0 < numThreads := by omega
        have stored : 1 ≤ (state.threads 0).i := by
          rw [returned 0 inside]
          exact once
        have positive := (bounded.each 0).positive stored
        omega
    · rw [Nat.min_eq_left two]
      exact bounded.last (by omega) two returned

end Bounds

section Schedules

variable (numThreads numIncrements : Nat)

def Leads (state next : State) : Prop :=
  ∃ actions, run (step numThreads numIncrements) state actions = some next

def room (allowed : Nat → Bool) (state : State) : Nat :=
  total numThreads fun thread =>
    if allowed thread then numIncrements - (state.threads thread).i else 0

def Idle (allowed : Nat → Bool) (state : State) : Prop :=
  ∀ thread, allowed thread = true → (state.threads thread).register = none

variable {numThreads numIncrements thread : Nat} {state middle next : State}
  {allowed : Nat → Bool}

theorem Leads.trans (first : Leads numThreads numIncrements state middle)
    (second : Leads numThreads numIncrements middle next) :
    Leads numThreads numIncrements state next := by
  obtain ⟨earlier, ranEarlier⟩ := first
  obtain ⟨later, ranLater⟩ := second
  exact ⟨earlier ++ later, (run_append ranEarlier).trans ranLater⟩

theorem leads_load (inside : thread < numThreads) (idle : (state.threads thread).register = none)
    (further : (state.threads thread).i < numIncrements) :
    Leads numThreads numIncrements state
      (state.move thread { state.threads thread with register := some state.counter }) :=
  ⟨[thread], by simp [run, step, inside, idle, further]⟩

theorem leads_store (inside : thread < numThreads) {value : Nat}
    (loaded : (state.threads thread).register = some value) :
    Leads numThreads numIncrements state
      { state.move thread ⟨(state.threads thread).i + 1, none⟩ with counter := value + 1 } :=
  ⟨[thread], by simp [run, step, inside, loaded]⟩

theorem leads_round (inside : thread < numThreads) (idle : (state.threads thread).register = none)
    (further : (state.threads thread).i < numIncrements) :
    Leads numThreads numIncrements state
      { state.move thread ⟨(state.threads thread).i + 1, none⟩ with
        counter := state.counter + 1 } :=
  ⟨[thread, thread], by simp [run, step, inside, idle, further, State.move]⟩

theorem room_congr (same : ∀ other, allowed other = true →
    (next.threads other).i = (state.threads other).i) :
    room numThreads numIncrements allowed next = room numThreads numIncrements allowed state := by
  apply total_congr
  intro other _
  by_cases free : allowed other = true
  · rw [if_pos free, if_pos free, same other free]
  · rw [if_neg free, if_neg free]

theorem room_store (inside : thread < numThreads) (free : allowed thread = true)
    (further : (state.threads thread).i < numIncrements) (counter : Nat) :
    room numThreads numIncrements allowed state =
      room numThreads numIncrements allowed
        { state.move thread ⟨(state.threads thread).i + 1, none⟩ with counter } + 1 := by
  apply total_add inside
  · change _ = (if allowed thread then numIncrements -
      ((state.move thread ⟨(state.threads thread).i + 1, none⟩).threads thread).i else 0) + 1
    rw [moved_self, if_pos free, if_pos free]
    change _ = numIncrements - ((state.threads thread).i + 1) + 1
    omega
  · intro other differs
    change _ = if allowed other then numIncrements -
      ((state.move thread ⟨(state.threads thread).i + 1, none⟩).threads other).i else 0
    rw [moved_other differs]

theorem room_split (inside : thread < numThreads) :
    room numThreads numIncrements (fun _ => true) state =
      room numThreads numIncrements (fun other => other != thread) state +
        (numIncrements - (state.threads thread).i) := by
  apply total_add inside
  · simp
  · intro other differs
    simp [differs]

theorem room_single (inside : thread < numThreads) :
    room numThreads numIncrements (fun other => other == thread) state =
      numIncrements - (state.threads thread).i := by
  have alone : total numThreads (fun other =>
      if other == thread then numIncrements - (state.threads other).i else 0) =
      total numThreads (fun _ => 0) + (numIncrements - (state.threads thread).i) :=
    total_add inside (by simp) fun other differs => by simp [differs]
  rw [total_zero, Nat.zero_add] at alone
  exact alone

/-- The threads that are allowed can add any number up to what is left to them, one round after
another. -/
theorem leads_rounds (count : Nat) (idle : Idle allowed state)
    (enough : count ≤ room numThreads numIncrements allowed state) :
    ∃ next, Leads numThreads numIncrements state next ∧ next.counter = state.counter + count ∧
      Idle allowed next ∧
      (∀ other, allowed other = false → next.threads other = state.threads other) ∧
      room numThreads numIncrements allowed next + count =
        room numThreads numIncrements allowed state := by
  induction count generalizing state with
  | zero => exact ⟨state, ⟨[], rfl⟩, rfl, idle, fun _ _ => rfl, rfl⟩
  | succ count ih =>
      obtain ⟨thread, inside, left⟩ := exists_of_total_pos (Nat.lt_of_lt_of_le (Nat.succ_pos count) enough)
      have free : allowed thread = true := by
        by_contra out
        rw [if_neg out] at left
        exact absurd left (Nat.lt_irrefl 0)
      rw [if_pos free] at left
      have further : (state.threads thread).i < numIncrements := Nat.lt_of_sub_pos left
      have rest := room_store inside free further (state.counter + 1)
      have still : Idle allowed { state.move thread ⟨(state.threads thread).i + 1, none⟩ with
          counter := state.counter + 1 } := by
        intro other allowedOther
        by_cases same : other = thread
        · rw [same]
          exact congrArg Thread.register moved_self
        · exact (congrArg Thread.register (moved_other same)).trans (idle other allowedOther)
      obtain ⟨next, leads, counter, idleNext, others, left⟩ := ih still (by omega)
      refine ⟨next, (leads_round inside (idle thread free) further).trans leads, ?_, idleNext, ?_, ?_⟩
      case refine_1 =>
        rw [counter]
        change state.counter + 1 + count = state.counter + (count + 1)
        omega
      case refine_2 =>
        intro other out
        have differs : other ≠ thread := by
          intro same
          rw [same, free] at out
          cases out
        exact (others other out).trans (moved_other differs)
      case refine_3 => omega

theorem room_initial : room numThreads numIncrements (fun _ => true) initial =
    numThreads * numIncrements :=
  total_const fun _ _ => if_pos rfl

theorem left_le_room (inside : thread < numThreads) (free : allowed thread = true) :
    numIncrements - (state.threads thread).i ≤ room numThreads numIncrements allowed state := by
  have below := @le_total numThreads thread (fun other =>
    if allowed other then numIncrements - (state.threads other).i else 0) inside
  simp only [free, if_true] at below
  exact below

theorem returned_of_room (reached : Leads numThreads numIncrements initial state)
    (idle : Idle (fun _ => true) state)
    (nothing : room numThreads numIncrements (fun _ => true) state = 0) :
    Returned numThreads numIncrements state := by
  obtain ⟨actions, ran⟩ := reached
  have bounded : Bounded numThreads numIncrements state :=
    run_keeps_always (fun _ _ _ bounded stepped => bounded_step bounded stepped) bounded_initial ran
  intro thread inside
  have limited := (bounded.each thread).limited
  have left : numIncrements - (state.threads thread).i ≤ 0 := nothing ▸ left_le_room inside rfl
  have all : (state.threads thread).i = numIncrements := by omega
  have register := idle thread rfl
  cases found : state.threads thread with
  | mk i value =>
      rw [found] at all register
      rw [← all, ← register]

/-- The first thread loads nothing, others go on, and its store forgets what they did. -/
theorem leads_forgetting (inside : 0 < numThreads) (once : 0 < numIncrements) (count : Nat)
    (enough : count ≤ room numThreads numIncrements (fun other => other != 0) initial) :
    ∃ next, Leads numThreads numIncrements initial next ∧ next.counter = 1 ∧
      Idle (fun _ => true) next ∧ (next.threads 0).i = 1 ∧
      room numThreads numIncrements (fun other => other != 0) next + count =
        room numThreads numIncrements (fun other => other != 0) initial := by
  have load : Leads numThreads numIncrements initial
      (initial.move 0 { initial.threads 0 with register := some initial.counter }) :=
    leads_load inside rfl once
  have sameRoom : room numThreads numIncrements (fun other => other != 0)
      (initial.move 0 { initial.threads 0 with register := some initial.counter }) =
        room numThreads numIncrements (fun other => other != 0) initial :=
    room_congr fun other _ => congrFun rounds_load other
  have othersIdle : Idle (fun other => other != 0)
      (initial.move 0 { initial.threads 0 with register := some initial.counter }) := by
    intro other free
    have differs : other ≠ 0 := by simpa using free
    rw [moved_other differs]
    rfl
  obtain ⟨middle, went, _, idle, kept, left⟩ :=
    leads_rounds count othersIdle (sameRoom ▸ enough)
  have first : middle.threads 0 = ⟨0, some 0⟩ := (kept 0 rfl).trans moved_self
  have store : Leads numThreads numIncrements middle
      { middle.move 0 ⟨(middle.threads 0).i + 1, none⟩ with counter := 0 + 1 } :=
    leads_store inside (congrArg Thread.register first)
  refine ⟨_, (load.trans went).trans store, rfl, ?_, ?_, ?_⟩
  case refine_1 =>
    intro other _
    by_cases same : other = 0
    · rw [same]
      exact congrArg Thread.register moved_self
    · refine (congrArg Thread.register (moved_other same)).trans (idle other ?_)
      simpa using same
  case refine_2 =>
    refine (congrArg Thread.i moved_self).trans ?_
    rw [first]
  case refine_3 =>
    rw [← sameRoom, ← left]
    apply congrArg (· + count)
    apply room_congr
    intro other free
    have differs : other ≠ 0 := by simpa using free
    exact congrArg Thread.i (moved_other differs)

def Final (numThreads numIncrements value : Nat) : Prop :=
  ∃ state, Leads numThreads numIncrements initial state ∧
    Returned numThreads numIncrements state ∧ state.counter = value

theorem final_of_ge {value : Nat} (inside : 0 < numThreads) (once : 0 < numIncrements)
    (lower : numIncrements ≤ value) (upper : value ≤ numThreads * numIncrements) :
    Final numThreads numIncrements value := by
  have others : numThreads * numIncrements =
      room numThreads numIncrements (fun other => other != 0) initial + numIncrements := by
    rw [← room_initial]
    exact room_split inside
  obtain ⟨middle, went, counter, idle, first, left⟩ :=
    leads_forgetting inside once (numThreads * numIncrements - value) (by omega)
  have split : room numThreads numIncrements (fun _ => true) middle =
      room numThreads numIncrements (fun other => other != 0) middle +
        (numIncrements - (middle.threads 0).i) := room_split inside
  obtain ⟨state, finished, final, idleFinal, _, nothing⟩ := leads_rounds _ idle (Nat.le_refl _)
  have reached := went.trans finished
  refine ⟨state, reached, returned_of_room reached idleFinal (by omega), ?_⟩
  rw [final, counter, split, first]
  omega

/-- Another thread loads after some of the first thread's rounds and stores after all of them. -/
theorem leads_kept_back (several : 0 < thread) (inside : thread < numThreads) (count : Nat)
    (idle : Idle (fun _ => true) state) (further : (state.threads thread).i < numIncrements)
    (enough : count ≤ numIncrements - (state.threads 0).i) :
    ∃ next, Leads numThreads numIncrements state next ∧ next.counter = state.counter + count + 1 ∧
      Idle (fun _ => true) next ∧
      room numThreads numIncrements (fun _ => true) next + 1 =
        room numThreads numIncrements (fun other => other != 0) state := by
  have first : 0 < numThreads := Nat.lt_trans several inside
  have apart : thread ≠ 0 := Nat.ne_of_gt several
  rw [← room_single first] at enough
  obtain ⟨early, went, counter, idleEarly, kept, left⟩ :=
    leads_rounds count (fun other _ => idle other rfl) enough
  have same : early.threads thread = state.threads thread := kept thread (by simp [apart])
  obtain ⟨loaded, load, loadedValue, elsewhere⟩ : ∃ loaded,
      Leads numThreads numIncrements early loaded ∧
      loaded.threads thread = ⟨(early.threads thread).i, some early.counter⟩ ∧
      ∀ other, other ≠ thread → loaded.threads other = early.threads other :=
    ⟨_, leads_load inside (by rw [same]; exact idle thread rfl) (by rw [same]; exact further),
      moved_self, fun _ differs => moved_other differs⟩
  have firstIdle : Idle (fun other => other == 0) loaded := by
    intro other free
    have zero : other = 0 := by simpa using free
    rw [zero, elsewhere 0 apart.symm]
    exact idleEarly 0 rfl
  obtain ⟨late, wentOn, _, idleLate, keptLate, leftLate⟩ :=
    leads_rounds _ firstIdle (Nat.le_refl _)
  have here : late.threads thread = ⟨(early.threads thread).i, some early.counter⟩ :=
    (keptLate thread (by simp [apart])).trans loadedValue
  have store : Leads numThreads numIncrements late
      { late.move thread ⟨(late.threads thread).i + 1, none⟩ with
        counter := early.counter + 1 } :=
    leads_store inside (congrArg Thread.register here)
  refine ⟨_, ((went.trans load).trans wentOn).trans store, ?_, ?_, ?_⟩
  case refine_1 =>
    change early.counter + 1 = _
    rw [counter]
  case refine_2 =>
    intro other _
    by_cases own : other = thread
    · rw [own]
      exact congrArg Thread.register moved_self
    · refine (congrArg Thread.register (moved_other own)).trans ?_
      by_cases zero : other = 0
      · exact idleLate other (by simp [zero])
      · rw [keptLate other (by simp [zero]), elsewhere other own, kept other (by simp [zero])]
        exact idle other rfl
  case refine_3 =>
    have before : room numThreads numIncrements (fun other => other != 0) late =
        room numThreads numIncrements (fun other => other != 0) state := by
      apply room_congr
      intro other free
      have differs : (other == 0) = false := by simpa using free
      rw [keptLate other differs]
      by_cases own : other = thread
      · rw [own, loadedValue, same]
      · rw [elsewhere other own, kept other differs]
    have behind : room numThreads numIncrements (fun other => other == 0) late = 0 := by omega
    rw [room_single first] at behind
    have last : room numThreads numIncrements (fun other => other != 0) late =
        room numThreads numIncrements (fun other => other != 0)
          { late.move thread ⟨(late.threads thread).i + 1, none⟩ with
            counter := early.counter + 1 } + 1 :=
      room_store inside (by simp [apart]) (by rw [here, same]; exact further) _
    rw [room_split first, ← before, last]
    have zero : ((late.move thread ⟨(late.threads thread).i + 1, none⟩).threads 0).i =
      (late.threads 0).i := congrArg Thread.i (moved_other apart.symm)
    change _ + (numIncrements - ((late.move thread ⟨(late.threads thread).i + 1, none⟩).threads 0).i) +
      1 = _
    rw [zero, behind]

/-- Another thread keeps one round back, loads what the first thread has after all that was
forgotten and some rounds more, and stores last. -/
theorem final_of_lt {value : Nat} (several : 1 < numThreads) (twice : 1 < numIncrements)
    (lower : 2 ≤ value) (upper : value ≤ numIncrements + 1) :
    Final numThreads numIncrements value := by
  have inside : 0 < numThreads := by omega
  have once : 0 < numIncrements := by omega
  have others : numThreads * numIncrements =
      room numThreads numIncrements (fun other => other != 0) initial + numIncrements := by
    rw [← room_initial]
    exact room_split inside
  have two : 2 * numIncrements ≤ numThreads * numIncrements := Nat.mul_le_mul_right _ several
  obtain ⟨middle, went, counter, idle, first, left⟩ := leads_forgetting inside once
    (room numThreads numIncrements (fun other => other != 0) initial - 1) (by omega)
  have one : room numThreads numIncrements (fun other => other != 0) middle = 1 := by omega
  obtain ⟨thread, below, kept⟩ := exists_of_total_pos (one ▸ Nat.one_pos :
    0 < room numThreads numIncrements (fun other => other != 0) middle)
  have free : (thread != 0) = true := by
    by_contra out
    rw [if_neg out] at kept
    exact absurd kept (Nat.lt_irrefl 0)
  rw [if_pos free] at kept
  obtain ⟨state, wentOn, final, idleFinal, nothing⟩ := leads_kept_back
    (Nat.pos_of_ne_zero (by simpa using free)) below (value - 2) idle (Nat.lt_of_sub_pos kept)
    (by omega)
  have reached := went.trans wentOn
  refine ⟨state, reached, returned_of_room reached idleFinal (by omega), ?_⟩
  rw [final, counter]
  omega

end Schedules

/-- For any number of threads and of rounds, the schedules end with exactly the values between
the least one and the number of increments. -/
theorem final_values (numThreads numIncrements value : Nat) :
    (∃ actions state, run (step numThreads numIncrements) initial actions = some state ∧
      Returned numThreads numIncrements state ∧ state.counter = value) ↔
      leastFinal numThreads numIncrements ≤ value ∧ value ≤ numThreads * numIncrements := by
  constructor
  · rintro ⟨actions, state, ran, returned, same⟩
    rw [← same]
    exact final_between ran returned
  · rintro ⟨lower, upper⟩
    have final : Final numThreads numIncrements value := by
      rcases Nat.eq_zero_or_pos (numThreads * numIncrements) with nothing | something
      · have zero : value = 0 := Nat.le_zero.mp (nothing ▸ upper)
        refine ⟨initial, ⟨[], rfl⟩, ?_, zero.symm⟩
        intro thread inside
        rcases Nat.mul_eq_zero.mp nothing with threads | rounds
        · exact absurd (threads ▸ inside) (Nat.not_lt_zero thread)
        · rw [rounds]
          rfl
      · have inside : 0 < numThreads := Nat.pos_of_mul_pos_right something
        have once : 0 < numIncrements := Nat.pos_of_mul_pos_left something
        rcases Nat.lt_or_ge value numIncrements with below | above
        · unfold leastFinal at lower
          split at lower
          case isTrue single =>
            have one : numThreads = 1 := by omega
            rw [one, Nat.one_mul] at lower
            omega
          case isFalse several => exact final_of_lt (by omega) (by omega) (by omega) (by omega)
        · exact final_of_ge inside once above upper
    obtain ⟨state, ⟨actions, ran⟩, returned, same⟩ := final
    exact ⟨actions, state, ran, returned, same⟩

end LinuxFff.CounterRace
