import LinuxFff.StepSystem

/-!
# Waiting for data: `assignment7/ex3.c`

A producer stores a value and signals a condition variable, and consumers wait for it in a loop.
Every access to `buffer` and `data_ready` is a step, `pthread_cond_wait` goes to sleep and lets go
of the mutex in one step and takes it again in another, and a sleeping consumer may wake without
a signal. `main` has one consumer; here there are any number.
-/

namespace LinuxFff.ConditionVariable

open LinuxFff.StepSystem

set_option autoImplicit false

inductive Producer where
  | sleeping
  | locked
  | stored
  | announced
  | signalled
  | finished
  deriving DecidableEq

/-- `waiting` is asleep in `pthread_cond_wait`, `woken` still in there without the mutex. -/
inductive Consumer where
  | starting
  | checking
  | waiting
  | woken
  | consuming
  | printed
  | finished
  deriving DecidableEq

inductive Thread where
  | producer
  | consumer (index : Nat)
  deriving DecidableEq

structure State where
  lock : Option Thread
  buffer : Int
  dataReady : Int
  producer : Producer
  consumers : Nat → Consumer
  consumed : List (Nat × Int)

def start : State := ⟨none, 0, 0, .sleeping, fun _ => .starting, []⟩

inductive Action where
  | produce (woken : Option Nat)
  | consume (index : Nat)
  | wakeUp (index : Nat)

def State.move (state : State) (index : Nat) (consumer : Consumer) : State :=
  { state with consumers := Function.update state.consumers index consumer }

/-- The statements of `producer` one by one; `woken` is who gets the signal. -/
def produce (consumers : Nat) (state : State) (woken : Option Nat) : Option State :=
  match state.producer, woken with
  | .sleeping, none =>
      if state.lock = none then some { state with lock := some .producer, producer := .locked }
      else none
  | .locked, none => some { state with buffer := 1111, producer := .stored }
  | .stored, none => some { state with dataReady := 1, producer := .announced }
  | .announced, none =>
      -- nobody sleeps
      if ∀ index < consumers, state.consumers index ≠ .waiting then
        some { state with producer := .signalled }
      else none
  | .announced, some index =>
      if index < consumers ∧ state.consumers index = .waiting then
        some { state.move index .woken with producer := .signalled }
      else none
  | .signalled, none => some { state with lock := none, producer := .finished }
  | _, _ => none

/-- The statements of `consumer`. -/
def consume (state : State) (index : Nat) : Option State :=
  match state.consumers index with
  | .starting =>
      if state.lock = none then
        some { state.move index .checking with lock := some (.consumer index) }
      else none
  | .checking =>
      if state.dataReady = 0 then some { state.move index .waiting with lock := none }
      else some (state.move index .consuming)
  | .waiting => none
  | .woken =>
      if state.lock = none then
        some { state.move index .checking with lock := some (.consumer index) }
      else none
  | .consuming =>
      some { state.move index .printed with consumed := state.consumed ++ [(index, state.buffer)] }
  | .printed => some { state.move index .finished with lock := none }
  | .finished => none

def step (consumers : Nat) (state : State) : Action → Option State
  | .produce woken => produce consumers state woken
  | .consume index => if index < consumers then consume state index else none
  | .wakeUp index =>
      if index < consumers ∧ state.consumers index = .waiting then some (state.move index .woken)
      else none

def Producer.inside : Producer → Bool
  | .sleeping => false
  | .finished => false
  | _ => true

def Consumer.inside : Consumer → Bool
  | .checking => true
  | .consuming => true
  | .printed => true
  | _ => false

def State.inside (state : State) : Thread → Bool
  | .producer => state.producer.inside
  | .consumer index => (state.consumers index).inside

def Producer.hasStored : Producer → Bool
  | .sleeping => false
  | .locked => false
  | _ => true

def Producer.hasAnnounced : Producer → Bool
  | .announced => true
  | .signalled => true
  | .finished => true
  | _ => false

def Producer.hasSignalled : Producer → Bool
  | .signalled => true
  | .finished => true
  | _ => false

def Consumer.through : Consumer → Bool
  | .consuming => true
  | .printed => true
  | .finished => true
  | _ => false

def Consumer.hasPrinted : Consumer → Bool
  | .printed => true
  | .finished => true
  | _ => false

/-- On the way through the loop, or through it. -/
def Consumer.past : Consumer → Bool
  | .starting => false
  | .waiting => false
  | _ => true

/-- The lock is held by the thread that is inside. -/
def Exclusive (state : State) : Prop :=
  ∀ thread, state.inside thread = true ↔ state.lock = some thread

structure Data (state : State) : Prop where
  buffer : state.producer.hasStored = true → state.buffer = 1111
  ready : state.dataReady = if state.producer.hasAnnounced = true then 1 else 0
  through : ∀ index, (state.consumers index).through = true → state.producer.hasAnnounced = true

/-- Each consumer that has printed has printed the value, once. -/
structure Record (state : State) : Prop where
  entry : ∀ entry ∈ state.consumed,
    entry.2 = 1111 ∧ (state.consumers entry.1).hasPrinted = true
  once : (state.consumed.map Prod.fst).Nodup
  printed : ∀ index, (state.consumers index).hasPrinted = true →
    index ∈ state.consumed.map Prod.fst

/-- The signal has reached somebody, or nobody had gone to sleep. -/
def Reached (consumers : Nat) (state : State) : Prop :=
  state.producer.hasSignalled = true →
    (∃ index < consumers, (state.consumers index).past = true) ∨
      ∀ index < consumers, state.consumers index = .starting

inductive Effect (consumers : Nat) (state : State) : Action → State → Prop where
  | enter (asleep : state.producer = .sleeping) (free : state.lock = none) :
      Effect consumers state (.produce none)
        { state with lock := some .producer, producer := .locked }
  | store (here : state.producer = .locked) :
      Effect consumers state (.produce none) { state with buffer := 1111, producer := .stored }
  | announce (here : state.producer = .stored) :
      Effect consumers state (.produce none) { state with dataReady := 1, producer := .announced }
  | signalNobody (here : state.producer = .announced)
      (awake : ∀ index < consumers, state.consumers index ≠ .waiting) :
      Effect consumers state (.produce none) { state with producer := .signalled }
  | signal (index : Nat) (here : state.producer = .announced) (inRange : index < consumers)
      (asleep : state.consumers index = .waiting) :
      Effect consumers state (.produce (some index))
        { state.move index .woken with producer := .signalled }
  | leave (here : state.producer = .signalled) :
      Effect consumers state (.produce none) { state with lock := none, producer := .finished }
  | lock (index : Nat) (inRange : index < consumers) (free : state.lock = none)
      (here : state.consumers index = .starting ∨ state.consumers index = .woken) :
      Effect consumers state (.consume index)
        { state.move index .checking with lock := some (.consumer index) }
  | sleep (index : Nat) (inRange : index < consumers)
      (here : state.consumers index = .checking) (early : state.dataReady = 0) :
      Effect consumers state (.consume index) { state.move index .waiting with lock := none }
  | pass (index : Nat) (inRange : index < consumers)
      (here : state.consumers index = .checking) (ready : state.dataReady ≠ 0) :
      Effect consumers state (.consume index) (state.move index .consuming)
  | print (index : Nat) (inRange : index < consumers)
      (here : state.consumers index = .consuming) :
      Effect consumers state (.consume index)
        { state.move index .printed with consumed := state.consumed ++ [(index, state.buffer)] }
  | unlock (index : Nat) (inRange : index < consumers)
      (here : state.consumers index = .printed) :
      Effect consumers state (.consume index) { state.move index .finished with lock := none }
  | wake (index : Nat) (inRange : index < consumers)
      (asleep : state.consumers index = .waiting) :
      Effect consumers state (.wakeUp index) (state.move index .woken)

section Exclusion

variable {Actor : Type*} [DecidableEq Actor] {inside : Actor → Bool} {lock : Option Actor}
  {actor : Actor}

theorem exclusive_enter (free : ∀ other, inside other = true ↔ (none : Option Actor) = some other) :
    ∀ other, Function.update inside actor true other = true ↔ some actor = some other := by
  intro other
  by_cases same : other = actor
  · simp [same]
  · rw [Function.update_of_ne same, free other]
    simp [Ne.symm same]

theorem exclusive_leave (held : ∀ other, inside other = true ↔ lock = some other)
    (here : inside actor = true) :
    ∀ other, Function.update inside actor false other = true ↔
      (none : Option Actor) = some other := by
  intro other
  by_cases same : other = actor
  · simp [same]
  · rw [Function.update_of_ne same, held other, (held actor).mp here]
    simp [Ne.symm same]

end Exclusion

section Steps

variable {consumers : Nat} {state next : State} {action : Action} {index : Nat}

theorem produce_effect {woken : Option Nat}
    (stepped : produce consumers state woken = some next) :
    Effect consumers state (.produce woken) next := by
  unfold produce at stepped
  split at stepped
  case h_1 here =>
    simp only [Option.ite_none_right_eq_some, Option.some.injEq] at stepped
    obtain ⟨free, rfl⟩ := stepped
    exact .enter here free
  case h_2 here =>
    cases stepped
    exact .store here
  case h_3 here =>
    cases stepped
    exact .announce here
  case h_4 here =>
    simp only [Option.ite_none_right_eq_some, Option.some.injEq] at stepped
    obtain ⟨awake, rfl⟩ := stepped
    exact .signalNobody here awake
  case h_5 index here =>
    simp only [Option.ite_none_right_eq_some, Option.some.injEq] at stepped
    obtain ⟨⟨inRange, asleep⟩, rfl⟩ := stepped
    exact .signal index here inRange asleep
  case h_6 here =>
    cases stepped
    exact .leave here
  case h_7 => cases stepped

theorem consume_effect (inRange : index < consumers)
    (stepped : consume state index = some next) :
    Effect consumers state (.consume index) next := by
  unfold consume at stepped
  split at stepped
  case h_1 here =>
    simp only [Option.ite_none_right_eq_some, Option.some.injEq] at stepped
    obtain ⟨free, rfl⟩ := stepped
    exact .lock index inRange free (Or.inl here)
  case h_2 here =>
    split at stepped
    case isTrue early =>
      cases stepped
      exact .sleep index inRange here early
    case isFalse ready =>
      cases stepped
      exact .pass index inRange here ready
  case h_3 => cases stepped
  case h_4 here =>
    simp only [Option.ite_none_right_eq_some, Option.some.injEq] at stepped
    obtain ⟨free, rfl⟩ := stepped
    exact .lock index inRange free (Or.inr here)
  case h_5 here =>
    cases stepped
    exact .print index inRange here
  case h_6 here =>
    cases stepped
    exact .unlock index inRange here
  case h_7 => cases stepped

theorem step_effect (stepped : step consumers state action = some next) :
    Effect consumers state action next := by
  cases action with
  | produce woken => exact produce_effect stepped
  | consume index =>
      simp only [step, Option.ite_none_right_eq_some] at stepped
      exact consume_effect stepped.1 stepped.2
  | wakeUp index =>
      simp only [step, Option.ite_none_right_eq_some, Option.some.injEq] at stepped
      obtain ⟨⟨inRange, asleep⟩, rfl⟩ := stepped
      exact .wake index inRange asleep

theorem inside_producer (consumers : next.consumers = state.consumers) :
    next.inside = Function.update state.inside .producer next.producer.inside := by
  funext thread
  cases thread with
  | producer =>
      rw [Function.update_self]
      rfl
  | consumer index =>
      rw [Function.update_of_ne (by simp)]
      simp only [State.inside, consumers]

theorem inside_consumer (consumer : Consumer) (producer : next.producer = state.producer)
    (moves : next.consumers = Function.update state.consumers index consumer) :
    next.inside = Function.update state.inside (.consumer index) consumer.inside := by
  funext thread
  cases thread with
  | producer =>
      rw [Function.update_of_ne (by simp)]
      simp only [State.inside, producer]
  | consumer other =>
      by_cases same : other = index
      · simp [same, State.inside, moves]
      · rw [Function.update_of_ne (by simpa using same)]
        simp [State.inside, moves, same]

theorem Exclusive.enter {thread : Thread} (exclusive : Exclusive state)
    (free : state.lock = none) (inside : next.inside = Function.update state.inside thread true)
    (lock : next.lock = some thread) : Exclusive next := by
  unfold Exclusive at exclusive ⊢
  rw [free] at exclusive
  rw [inside, lock]
  exact exclusive_enter exclusive

theorem Exclusive.leave {thread : Thread} (exclusive : Exclusive state)
    (here : state.inside thread = true)
    (inside : next.inside = Function.update state.inside thread false)
    (lock : next.lock = none) : Exclusive next := by
  unfold Exclusive
  rw [inside, lock]
  exact exclusive_leave exclusive here

theorem Exclusive.stay {thread : Thread} {after : Bool} (exclusive : Exclusive state)
    (here : state.inside thread = after)
    (inside : next.inside = Function.update state.inside thread after)
    (lock : next.lock = state.lock) : Exclusive next := by
  unfold Exclusive
  rw [inside, lock, ← here, Function.update_eq_self]
  exact exclusive

theorem producer_inside {phase : Producer} (here : state.producer = phase) :
    state.inside .producer = phase.inside := by
  rw [← here]
  rfl

theorem consumer_inside {phase : Consumer} (here : state.consumers index = phase) :
    state.inside (.consumer index) = phase.inside := by
  rw [← here]
  rfl

theorem exclusive_step (exclusive : Exclusive state)
    (effect : Effect consumers state action next) : Exclusive next := by
  cases effect with
  | enter asleep free => exact exclusive.enter free (inside_producer rfl) rfl
  | store here => exact exclusive.stay (producer_inside here) (inside_producer rfl) rfl
  | announce here => exact exclusive.stay (producer_inside here) (inside_producer rfl) rfl
  | signalNobody here awake =>
      exact exclusive.stay (producer_inside here) (inside_producer rfl) rfl
  | signal index here inRange asleep =>
      have woken : Exclusive (state.move index .woken) :=
        exclusive.stay (consumer_inside asleep) (inside_consumer .woken rfl rfl) rfl
      have inside : (state.move index .woken).producer = .announced := here
      exact woken.stay (producer_inside inside) (inside_producer rfl) rfl
  | leave here => exact exclusive.leave (producer_inside here) (inside_producer rfl) rfl
  | lock index inRange free here => exact exclusive.enter free (inside_consumer .checking rfl rfl) rfl
  | sleep index inRange here early =>
      exact exclusive.leave (consumer_inside here) (inside_consumer .waiting rfl rfl) rfl
  | pass index inRange here ready =>
      exact exclusive.stay (consumer_inside here) (inside_consumer .consuming rfl rfl) rfl
  | print index inRange here =>
      exact exclusive.stay (consumer_inside here) (inside_consumer .printed rfl rfl) rfl
  | unlock index inRange here =>
      exact exclusive.leave (consumer_inside here) (inside_consumer .finished rfl rfl) rfl
  | wake index inRange asleep =>
      exact exclusive.stay (consumer_inside asleep) (inside_consumer .woken rfl rfl) rfl

theorem forall_move {property : Consumer → Bool} {fact : Nat → Prop} {moved : Consumer}
    (others : ∀ other, property (state.consumers other) = true → fact other)
    (here : property moved = true → fact index) :
    ∀ other, property (Function.update state.consumers index moved other) = true → fact other := by
  intro other holds
  by_cases same : other = index
  · subst same
    rw [Function.update_self] at holds
    exact here holds
  · rw [Function.update_of_ne same] at holds
    exact others other holds

theorem data_step (data : Data state) (effect : Effect consumers state action next) :
    Data next := by
  obtain ⟨buffer, ready, through⟩ := data
  cases effect with
  | enter asleep free =>
      refine ⟨?_, ?_, ?_⟩
      · intro impossible
        cases impossible
      · simpa [asleep, Producer.hasAnnounced] using ready
      · simpa [asleep, Producer.hasAnnounced] using through
  | store here =>
      refine ⟨fun _ => rfl, ?_, ?_⟩
      · simpa [here, Producer.hasAnnounced] using ready
      · simpa [here, Producer.hasAnnounced] using through
  | announce here =>
      refine ⟨fun _ => buffer (by rw [here]; rfl), rfl, fun _ _ => rfl⟩
  | signalNobody here awake =>
      refine ⟨fun _ => buffer (by rw [here]; rfl), ?_, fun _ _ => rfl⟩
      simpa [here, Producer.hasAnnounced] using ready
  | signal index here inRange asleep =>
      refine ⟨fun _ => buffer (by rw [here]; rfl), ?_, fun _ _ => rfl⟩
      simpa [here, Producer.hasAnnounced, State.move] using ready
  | leave here =>
      refine ⟨fun _ => buffer (by rw [here]; rfl), ?_, fun _ _ => rfl⟩
      simpa [here, Producer.hasAnnounced] using ready
  | lock index inRange free here =>
      refine ⟨buffer, ready, forall_move through ?_⟩
      intro impossible
      cases impossible
  | sleep index inRange here early =>
      refine ⟨buffer, ready, forall_move through ?_⟩
      intro impossible
      cases impossible
  | pass index inRange here isReady =>
      refine ⟨buffer, ready, forall_move through ?_⟩
      intro _
      by_contra early
      change ¬state.producer.hasAnnounced = true at early
      rw [if_neg early] at ready
      exact isReady ready
  | print index inRange here =>
      exact ⟨buffer, ready, forall_move through fun _ => through index (by rw [here]; rfl)⟩
  | unlock index inRange here =>
      exact ⟨buffer, ready, forall_move through fun _ => through index (by rw [here]; rfl)⟩
  | wake index inRange asleep =>
      refine ⟨buffer, ready, forall_move through ?_⟩
      intro impossible
      cases impossible

theorem Record.move {moved : Consumer} (record : Record state)
    (same : moved.hasPrinted = (state.consumers index).hasPrinted)
    (moves : next.consumers = Function.update state.consumers index moved)
    (consumed : next.consumed = state.consumed) : Record next where
  entry := by
    rw [consumed, moves]
    intro entry member
    obtain ⟨value, printed⟩ := record.entry entry member
    refine ⟨value, ?_⟩
    by_cases own : entry.1 = index
    · rw [own, Function.update_self, same, ← own]
      exact printed
    · rw [Function.update_of_ne own]
      exact printed
  once := by
    rw [consumed]
    exact record.once
  printed := by
    rw [consumed, moves]
    exact forall_move record.printed fun holds => record.printed index (same ▸ holds)

theorem Record.keep (record : Record state) (consumers : next.consumers = state.consumers)
    (consumed : next.consumed = state.consumed) : Record next where
  entry := by
    rw [consumed, consumers]
    exact record.entry
  once := by
    rw [consumed]
    exact record.once
  printed := by
    rw [consumed, consumers]
    exact record.printed

theorem record_step (record : Record state) (data : Data state)
    (effect : Effect consumers state action next) : Record next := by
  cases effect with
  | enter asleep free => exact record.keep rfl rfl
  | store here => exact record.keep rfl rfl
  | announce here => exact record.keep rfl rfl
  | signalNobody here awake => exact record.keep rfl rfl
  | leave here => exact record.keep rfl rfl
  | signal index here inRange asleep =>
      refine record.move ?_ rfl rfl
      rw [asleep]
      rfl
  | lock index inRange free here =>
      refine record.move ?_ rfl rfl
      rcases here with new | woken
      · rw [new]
        rfl
      · rw [woken]
        rfl
  | sleep index inRange here early =>
      refine record.move ?_ rfl rfl
      rw [here]
      rfl
  | pass index inRange here ready =>
      refine record.move ?_ rfl rfl
      rw [here]
      rfl
  | unlock index inRange here =>
      refine record.move ?_ rfl rfl
      rw [here]
      rfl
  | wake index inRange asleep =>
      refine record.move ?_ rfl rfl
      rw [asleep]
      rfl
  | print index inRange here =>
      have fresh : index ∉ state.consumed.map Prod.fst := by
        intro member
        obtain ⟨entry, present, same⟩ := List.mem_map.mp member
        have printed := (record.entry entry present).2
        rw [same, here] at printed
        cases printed
      have announced := data.through index (by rw [here]; rfl)
      have stored : state.producer.hasStored = true := by
        cases phase : state.producer <;> simp_all [Producer.hasAnnounced, Producer.hasStored]
      constructor
      case entry =>
        intro entry member
        change entry ∈ state.consumed ++ [(index, state.buffer)] at member
        change _ ∧ (Function.update state.consumers index .printed entry.1).hasPrinted = true
        rcases List.mem_append.mp member with earlier | last
        · obtain ⟨value, printed⟩ := record.entry entry earlier
          refine ⟨value, ?_⟩
          by_cases own : entry.1 = index
          · rw [own, Function.update_self]
            rfl
          · rw [Function.update_of_ne own]
            exact printed
        · rw [List.mem_singleton.mp last]
          refine ⟨data.buffer stored, ?_⟩
          rw [Function.update_self]
          rfl
      case once =>
        change ((state.consumed ++ [(index, state.buffer)]).map Prod.fst).Nodup
        rw [List.map_append]
        refine List.nodup_append.mpr ⟨record.once, by simp, ?_⟩
        intro one member other single same
        rw [List.map_singleton, List.mem_singleton] at single
        rw [same, single] at member
        exact fresh member
      case printed =>
        change ∀ other, (Function.update state.consumers index .printed other).hasPrinted = true →
          other ∈ (state.consumed ++ [(index, state.buffer)]).map Prod.fst
        refine forall_move ?_ ?_
        · intro other printed
          rw [List.map_append]
          exact List.mem_append_left _ (record.printed other printed)
        · intro _
          simp

theorem past_of {phase : Consumer} (moved : phase ≠ .starting) (awake : phase ≠ .waiting) :
    phase.past = true := by
  cases phase <;> simp_all [Consumer.past]

theorem reached_move {moved : Consumer} (inRange : index < consumers) (past : moved.past = true)
    (moves : next.consumers = Function.update state.consumers index moved) :
    Reached consumers next := by
  intro _
  refine Or.inl ⟨index, inRange, ?_⟩
  rw [moves, Function.update_self]
  exact past

theorem reached_step (reached : Reached consumers state) (data : Data state)
    (effect : Effect consumers state action next) : Reached consumers next := by
  cases effect with
  | enter asleep free =>
      intro impossible
      cases impossible
  | store here =>
      intro impossible
      cases impossible
  | announce here =>
      intro impossible
      cases impossible
  | signalNobody here awake =>
      intro _
      by_cases all : ∀ index < consumers, state.consumers index = .starting
      · exact Or.inr all
      · simp only [not_forall] at all
        obtain ⟨index, inRange, moved⟩ := all
        exact Or.inl ⟨index, inRange, past_of moved (awake index inRange)⟩
  | signal index here inRange asleep =>
      exact @reached_move consumers state _ index .woken inRange rfl rfl
  | leave here => exact fun _ => reached (by rw [here]; rfl)
  | lock index inRange free here =>
      exact @reached_move consumers state _ index .checking inRange rfl rfl
  | sleep index inRange here early =>
      -- after the signal nobody goes to sleep any more
      intro signalled
      have announced : state.producer.hasAnnounced = true := by
        change state.producer.hasSignalled = true at signalled
        cases phase : state.producer <;> simp_all [Producer.hasSignalled, Producer.hasAnnounced]
      have ready := data.ready
      rw [if_pos announced, early] at ready
      cases ready
  | pass index inRange here ready =>
      exact @reached_move consumers state _ index .consuming inRange rfl rfl
  | print index inRange here =>
      exact @reached_move consumers state _ index .printed inRange rfl rfl
  | unlock index inRange here =>
      exact @reached_move consumers state _ index .finished inRange rfl rfl
  | wake index inRange asleep =>
      exact @reached_move consumers state _ index .woken inRange rfl rfl

def Idle (consumers : Nat) (state : State) : Prop :=
  ∀ index, (state.consumers index).inside = true → index < consumers

theorem idle_step (idle : Idle consumers state) (effect : Effect consumers state action next) :
    Idle consumers next := by
  cases effect with
  | enter asleep free => exact idle
  | store here => exact idle
  | announce here => exact idle
  | signalNobody here awake => exact idle
  | signal index here inRange asleep => exact forall_move idle fun _ => inRange
  | leave here => exact idle
  | lock index inRange free here => exact forall_move idle fun _ => inRange
  | sleep index inRange here early => exact forall_move idle fun _ => inRange
  | pass index inRange here ready => exact forall_move idle fun _ => inRange
  | print index inRange here => exact forall_move idle fun _ => inRange
  | unlock index inRange here => exact forall_move idle fun _ => inRange
  | wake index inRange asleep => exact forall_move idle fun _ => inRange

/-- A consumer needs six steps, and two more for each time that it wakes in vain. -/
def work (index : Nat) (state : State) : Nat :=
  match state.consumers index with
  | .starting => 6
  | .checking => if state.dataReady = 0 then 5 else 3
  | .waiting => 4
  | .woken => if state.dataReady = 0 then 6 else 4
  | .consuming => 2
  | .printed => 1
  | .finished => 0

def consumes (index : Nat) : Action → Bool
  | .consume other => other == index
  | _ => false

def wakes (index : Nat) : Action → Bool
  | .wakeUp other => other == index
  | _ => false

theorem work_unmoved (same : next.consumers index = state.consumers index)
    (ready : state.dataReady ≠ 0 → next.dataReady ≠ 0) : work index next ≤ work index state := by
  unfold work
  rw [same]
  by_cases before : state.dataReady = 0
  · cases state.consumers index <;> simp only [if_pos before, Nat.le_refl] <;> split <;> omega
  · cases state.consumers index <;>
      simp only [if_neg before, if_neg (ready before), Nat.le_refl]

/-- What a step of a consumer costs and brings in. -/
theorem work_moved {moved : Nat} {phase : Consumer}
    (moves : next.consumers = Function.update state.consumers moved phase)
    (ready : next.dataReady = state.dataReady)
    (pays : work moved next + 1 ≤ work moved state) :
    work index next + (if (moved == index) = true then 1 else 0) ≤ work index state := by
  by_cases own : moved = index
  · subst own
    simpa using pays
  · have unmoved : work index next ≤ work index state := by
      refine work_unmoved ?_ (by rw [ready]; exact id)
      rw [moves, Function.update_of_ne (Ne.symm own)]
    simpa [own] using unmoved

theorem step_pays (data : Data state) (effect : Effect consumers state action next) :
    work index next + (if consumes index action = true then 1 else 0) ≤
      work index state + (if wakes index action = true then 2 else 0) := by
  cases effect with
  | enter asleep free => exact work_unmoved rfl id
  | store here => exact work_unmoved rfl id
  | announce here => exact work_unmoved rfl fun _ => (by decide : (1 : Int) ≠ 0)
  | signalNobody here awake => exact work_unmoved rfl id
  | leave here => exact work_unmoved rfl id
  | signal moved here inRange asleep =>
      have ready : state.dataReady ≠ 0 := by
        have isReady := data.ready
        rw [if_pos (by rw [here]; rfl)] at isReady
        rw [isReady]
        decide
      by_cases own : index = moved
      · subst own
        simp [work, State.move, asleep, ready, consumes, wakes]
      · refine work_unmoved ?_ id
        exact Function.update_of_ne own _ _
  | lock moved inRange free here =>
      refine work_moved rfl rfl ?_
      by_cases early : state.dataReady = 0 <;> rcases here with new | woken <;>
        simp_all [work, State.move]
  | sleep moved inRange here early =>
      refine work_moved rfl rfl ?_
      simp [work, State.move, here, early]
  | pass moved inRange here ready =>
      refine work_moved rfl rfl ?_
      simp [work, State.move, here, ready]
  | print moved inRange here =>
      refine work_moved rfl rfl ?_
      simp [work, State.move, here]
  | unlock moved inRange here =>
      refine work_moved rfl rfl ?_
      simp [work, State.move, here]
  | wake moved inRange asleep =>
      by_cases own : index = moved
      · subst own
        by_cases early : state.dataReady = 0 <;>
          simp [work, State.move, asleep, consumes, wakes, early]
      · have unmoved : work index (state.move moved .woken) ≤ work index state :=
          work_unmoved (Function.update_of_ne own _ _) id
        simpa [consumes, wakes, Ne.symm own] using unmoved

/-- When only a wake-up in vain is left, the producer is through, and so is every consumer that
does not sleep. -/
theorem quiet_finished (exclusive : Exclusive state) (idle : Idle consumers state)
    (quiet : ∀ action, (∀ index, action ≠ .wakeUp index) → step consumers state action = none) :
    state.producer = .finished ∧
      ∀ index < consumers, state.consumers index = .finished ∨ state.consumers index = .waiting := by
  have produces : ∀ woken, produce consumers state woken = none :=
    fun woken => quiet (.produce woken) (by simp)
  have consumes : ∀ index < consumers, consume state index = none := by
    intro index inRange
    have nothing := quiet (.consume index) (by simp)
    simpa [step, inRange] using nothing
  have free : state.lock = none := by
    cases held : state.lock with
    | none => rfl
    | some thread =>
        have inside := (exclusive thread).mpr held
        cases thread with
        | producer =>
            have plain := produces none
            change state.producer.inside = true at inside
            cases phase : state.producer <;> rw [phase] at inside <;>
              simp [produce, phase, Producer.inside] at plain inside
            -- somebody sleeps, and gets the signal
            obtain ⟨index, inRange, asleep⟩ := plain
            have signal := produces (some index)
            simp [produce, phase, inRange, asleep] at signal
        | consumer index =>
            have nothing := consumes index (idle index inside)
            change (state.consumers index).inside = true at inside
            unfold consume at nothing
            cases phase : state.consumers index <;> rw [phase] at inside nothing <;>
              simp [Consumer.inside] at inside nothing
            split at nothing <;> cases nothing
  have outside : ∀ thread, state.inside thread = false := by
    intro thread
    by_contra inside
    have held := (exclusive thread).mp (by simpa using inside)
    rw [free] at held
    cases held
  constructor
  · have plain := produces none
    have producer : state.producer.inside = false := outside .producer
    cases phase : state.producer <;> rw [phase] at producer <;>
      simp_all [produce, Producer.inside]
  · intro index inRange
    have nothing := consumes index inRange
    have consumer : (state.consumers index).inside = false := outside (.consumer index)
    unfold consume at nothing
    cases phase : state.consumers index <;> rw [phase] at consumer nothing <;>
      simp_all [Consumer.inside]

end Steps

structure Sound (consumers : Nat) (state : State) : Prop where
  exclusive : Exclusive state
  data : Data state
  record : Record state
  reached : Reached consumers state
  idle : Idle consumers state

theorem sound_start (consumers : Nat) : Sound consumers start where
  exclusive := by
    intro thread
    cases thread <;> simp [start, State.inside, Producer.inside, Consumer.inside]
  data := by
    refine ⟨?_, rfl, ?_⟩
    · intro impossible
      cases impossible
    · intro index impossible
      cases impossible
  record := by
    refine ⟨?_, List.nodup_nil, ?_⟩
    · intro entry impossible
      cases impossible
    · intro index impossible
      cases impossible
  reached := by
    intro impossible
    cases impossible
  idle := by
    intro index impossible
    cases impossible

theorem sound_step {consumers : Nat} {state next : State} {action : Action}
    (sound : Sound consumers state) (stepped : step consumers state action = some next) :
    Sound consumers next := by
  have effect := step_effect stepped
  exact ⟨exclusive_step sound.exclusive effect, data_step sound.data effect,
    record_step sound.record sound.data effect, reached_step sound.reached sound.data effect,
    idle_step sound.idle effect⟩

/-- The producer and any number of consumers in any order, with wake-ups in vain: two threads are
never inside the mutex, what is consumed is what was produced, once by each consumer that has
printed; a consumer takes at most six steps and two more for each wake-up in vain; and when only
such a wake-up is left, the producer is through, every consumer is through or asleep, and at least
one is through, so that with the one consumer of `main` both threads are joined. -/
theorem signal_is_not_missed (consumers : Nat) (actions : List Action) (state : State)
    (ran : run (step consumers) start actions = some state) :
    (∀ thread other, state.inside thread = true → state.inside other = true → thread = other) ∧
      ((∀ entry ∈ state.consumed, entry.2 = 1111) ∧ (state.consumed.map Prod.fst).Nodup ∧
        ∀ index, state.consumers index = .finished → index ∈ state.consumed.map Prod.fst) ∧
      (∀ index, actions.countP (consumes index) ≤ 6 + 2 * actions.countP (wakes index)) ∧
      ((∀ action, (∀ index, action ≠ .wakeUp index) → step consumers state action = none) →
        state.producer = .finished ∧
          (∀ index < consumers,
            state.consumers index = .finished ∨ state.consumers index = .waiting) ∧
          (0 < consumers → ∃ index < consumers, state.consumers index = .finished)) := by
  have kept : ∀ state action next, Sound consumers state →
      step consumers state action = some next → Sound consumers next :=
    fun _ _ _ sound stepped => sound_step sound stepped
  have sound := run_keeps_always kept (sound_start consumers) ran
  refine ⟨?_, ⟨?_, sound.record.once, ?_⟩, ?_, ?_⟩
  · intro thread other first second
    have one := (sound.exclusive thread).mp first
    have two := (sound.exclusive other).mp second
    exact Option.some.inj (one.symm.trans two)
  · exact fun entry member => (sound.record.entry entry member).1
  · intro index finished
    exact sound.record.printed index (by rw [finished]; rfl)
  · intro index
    have pays : ∀ state action next, Sound consumers state →
        step consumers state action = some next →
          work index next + (if consumes index action = true then 1 else 0) ≤
            work index state + (if wakes index action = true then 2 else 0) :=
      fun _ _ _ sound stepped => step_pays sound.data (step_effect stepped)
    exact Nat.le_of_add_right_le (run_count_le_fed kept pays (sound_start consumers) ran)
  · intro quiet
    obtain ⟨finished, others⟩ := quiet_finished sound.exclusive sound.idle quiet
    refine ⟨finished, others, ?_⟩
    intro some
    rcases sound.reached (by rw [finished]; rfl) with ⟨index, inRange, past⟩ | starting
    · refine ⟨index, inRange, ?_⟩
      rcases others index inRange with through | asleep
      · exact through
      · rw [asleep] at past
        cases past
    · rcases others 0 some with through | asleep
      · rw [starting 0 some] at through
        cases through
      · rw [starting 0 some] at asleep
        cases asleep

/-- The consumer of `main` goes to sleep, wakes in vain, sleeps again and gets the signal. -/
def wakesInVain : List Action :=
  [.consume 0, .consume 0, .wakeUp 0, .consume 0, .consume 0, .produce none, .produce none,
    .produce none, .produce (some 0), .produce none, .consume 0, .consume 0, .consume 0, .consume 0]

theorem signal_is_not_missed_in_vain :
    ∃ state, run (step 1) start wakesInVain = some state ∧ state.consumed = [(0, 1111)] ∧
      wakesInVain.countP (consumes 0) ≤ 6 + 2 * wakesInVain.countP (wakes 0) := by
  have observed : ((run (step 1) start wakesInVain).map State.consumed) = some [(0, 1111)] := by
    decide +kernel
  obtain ⟨state, ran, consumed⟩ := Option.map_eq_some_iff.mp observed
  obtain ⟨_, _, bound, _⟩ := signal_is_not_missed 1 wakesInVain state ran
  exact ⟨state, ran, consumed, bound 0⟩

end LinuxFff.ConditionVariable
