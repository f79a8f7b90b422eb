import LinuxFff.PrinterPool
import Mathlib.Data.List.Infix
import Mathlib.Data.List.Nodup

/-!
# What becomes of the print jobs

The tasks that `main` puts into the queue are taken in order, and a taken task
is with one worker until its printer is released. The facts are kept by every
operation of the pool.
-/

namespace LinuxFff.PrintJobs

open LinuxFff.PrinterPool LinuxFff.ResourcePool LinuxFff.StepSystem

set_option autoImplicit false

/-- The first loop of `main`. -/
def enqueueAll (tasks : List Int) (queue : TaskQueue) : Option TaskQueue :=
  tasks.foldlM enqueue queue

def jobsOf (tasks : List Int) : List Job := tasks.mapIdx Job.mk

/-- The tasks stand at the head of the array. -/
structure Filled (tasks : List Int) (queue : TaskQueue) : Prop where
  rear : queue.rear = tasks.length
  stored : tasks <+: queue.taskQueue

theorem enqueue_filled {tasks : List Int} {queue : TaskQueue} (taskId : Int)
    (filled : Filled tasks queue) (room : tasks.length < queue.taskQueue.length) :
    ∃ next, enqueue queue taskId = some next ∧ Filled (tasks ++ [taskId]) next ∧
      next.front = queue.front ∧ next.taskQueue.length = queue.taskQueue.length := by
  obtain ⟨behind, split⟩ := filled.stored
  cases behind with
  | nil =>
      rw [List.append_nil] at split
      rw [split] at room
      exact absurd room (Nat.lt_irrefl _)
  | cons old behind =>
      have fits : queue.rear < queue.taskQueue.length := by
        rw [filled.rear]
        exact room
      refine ⟨_, if_pos fits, ⟨?_, ?_⟩, rfl, List.length_set⟩
      · simp [filled.rear]
      · refine ⟨behind, ?_⟩
        simp only [filled.rear, ← split]
        rw [List.set_append_right _ _ (Nat.le_refl _)]
        simp

theorem enqueue_all_filled {earlier : List Int} (tasks : List Int) {queue : TaskQueue}
    (filled : Filled earlier queue)
    (room : earlier.length + tasks.length ≤ queue.taskQueue.length) :
    ∃ next, enqueueAll tasks queue = some next ∧ Filled (earlier ++ tasks) next ∧
      next.front = queue.front := by
  induction tasks generalizing earlier queue with
  | nil => exact ⟨queue, rfl, by rwa [List.append_nil], rfl⟩
  | cons taskId tasks ih =>
      rw [List.length_cons] at room
      obtain ⟨next, enqueued, nextFilled, sameFront, sameLength⟩ :=
        enqueue_filled taskId filled (by omega)
      have nextRoom : (earlier ++ [taskId]).length + tasks.length ≤ next.taskQueue.length := by
        rw [sameLength, List.length_append, List.length_singleton]
        omega
      obtain ⟨last, done, lastFilled, front⟩ := ih nextFilled nextRoom
      refine ⟨last, ?_, ?_, front.trans sameFront⟩
      · simp only [enqueueAll, List.foldlM_cons, enqueued]
        exact done
      · rwa [List.append_assoc] at lastFilled

def Phase.job : Phase → Option Job
  | .waiting job | .acquiring job | .printing job _ | .returning job _ => some job
  | .looping | .posting _ | .left => none

def Phase.pending : Phase → Option Job
  | .waiting job | .acquiring job => some job
  | .looping | .printing _ _ | .returning _ _ | .posting _ | .left => none

structure Accounted (tasks : List Int) (state : State) : Prop where
  filled : Filled tasks state.pool.queue
  counters : state.pool.queue.front ≤ tasks.length
  inOrder : state.pool.taken = (jobsOf tasks).take state.pool.queue.front
  inHand : HandedOn Phase.job state.pool.taken state.pool.released state.workers
  unserved : HandedOn Phase.pending state.pool.taken state.pool.acquired state.workers
  finished : ∀ phase ∈ state.workers, phase = .left → state.pool.queue.front = tasks.length

theorem accounted_initial {tasks : List Int} {queue : TaskQueue} (filled : Filled tasks queue)
    (unread : queue.front = 0) (printers workers : Nat) :
    Accounted tasks (initial queue printers workers) := by
  have none_of {Item : Type} (carries : Phase → Option Item) (empty : carries .looping = none) :
      (List.replicate workers Phase.looping).filterMap carries = [] := by
    apply List.filterMap_eq_nil_iff.mpr
    intro phase member
    rw [List.eq_of_mem_replicate member, empty]
  constructor
  case filled => exact filled
  case counters =>
    simp only [initial, initialPool, unread]
    exact Nat.zero_le _
  case inOrder => simp [initial, initialPool, unread]
  case inHand =>
    simp only [HandedOn, initial, initialPool, none_of Phase.job rfl]
    exact List.Perm.refl _
  case unserved =>
    simp only [HandedOn, initial, initialPool, none_of Phase.pending rfl]
    exact List.Perm.refl _
  case finished =>
    intro phase member isLeft
    rw [List.eq_of_mem_replicate member] at isLeft
    cases isLeft

theorem jobs_of_getElem {tasks : List Int} {position : Nat} (inside : position < tasks.length) :
    (jobsOf tasks).take (position + 1) =
      (jobsOf tasks).take position ++ [⟨position, tasks[position]⟩] := by
  have bound : position < (jobsOf tasks).length := by
    rw [jobsOf, List.length_mapIdx]
    exact inside
  rw [List.take_succ_eq_append_getElem bound]
  simp [jobsOf]

theorem dequeue_filled {tasks : List Int} {queue : TaskQueue} (filled : Filled tasks queue)
    (inside : queue.front < tasks.length) :
    dequeue queue = some (tasks[queue.front], { queue with front := queue.front + 1 }) := by
  have before : queue.front < queue.rear := by
    rw [filled.rear]
    exact inside
  have here : queue.taskQueue[queue.front]? = some tasks[queue.front] := by
    obtain ⟨behind, split⟩ := filled.stored
    rw [← split, List.getElem?_append_left inside, List.getElem?_eq_getElem inside]
  rw [dequeue, if_pos before, here]
  rfl

theorem dequeue_empty {tasks : List Int} {queue : TaskQueue} (filled : Filled tasks queue)
    (empty : queue.front = tasks.length) : dequeue queue = some (-1, queue) := by
  rw [dequeue, if_neg]
  rw [filled.rear, empty]
  exact Nat.lt_irrefl _

variable {tasks : List Int}

theorem Accounted.hand_on {pool after : Pool} {phase moved : Phase} {rest : List Phase}
    (accounted : Accounted tasks ⟨pool, phase :: rest⟩) (sameQueue : after.queue = pool.queue)
    (sameTaken : after.taken = pool.taken) (stays : moved ≠ .left)
    (inHand : HandedOn Phase.job pool.taken after.released (moved :: rest))
    (unserved : HandedOn Phase.pending pool.taken after.acquired (moved :: rest)) :
    Accounted tasks ⟨after, moved :: rest⟩ := by
  constructor
  case filled =>
    rw [sameQueue]
    exact accounted.filled
  case counters =>
    rw [sameQueue]
    exact accounted.counters
  case inOrder =>
    rw [sameQueue, sameTaken]
    exact accounted.inOrder
  case inHand =>
    rw [sameTaken]
    exact inHand
  case unserved =>
    rw [sameTaken]
    exact unserved
  case finished =>
    intro other member isLeft
    rw [sameQueue]
    rcases List.mem_cons.mp member with same | elsewhere
    · exact absurd (same.symm.trans isLeft) stays
    · exact accounted.finished other (List.mem_cons_of_mem _ elsewhere) isLeft

theorem Accounted.receive (marked : ∀ taskId ∈ tasks, taskId ≠ -1) {pool : Pool}
    {rest : List Phase} (accounted : Accounted tasks ⟨pool, .looping :: rest⟩)
    (inside : pool.queue.front < tasks.length) {job : Job} {after : Pool}
    (taken : pool.dequeue = some (job, after)) :
    Accounted tasks ⟨after, Phase.dequeued job :: rest⟩ := by
  simp only [Pool.dequeue, dequeue_filled accounted.filled inside, Option.map_some,
    Option.some.injEq] at taken
  cases taken
  have isTask := marked _ (List.getElem_mem inside)
  simp only [if_neg isTask, Phase.dequeued]
  constructor
  case filled => exact ⟨accounted.filled.rear, accounted.filled.stored⟩
  case counters => exact inside
  case inOrder =>
    rw [jobs_of_getElem inside]
    exact congrArg (· ++ _) accounted.inOrder
  case inHand => exact accounted.inHand.receive rfl rfl
  case unserved => exact accounted.unserved.receive rfl rfl
  case finished =>
    intro other member isLeft
    rcases List.mem_cons.mp member with same | elsewhere
    · rw [same] at isLeft
      cases isLeft
    · have earlier := accounted.finished other (List.mem_cons_of_mem _ elsewhere) isLeft
      exact absurd earlier (Nat.ne_of_lt inside)

theorem Accounted.leave {pool : Pool} {rest : List Phase}
    (accounted : Accounted tasks ⟨pool, .looping :: rest⟩)
    (empty : pool.queue.front = tasks.length) {job : Job} {after : Pool}
    (taken : pool.dequeue = some (job, after)) :
    Accounted tasks ⟨after, Phase.dequeued job :: rest⟩ := by
  simp only [Pool.dequeue, dequeue_empty accounted.filled empty, Option.map_some,
    Option.some.injEq] at taken
  cases taken
  simp only [Phase.dequeued, if_pos]
  constructor
  case filled => exact accounted.filled
  case counters => exact accounted.counters
  case inOrder => exact accounted.inOrder
  case inHand => exact accounted.inHand.keep rfl
  case unserved => exact accounted.unserved.keep rfl
  case finished => exact fun _ _ _ => empty

theorem advance_accounted (marked : ∀ taskId ∈ tasks, taskId ≠ -1) {pool after : Pool}
    {phase moved : Phase} {rest : List Phase}
    (accounted : Accounted tasks ⟨pool, phase :: rest⟩)
    (advanced : advance pool phase = some (after, moved)) :
    Accounted tasks ⟨after, moved :: rest⟩ := by
  cases phase with
  | looping =>
      simp only [advance, Option.map_eq_some_iff] at advanced
      obtain ⟨found, taken, same⟩ := advanced
      cases same
      rcases Nat.lt_or_eq_of_le accounted.counters with inside | empty
      · exact accounted.receive marked inside taken
      · exact accounted.leave empty taken
  | waiting job =>
      simp only [advance, Option.map_eq_some_iff, wait_eq_some] at advanced
      obtain ⟨waited, ⟨printerSem, _, admitted⟩, same⟩ := advanced
      subst admitted
      cases same
      exact accounted.hand_on rfl rfl (by simp) (accounted.inHand.keep rfl)
        (accounted.unserved.keep rfl)
  | acquiring job =>
      cases advanced
      exact accounted.hand_on rfl rfl (by simp) (accounted.inHand.keep rfl)
        (accounted.unserved.finish rfl rfl)
  | printing job printerId =>
      cases advanced
      exact accounted.hand_on rfl rfl (by simp) (accounted.inHand.keep rfl)
        (accounted.unserved.keep rfl)
  | returning job printerId =>
      simp only [advance, Pool.release, Option.map_map, Option.map_eq_some_iff] at advanced
      obtain ⟨status, _, same⟩ := advanced
      cases same
      exact accounted.hand_on rfl rfl (by simp) (accounted.inHand.finish rfl rfl)
        (accounted.unserved.keep rfl)
  | posting job =>
      cases advanced
      exact accounted.hand_on rfl rfl (by simp) (accounted.inHand.keep rfl)
        (accounted.unserved.keep rfl)
  | left => cases advanced

theorem Accounted.perm {pool : Pool} {workers other : List Phase}
    (accounted : Accounted tasks ⟨pool, workers⟩) (same : workers.Perm other) :
    Accounted tasks ⟨pool, other⟩ where
  filled := accounted.filled
  counters := accounted.counters
  inOrder := accounted.inOrder
  inHand := accounted.inHand.perm same
  unserved := accounted.unserved.perm same
  finished := fun phase member => accounted.finished phase (same.mem_iff.mpr member)

theorem accounted_step (marked : ∀ taskId ∈ tasks, taskId ≠ -1) {state next : State}
    {worker : Nat} (accounted : Accounted tasks state)
    (stepped : step state worker = some next) : Accounted tasks next := by
  obtain ⟨phase, pool, moved, lookup, advanced, same⟩ := step_cases stepped
  subst same
  obtain ⟨rest, split, replaced⟩ := crew_split lookup
  exact (advance_accounted marked (accounted.perm split) advanced).perm (replaced moved).symm

theorem jobs_of_task_ids (tasks : List Int) : (jobsOf tasks).map Job.taskId = tasks := by
  apply List.ext_getElem
  · simp [jobsOf]
  · intro position _ _
    simp [jobsOf]

theorem jobs_of_positions (tasks : List Int) :
    (jobsOf tasks).map Job.position = List.range tasks.length := by
  apply List.ext_getElem
  · simp [jobsOf]
  · intro position _ _
    simp [jobsOf]

theorem Accounted.task_ids {state : State} (accounted : Accounted tasks state) :
    state.pool.taken.map Job.taskId = tasks.take state.pool.queue.front := by
  rw [accounted.inOrder, List.map_take, jobs_of_task_ids]

theorem Accounted.positions {state : State} (accounted : Accounted tasks state) :
    (state.pool.taken.map Job.position).Nodup := by
  rw [accounted.inOrder, List.map_take, jobs_of_positions]
  exact List.nodup_range.sublist (List.take_sublist _ _)

theorem Accounted.alone {state : State} (accounted : Accounted tasks state) {left right : Nat}
    {first second : Phase} {job : Job} (leftLookup : state.workers[left]? = some first)
    (rightLookup : state.workers[right]? = some second)
    (firstHas : Phase.job first = some job) (secondHas : Phase.job second = some job) :
    left = right := by
  have distinct : state.pool.taken.Nodup := List.Nodup.of_map _ accounted.positions
  have inHand := (List.nodup_append.mp (accounted.inHand.nodup_iff.mp distinct)).2.1
  exact index_eq_of_nodup inHand leftLookup rightLookup firstHas secondHas

/-- When all have left, every job has had a printer once and has given it back. -/
theorem Accounted.all_served {state : State} (accounted : Accounted tasks state)
    (someWorker : 0 < state.workers.length) (done : ∀ phase ∈ state.workers, phase = .left) :
    state.pool.acquired.Perm (jobsOf tasks) ∧ state.pool.released.Perm (jobsOf tasks) := by
  have member := List.getElem_mem someWorker
  have everything : state.pool.taken = jobsOf tasks := by
    rw [accounted.inOrder, accounted.finished _ member (done _ member)]
    apply List.take_of_length_le
    simp [jobsOf]
  have inHand := accounted.inHand.idle fun phase inside => by rw [done phase inside]; rfl
  have unserved := accounted.unserved.idle fun phase inside => by rw [done phase inside]; rfl
  rw [everything] at inHand unserved
  exact ⟨unserved.symm, inHand.symm⟩

end LinuxFff.PrintJobs
