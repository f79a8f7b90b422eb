import LinuxFff.ResourcePool
import LinuxFff.StepSystem
import Mathlib.Data.List.Perm.Basic

/-!
# The printer pool

`printer.c` with each operation on the queue, the semaphore and the table of
printers as one step. The queue is any array of tasks, the workers are any
list; `main` has fifteen, three and five. The last three lists of the pool are
its history.
-/

namespace LinuxFff.PrinterPool

open LinuxFff.ResourcePool LinuxFff.StepSystem

set_option autoImplicit false

structure TaskQueue where
  taskQueue : List Int
  front : Nat
  rear : Nat
  deriving DecidableEq

def emptyQueue (queueSize : Nat) : TaskQueue := ⟨List.replicate queueSize 0, 0, 0⟩

/-- A task that does not fit would be stored behind the array. -/
def enqueue (queue : TaskQueue) (taskId : Int) : Option TaskQueue :=
  if queue.rear < queue.taskQueue.length then
    some { queue with taskQueue := queue.taskQueue.set queue.rear taskId, rear := queue.rear + 1 }
  else none

/-- `-1` is the marker of the empty queue. -/
def dequeue (queue : TaskQueue) : Option (Int × TaskQueue) :=
  if queue.front < queue.rear then
    queue.taskQueue[queue.front]?.map fun taskId =>
      (taskId, { queue with front := queue.front + 1 })
  else some (-1, queue)

def getAvailablePrinter (status : List Int) : Int × List Int :=
  match status.findIdx? (· == 1) with
  | some printer => (printer, status.set printer 0)
  | none => (-1, status)

/-- An index outside the table has no meaning. -/
def releasePrinter (printerId : Int) (status : List Int) : Option (List Int) :=
  match printerId with
  | .ofNat printer => if printer < status.length then some (status.set printer 1) else none
  | .negSucc _ => none

/-- A task and where in the queue it stood. -/
structure Job where
  position : Nat
  taskId : Int
  deriving DecidableEq

structure Pool where
  queue : TaskQueue
  printerStatus : List Int
  printerSem : Nat
  taken : List Job
  acquired : List Job
  released : List Job
  deriving DecidableEq

def Pool.dequeue (pool : Pool) : Option (Job × Pool) :=
  (PrinterPool.dequeue pool.queue).map fun (taskId, queue) =>
    let job := ⟨pool.queue.front, taskId⟩
    (job, { pool with
      queue := queue
      taken := if taskId = -1 then pool.taken else pool.taken ++ [job] })

def Pool.wait (pool : Pool) : Option Pool :=
  match pool.printerSem with
  | 0 => none
  | printerSem + 1 => some { pool with printerSem := printerSem }

def Pool.getAvailable (job : Job) (pool : Pool) : Int × Pool :=
  let (printerId, status) := getAvailablePrinter pool.printerStatus
  (printerId, { pool with printerStatus := status, acquired := pool.acquired ++ [job] })

def Pool.release (job : Job) (printerId : Int) (pool : Pool) : Option Pool :=
  (releasePrinter printerId pool.printerStatus).map fun status =>
    { pool with printerStatus := status, released := pool.released ++ [job] }

def Pool.post (pool : Pool) : Pool := { pool with printerSem := pool.printerSem + 1 }

inductive Phase where
  | looping
  | waiting (job : Job)
  | acquiring (job : Job)
  | printing (job : Job) (printerId : Int)
  | returning (job : Job) (printerId : Int)
  | posting (job : Job)
  | left
  deriving DecidableEq

/-- The test after the dequeue. -/
def Phase.dequeued (job : Job) : Phase := if job.taskId = -1 then .left else .waiting job

def advance (pool : Pool) : Phase → Option (Pool × Phase)
  | .looping => pool.dequeue.map fun (job, pool) => (pool, Phase.dequeued job)
  | .waiting job => pool.wait.map fun pool => (pool, .acquiring job)
  | .acquiring job =>
      let (printerId, pool) := pool.getAvailable job
      some (pool, .printing job printerId)
  | .printing job printerId => some (pool, .returning job printerId)
  | .returning job printerId =>
      (pool.release job printerId).map fun pool => (pool, .posting job)
  | .posting _ => some (pool.post, .looping)
  | .left => none

structure State where
  pool : Pool
  workers : List Phase
  deriving DecidableEq

def step (state : State) (worker : Nat) : Option State :=
  state.workers[worker]?.bind fun phase =>
    (advance state.pool phase).map fun (pool, moved) => ⟨pool, state.workers.set worker moved⟩

def initialPool (queue : TaskQueue) (printers : Nat) : Pool where
  queue := queue
  printerStatus := List.replicate printers 1
  printerSem := printers
  taken := []
  acquired := []
  released := []

def initial (queue : TaskQueue) (printers workers : Nat) : State :=
  ⟨initialPool queue printers, List.replicate workers .looping⟩

/-- Between `sem_wait` and `sem_post`. -/
def Phase.inside : Phase → Bool
  | .acquiring _ | .printing _ _ | .returning _ _ | .posting _ => true
  | .looping | .waiting _ | .left => false

/-- The local `printer_id`, from the pick to the release. -/
def Phase.printer : Phase → Option Int
  | .printing _ printerId | .returning _ printerId => some printerId
  | .looping | .waiting _ | .acquiring _ | .posting _ | .left => none

def Phase.slot (phase : Phase) : Option Nat := phase.printer.bind Int.toNat?

theorem step_cases {state next : State} {worker : Nat} (stepped : step state worker = some next) :
    ∃ phase pool moved, state.workers[worker]? = some phase ∧
      advance state.pool phase = some (pool, moved) ∧
      next = ⟨pool, state.workers.set worker moved⟩ := by
  simp only [step, Option.bind_eq_some_iff, Option.map_eq_some_iff] at stepped
  obtain ⟨phase, lookup, after, advanced, same⟩ := stepped
  exact ⟨phase, after.1, after.2, lookup, advanced, same.symm⟩

section Printers

variable {status after : List Int} {printerId : Int} {printers : Nat}

theorem get_available_printer_found (free : (1 : Int) ∈ status) :
    ∃ printer : Nat, getAvailablePrinter status = ((printer : Int), status.set printer 0) ∧
      status[printer]? = some 1 := by
  cases found : status.findIdx? (· == 1) with
  | none =>
      have nowhere := List.findIdx?_eq_none_iff.mp found 1 free
      simp at nowhere
  | some printer =>
      refine ⟨printer, by simp only [getAvailablePrinter, found], ?_⟩
      obtain ⟨inside, here, _⟩ := List.findIdx?_eq_some_iff_getElem.mp found
      rw [List.getElem?_eq_getElem inside]
      exact congrArg some (by simpa using here)

theorem release_printer_cases (released : releasePrinter printerId status = some after) :
    ∃ printer : Nat, printerId = printer ∧ printer < status.length ∧
      after = status.set printer 1 := by
  cases printerId with
  | negSucc _ => simp [releasePrinter] at released
  | ofNat printer =>
      simp only [releasePrinter, Option.ite_none_right_eq_some, Option.some.injEq] at released
      exact ⟨printer, rfl, released.1, released.2.symm⟩

end Printers

theorem wait_eq_some {pool after : Pool} :
    pool.wait = some after ↔
      ∃ printerSem, pool.printerSem = printerSem + 1 ∧
        after = { pool with printerSem := printerSem } := by
  unfold Pool.wait
  cases pool.printerSem with
  | zero => simp
  | succ printerSem => simp [eq_comm]

/-- The semaphore guards the table, and a picked printer is a real one. -/
structure Exclusive (printers : Nat) (state : State) : Prop where
  guarded : Guarded Phase.inside Phase.slot 1 0 printers state.pool.printerSem
    state.pool.printerStatus state.workers
  real : ∀ phase ∈ state.workers, ∀ printerId, phase.printer = some printerId → 0 ≤ printerId

theorem exclusive_initial (queue : TaskQueue) (printers workers : Nat) :
    Exclusive printers (initial queue printers workers) where
  guarded := by
    apply guarded_start (by decide)
    · intro phase member
      rw [List.eq_of_mem_replicate member]
      rfl
    · intro phase member
      rw [List.eq_of_mem_replicate member]
      rfl
  real := by
    intro phase member printerId holds
    rw [List.eq_of_mem_replicate member] at holds
    cases holds

theorem slot_inside (phase : Phase) (holds : phase.slot.isSome = true) : phase.inside = true := by
  cases phase <;> first | rfl | cases holds

theorem advance_guarded {printers : Nat} {pool after : Pool} {phase moved : Phase}
    {rest : List Phase}
    (guarded : Guarded Phase.inside Phase.slot 1 0 printers pool.printerSem
      pool.printerStatus (phase :: rest))
    (real : ∀ printerId, phase.printer = some printerId → 0 ≤ printerId)
    (advanced : advance pool phase = some (after, moved)) :
    Guarded Phase.inside Phase.slot 1 0 printers after.printerSem after.printerStatus
        (moved :: rest) ∧
      ∀ printerId, moved.printer = some printerId → 0 ≤ printerId := by
  cases phase with
  | looping =>
      simp only [advance, Pool.dequeue, Option.map_map, Option.map_eq_some_iff] at advanced
      obtain ⟨found, _, same⟩ := advanced
      cases same
      unfold Phase.dequeued
      split
      · exact ⟨guarded.move rfl rfl, by intro _ impossible; cases impossible⟩
      · exact ⟨guarded.move rfl rfl, by intro _ impossible; cases impossible⟩
  | waiting job =>
      simp only [advance, Option.map_eq_some_iff, wait_eq_some] at advanced
      obtain ⟨waited, ⟨printerSem, positive, admitted⟩, same⟩ := advanced
      subst admitted
      cases same
      rw [positive] at guarded
      exact ⟨guarded.wait rfl rfl rfl, by intro _ impossible; cases impossible⟩
  | acquiring job =>
      have free := guarded.free_mem slot_inside rfl rfl
      obtain ⟨printer, picks, isFree⟩ := get_available_printer_found free
      simp only [advance, Pool.getAvailable, picks, Option.some.injEq] at advanced
      cases advanced
      constructor
      · exact guarded.pick (by decide) isFree rfl rfl rfl
      · intro printerId holds
        cases holds
        exact Int.natCast_nonneg printer
  | printing job printerId =>
      cases advanced
      exact ⟨guarded.move rfl rfl, real⟩
  | returning job printerId =>
      simp only [advance, Pool.release, Option.map_map, Option.map_eq_some_iff] at advanced
      obtain ⟨status, released, same⟩ := advanced
      obtain ⟨printer, isPrinter, _, set⟩ := release_printer_cases released
      subst isPrinter set
      cases same
      exact ⟨guarded.release (by decide) rfl rfl rfl, by intro _ impossible; cases impossible⟩
  | posting job =>
      cases advanced
      exact ⟨guarded.post rfl rfl rfl, by intro _ impossible; cases impossible⟩
  | left => cases advanced

theorem exclusive_step {printers worker : Nat} {state next : State}
    (exclusive : Exclusive printers state) (stepped : step state worker = some next) :
    Exclusive printers next := by
  obtain ⟨phase, pool, moved, lookup, advanced, same⟩ := step_cases stepped
  subst same
  obtain ⟨rest, split, replaced⟩ := crew_split lookup
  obtain ⟨guarded, real⟩ := advance_guarded (exclusive.guarded.perm split)
    (exclusive.real phase (List.mem_of_getElem? lookup)) advanced
  refine ⟨guarded.perm (replaced moved).symm, ?_⟩
  intro other member
  rw [(replaced moved).mem_iff, List.mem_cons] at member
  rcases member with same | elsewhere
  · subst same
    exact real
  · apply exclusive.real other
    rw [split.mem_iff]
    exact List.mem_cons_of_mem _ elsewhere

theorem exclusive_run {queue : TaskQueue} {printers workers : Nat} {state : State}
    {actions : List Nat} (ran : run step (initial queue printers workers) actions = some state) :
    Exclusive printers state :=
  run_keeps_always (fun _ _ _ exclusive stepped => exclusive_step exclusive stepped)
    (exclusive_initial queue printers workers) ran

/-- What the semaphore, the mutex and the table are there for. -/
structure MutuallyExclusive (printers : Nat) (state : State) : Prop where
  found : ∀ phase ∈ state.workers, ∀ job, phase = .acquiring job →
    (getAvailablePrinter state.pool.printerStatus).1 ≠ -1
  indexed : ∀ phase ∈ state.workers, ∀ printerId, phase.printer = some printerId →
    0 ≤ printerId ∧ printerId < printers
  apart : ∀ (left right : Nat) (first second : Phase) (printerId : Int),
    state.workers[left]? = some first → state.workers[right]? = some second →
    first.printer = some printerId → second.printer = some printerId → left = right
  busy : ∀ printer : Nat, state.pool.printerStatus[printer]? = some 0 ↔
    ∃ phase ∈ state.workers, phase.printer = some (printer : Int)
  counted : state.pool.printerSem + state.workers.countP Phase.inside = printers

theorem Phase.slot_eq_some {phase : Phase} {slot : Nat} :
    phase.slot = some slot ↔ phase.printer = some (slot : Int) := by
  unfold Phase.slot
  cases phase.printer with
  | none => simp
  | some printerId => simp [Int.mem_toNat?]

theorem Exclusive.holds {printers : Nat} {state : State} (exclusive : Exclusive printers state)
    {phase : Phase} (member : phase ∈ state.workers) {printerId : Int}
    (has : phase.printer = some printerId) : ∃ slot : Nat, printerId = slot ∧
      phase.slot = some slot := by
  obtain ⟨slot, same⟩ := Int.eq_ofNat_of_zero_le (exclusive.real phase member printerId has)
  exact ⟨slot, same, Phase.slot_eq_some.mpr (same ▸ has)⟩

theorem Exclusive.mutually_exclusive {printers : Nat} {state : State}
    (exclusive : Exclusive printers state) : MutuallyExclusive printers state := by
  have guarded := exclusive.guarded
  constructor
  case found =>
    intro phase member job same
    subst same
    have free := (guarded.perm (List.perm_cons_erase member)).free_mem slot_inside rfl rfl
    obtain ⟨printer, picks, _⟩ := get_available_printer_found free
    rw [picks]
    omega
  case indexed =>
    intro phase member printerId has
    obtain ⟨slot, same, holds⟩ := exclusive.holds member has
    have busy := (guarded.occupied slot).mp (List.mem_filterMap.mpr ⟨phase, member, holds⟩)
    have bound := (List.getElem?_eq_some_iff.mp busy).1
    rw [guarded.length] at bound
    omega
  case apart =>
    intro left right first second printerId leftLookup rightLookup firstHas secondHas
    obtain ⟨slot, same, holds⟩ := exclusive.holds (List.mem_of_getElem? leftLookup) firstHas
    rw [same] at secondHas
    exact index_eq_of_nodup guarded.distinct leftLookup rightLookup holds
      (Phase.slot_eq_some.mpr secondHas)
  case busy =>
    intro printer
    rw [← guarded.occupied, List.mem_filterMap]
    simp only [Phase.slot_eq_some]
  case counted => exact guarded.balance

/-- However the workers are scheduled, a printer is used by one at a time. -/
theorem printers_exclusive {queue : TaskQueue} {printers workers : Nat} {state : State}
    {actions : List Nat} (ran : run step (initial queue printers workers) actions = some state) :
    MutuallyExclusive printers state :=
  (exclusive_run ran).mutually_exclusive

/-- One of three workers takes a `-1` from the queue and leaves, the others print. -/
theorem printers_exclusive_three_workers :
    ∃ state, run step (initial ⟨[7, -1, 9, 4], 0, 4⟩ 2 3)
        [0, 1, 2, 0, 0, 2, 2, 0, 2, 0, 0, 0, 0, 0] = some state ∧
      MutuallyExclusive 2 state := by
  have ran : run step (initial ⟨[7, -1, 9, 4], 0, 4⟩ 2 3)
      [0, 1, 2, 0, 0, 2, 2, 0, 2, 0, 0, 0, 0, 0] =
        some ⟨⟨⟨[7, -1, 9, 4], 4, 4⟩, [0, 0], 0, [⟨0, 7⟩, ⟨2, 9⟩, ⟨3, 4⟩],
          [⟨0, 7⟩, ⟨2, 9⟩, ⟨3, 4⟩], [⟨0, 7⟩]⟩,
          [.printing ⟨3, 4⟩ 0, .left, .returning ⟨2, 9⟩ 1]⟩ := rfl
  exact ⟨_, ran, printers_exclusive ran⟩

end LinuxFff.PrinterPool
