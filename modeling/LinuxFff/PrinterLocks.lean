import LinuxFff.CriticalSection
import LinuxFff.PrintJobs

/-!
# The printer pool with its two mutexes

`worker` of `printer.c` load by load and store by store: each test, each access
to the queue and to the table, each lock and unlock is a step of its own. What
a worker does while it holds a mutex is one step of the pool.
-/

namespace LinuxFff.PrinterLocks

open LinuxFff.CriticalSection LinuxFff.PrintJobs LinuxFff.ResourcePool LinuxFff.StepSystem
open LinuxFff.PrinterPool (Job Pool TaskQueue emptyQueue initialPool)

set_option autoImplicit false

/-- Where a worker is, with its locals. `index` is the loop variable of
`get_available_printer`. -/
inductive Phase where
  | looping
  | dequeuing
  | fetching (front : Nat)
  | dequeued (job : Job)
  | waiting (job : Job)
  | locking (job : Job)
  | scanning (job : Job) (index : Nat)
  | claiming (job : Job) (index : Nat)
  | picked (job : Job) (printerId : Int)
  | printing (job : Job) (printerId : Int)
  | returning (job : Job) (printerId : Int)
  | releasing (job : Job) (printerId : Int)
  | released (job : Job)
  | posting (job : Job)
  | left
  deriving DecidableEq

structure Shared where
  pool : Pool
  queueMutex : Option Nat
  printerMutex : Option Nat
  deriving DecidableEq

/-- `task_queue[front++]`, with the index already loaded. -/
def fetch (front : Nat) (pool : Pool) : Option (Job × Pool) :=
  pool.queue.taskQueue[front]?.map fun taskId =>
    let job := ⟨front, taskId⟩
    (job, { pool with
      queue := { pool.queue with front := front + 1 }
      taken := if taskId = -1 then pool.taken else pool.taken ++ [job] })

def claim (job : Job) (index : Nat) (pool : Pool) : Pool :=
  { pool with
    printerStatus := pool.printerStatus.set index 0
    acquired := pool.acquired ++ [job] }

def advance (worker : Nat) (shared : Shared) : Phase → Option (Shared × Phase)
  | .looping =>
      if shared.queueMutex = none then some ({ shared with queueMutex := some worker }, .dequeuing)
      else none
  | .dequeuing =>
      let queue := shared.pool.queue
      if queue.front < queue.rear then some (shared, .fetching queue.front)
      else some (shared, .dequeued ⟨queue.front, -1⟩)
  | .fetching front =>
      (fetch front shared.pool).map fun (job, pool) =>
        ({ shared with pool := pool }, .dequeued job)
  | .dequeued job =>
      some ({ shared with queueMutex := none }, if job.taskId = -1 then .left else .waiting job)
  | .waiting job =>
      shared.pool.wait.map fun pool => ({ shared with pool := pool }, .locking job)
  | .locking job =>
      if shared.printerMutex = none then
        some ({ shared with printerMutex := some worker }, .scanning job 0)
      else none
  | .scanning job index =>
      match shared.pool.printerStatus[index]? with
      | some entry =>
          if entry = 1 then some (shared, .claiming job index)
          else some (shared, .scanning job (index + 1))
      | none => some (shared, .picked job (-1))
  | .claiming job index =>
      some ({ shared with pool := claim job index shared.pool }, .picked job index)
  | .picked job printerId =>
      some ({ shared with printerMutex := none }, .printing job printerId)
  | .printing job printerId => some (shared, .returning job printerId)
  | .returning job printerId =>
      if shared.printerMutex = none then
        some ({ shared with printerMutex := some worker }, .releasing job printerId)
      else none
  | .releasing job printerId =>
      (shared.pool.release job printerId).map fun pool =>
        ({ shared with pool := pool }, .released job)
  | .released job => some ({ shared with printerMutex := none }, .posting job)
  | .posting _ => some ({ shared with pool := shared.pool.post }, .looping)
  | .left => none

structure State where
  shared : Shared
  workers : List Phase
  deriving DecidableEq

def step (state : State) (worker : Nat) : Option State :=
  state.workers[worker]?.bind fun phase =>
    (advance worker state.shared phase).map fun (shared, moved) =>
      ⟨shared, state.workers.set worker moved⟩

def initial (queue : TaskQueue) (printers workers : Nat) : State :=
  ⟨⟨initialPool queue printers, none, none⟩, List.replicate workers .looping⟩

variable {shared after : Shared} {phase moved : Phase} {worker : Nat}

inductive Advances (worker : Nat) (shared : Shared) : Phase → Shared → Phase → Prop where
  | lockQueue (free : shared.queueMutex = none) :
      Advances worker shared .looping { shared with queueMutex := some worker } .dequeuing
  | nonempty (waits : shared.pool.queue.front < shared.pool.queue.rear) :
      Advances worker shared .dequeuing shared (.fetching shared.pool.queue.front)
  | empty (served : ¬shared.pool.queue.front < shared.pool.queue.rear) :
      Advances worker shared .dequeuing shared (.dequeued ⟨shared.pool.queue.front, -1⟩)
  | fetch {front : Nat} {job : Job} {pool : Pool}
      (fetched : fetch front shared.pool = some (job, pool)) :
      Advances worker shared (.fetching front) { shared with pool } (.dequeued job)
  | unlockQueue (job : Job) :
      Advances worker shared (.dequeued job) { shared with queueMutex := none }
        (if job.taskId = -1 then .left else .waiting job)
  | wait (job : Job) {pool : Pool} (waited : shared.pool.wait = some pool) :
      Advances worker shared (.waiting job) { shared with pool } (.locking job)
  | lockTable (job : Job) (free : shared.printerMutex = none) :
      Advances worker shared (.locking job) { shared with printerMutex := some worker }
        (.scanning job 0)
  | available (job : Job) {index : Nat} (here : shared.pool.printerStatus[index]? = some 1) :
      Advances worker shared (.scanning job index) shared (.claiming job index)
  | busy (job : Job) {index : Nat} {entry : Int}
      (here : shared.pool.printerStatus[index]? = some entry) (taken : entry ≠ 1) :
      Advances worker shared (.scanning job index) shared (.scanning job (index + 1))
  | exhausted (job : Job) {index : Nat} (past : shared.pool.printerStatus[index]? = none) :
      Advances worker shared (.scanning job index) shared (.picked job (-1))
  | claim (job : Job) (index : Nat) :
      Advances worker shared (.claiming job index)
        { shared with pool := claim job index shared.pool } (.picked job index)
  | unlockPicked (job : Job) (printerId : Int) :
      Advances worker shared (.picked job printerId) { shared with printerMutex := none }
        (.printing job printerId)
  | print (job : Job) (printerId : Int) :
      Advances worker shared (.printing job printerId) shared (.returning job printerId)
  | lockReturn (job : Job) (printerId : Int) (free : shared.printerMutex = none) :
      Advances worker shared (.returning job printerId)
        { shared with printerMutex := some worker } (.releasing job printerId)
  | release {job : Job} {printerId : Int} {pool : Pool}
      (freed : shared.pool.release job printerId = some pool) :
      Advances worker shared (.releasing job printerId) { shared with pool } (.released job)
  | unlockReleased (job : Job) :
      Advances worker shared (.released job) { shared with printerMutex := none } (.posting job)
  | post (job : Job) :
      Advances worker shared (.posting job) { shared with pool := shared.pool.post } .looping

theorem advance_cases (advanced : advance worker shared phase = some (after, moved)) :
    Advances worker shared phase after moved := by
  cases phase with
  | looping =>
      simp only [advance, Option.ite_none_right_eq_some, Option.some.injEq] at advanced
      obtain ⟨free, same⟩ := advanced
      cases same
      exact .lockQueue free
  | dequeuing =>
      simp only [advance] at advanced
      split at advanced
      case isTrue waits =>
        cases advanced
        exact .nonempty waits
      case isFalse served =>
        cases advanced
        exact .empty served
  | fetching front =>
      simp only [advance, Option.map_eq_some_iff] at advanced
      obtain ⟨found, fetched, same⟩ := advanced
      cases same
      exact .fetch fetched
  | dequeued job =>
      cases advanced
      exact .unlockQueue job
  | waiting job =>
      simp only [advance, Option.map_eq_some_iff] at advanced
      obtain ⟨pool, waited, same⟩ := advanced
      cases same
      exact .wait job waited
  | locking job =>
      simp only [advance, Option.ite_none_right_eq_some, Option.some.injEq] at advanced
      obtain ⟨free, same⟩ := advanced
      cases same
      exact .lockTable job free
  | scanning job index =>
      simp only [advance] at advanced
      split at advanced
      case h_1 entry here =>
        split at advanced
        case isTrue isFree =>
          cases advanced
          exact .available job (here.trans (congrArg some isFree))
        case isFalse taken =>
          cases advanced
          exact .busy job here taken
      case h_2 past =>
        cases advanced
        exact .exhausted job past
  | claiming job index =>
      cases advanced
      exact .claim job index
  | picked job printerId =>
      cases advanced
      exact .unlockPicked job printerId
  | printing job printerId =>
      cases advanced
      exact .print job printerId
  | returning job printerId =>
      simp only [advance, Option.ite_none_right_eq_some, Option.some.injEq] at advanced
      obtain ⟨free, same⟩ := advanced
      cases same
      exact .lockReturn job printerId free
  | releasing job printerId =>
      simp only [advance, Option.map_eq_some_iff] at advanced
      obtain ⟨pool, freed, same⟩ := advanced
      cases same
      exact .release freed
  | released job =>
      cases advanced
      exact .unlockReleased job
  | posting job =>
      cases advanced
      exact .post job
  | left => cases advanced

theorem step_cases {state next : State} (stepped : step state worker = some next) :
    ∃ phase shared moved, state.workers[worker]? = some phase ∧
      Advances worker state.shared phase shared moved ∧
      next = ⟨shared, state.workers.set worker moved⟩ := by
  simp only [step, Option.bind_eq_some_iff, Option.map_eq_some_iff] at stepped
  obtain ⟨phase, lookup, after, advanced, same⟩ := stepped
  exact ⟨phase, after.1, after.2, lookup, advance_cases advanced, same.symm⟩

/-- The phase of the pool: an operation counts as done when the store is. -/
def Phase.abstract : Phase → PrinterPool.Phase
  | .looping | .dequeuing | .fetching _ => .looping
  | .dequeued job => .dequeued job
  | .waiting job => .waiting job
  | .locking job | .scanning job _ | .claiming job _ => .acquiring job
  | .picked job printerId | .printing job printerId => .printing job printerId
  | .returning job printerId | .releasing job printerId => .returning job printerId
  | .released job | .posting job => .posting job
  | .left => .left

def State.abstract (state : State) : PrinterPool.State :=
  ⟨state.shared.pool, state.workers.map Phase.abstract⟩

def Phase.inQueue : Phase → Bool
  | .dequeuing | .fetching _ | .dequeued _ => true
  | _ => false

def Phase.inPrinters : Phase → Bool
  | .scanning _ _ | .claiming _ _ | .picked _ _ | .releasing _ _ | .released _ => true
  | _ => false

/-- What a worker has read is still so. -/
def Phase.UpToDate (pool : Pool) : Phase → Prop
  | .fetching front => pool.queue.front = front ∧ front < pool.queue.rear
  | .scanning _ index => ∀ other < index, pool.printerStatus[other]? ≠ some 1
  | .claiming _ index =>
      pool.printerStatus[index]? = some 1 ∧
        ∀ other < index, pool.printerStatus[other]? ≠ some 1
  | _ => True

structure Locked (state : State) : Prop where
  queue : Excludes Phase.inQueue state.shared.queueMutex state.workers
  printers : Excludes Phase.inPrinters state.shared.printerMutex state.workers
  upToDate : ∀ phase ∈ state.workers, phase.UpToDate state.shared.pool

theorem locked_initial (queue : TaskQueue) (printers workers : Nat) :
    Locked (initial queue printers workers) where
  queue := by
    apply excludes_start
    intro phase member
    rw [List.eq_of_mem_replicate member]
    rfl
  printers := by
    apply excludes_start
    intro phase member
    rw [List.eq_of_mem_replicate member]
    rfl
  upToDate := by
    intro phase member
    rw [List.eq_of_mem_replicate member]
    trivial

theorem fetch_frame {front : Nat} {job : Job} {pool fetched : Pool}
    (here : fetch front pool = some (job, fetched)) :
    fetched.printerStatus = pool.printerStatus := by
  simp only [fetch, Option.map_eq_some_iff] at here
  obtain ⟨taskId, _, same⟩ := here
  cases same
  rfl

/-- The queue and the table are written under their mutexes only. -/
theorem advance_frame (advances : Advances worker shared phase after moved) :
    (phase.inQueue = false → after.pool.queue = shared.pool.queue) ∧
      (phase.inPrinters = false → after.pool.printerStatus = shared.pool.printerStatus) := by
  cases advances with
  | fetch fetched => exact ⟨by simp [Phase.inQueue], fun _ => fetch_frame fetched⟩
  | wait job waited =>
      obtain ⟨printerSem, _, admitted⟩ := PrinterPool.wait_eq_some.mp waited
      subst admitted
      exact ⟨fun _ => rfl, fun _ => rfl⟩
  | claim job index => exact ⟨fun _ => rfl, by simp [Phase.inPrinters]⟩
  | release freed =>
      simp only [Pool.release, Option.map_eq_some_iff] at freed
      obtain ⟨status, _, same⟩ := freed
      cases same
      exact ⟨fun _ => rfl, by simp [Phase.inPrinters]⟩
  | _ => exact ⟨fun _ => rfl, fun _ => rfl⟩

theorem advance_moves (advances : Advances worker shared phase after moved) :
    Moves Phase.inQueue worker shared.queueMutex after.queueMutex phase moved ∧
      Moves Phase.inPrinters worker shared.printerMutex after.printerMutex phase moved := by
  cases advances with
  | lockQueue free =>
      rw [free]
      exact ⟨.lock rfl, .keep rfl⟩
  | lockTable job free =>
      rw [free]
      exact ⟨.keep rfl, .lock rfl⟩
  | lockReturn job printerId free =>
      rw [free]
      exact ⟨.keep rfl, .lock rfl⟩
  | unlockQueue job =>
      constructor
      · apply Moves.unlock rfl
        split <;> rfl
      · apply Moves.keep
        split <;> rfl
  | unlockPicked job printerId => exact ⟨.keep rfl, .unlock rfl rfl⟩
  | unlockReleased job => exact ⟨.keep rfl, .unlock rfl rfl⟩
  | _ => exact ⟨.keep rfl, .keep rfl⟩

theorem advance_up_to_date (upToDate : phase.UpToDate shared.pool)
    (advances : Advances worker shared phase after moved) : moved.UpToDate after.pool := by
  cases advances with
  | nonempty waits => exact ⟨rfl, waits⟩
  | lockTable job free => exact fun other impossible => absurd impossible (Nat.not_lt_zero other)
  | available job here => exact ⟨here, upToDate⟩
  | busy job here taken =>
      intro other bound
      rcases Nat.lt_succ_iff_lt_or_eq.mp bound with earlier | same
      · exact upToDate other earlier
      · rw [same, here]
        exact fun isFree => taken (Option.some.inj isFree)
  | unlockQueue job => split <;> trivial
  | _ => trivial

theorem up_to_date_congr {before after : Pool} (upToDate : phase.UpToDate before)
    (queue : phase.inQueue = true → after.queue = before.queue)
    (printers : phase.inPrinters = true → after.printerStatus = before.printerStatus) :
    phase.UpToDate after := by
  cases phase with
  | fetching front =>
      unfold Phase.UpToDate
      rw [queue rfl]
      exact upToDate
  | scanning _ _ | claiming _ _ =>
      unfold Phase.UpToDate
      rw [printers rfl]
      exact upToDate
  | _ => trivial

theorem locked_step {state next : State} (locked : Locked state)
    (stepped : step state worker = some next) : Locked next := by
  obtain ⟨phase, shared, moved, lookup, advances, same⟩ := step_cases stepped
  subst same
  obtain ⟨queueMoves, printerMoves⟩ := advance_moves advances
  obtain ⟨queueFrame, printerFrame⟩ := advance_frame advances
  constructor
  case queue => exact locked.queue.moves lookup queueMoves
  case printers => exact locked.printers.moves lookup printerMoves
  case upToDate =>
    intro found member
    obtain ⟨other, otherLookup⟩ := List.mem_iff_getElem?.mp member
    rcases lookup_set otherLookup with here | elsewhere
    · rw [here.2]
      exact advance_up_to_date (locked.upToDate phase (List.mem_of_getElem? lookup)) advances
    · apply up_to_date_congr (locked.upToDate found (List.mem_of_getElem? elsewhere.2))
      · intro inside
        apply queueFrame
        by_contra together
        exact elsewhere.1 (locked.queue.alone lookup (by simpa using together)
          elsewhere.2 inside)
      · intro inside
        apply printerFrame
        by_contra together
        exact elsewhere.1 (locked.printers.alone lookup (by simpa using together)
          elsewhere.2 inside)

section Refinement

theorem dequeue_available {pool : Pool} {taskId : Int} {front : Nat}
    (current : pool.queue.front = front) (nonempty : front < pool.queue.rear)
    (here : pool.queue.taskQueue[front]? = some taskId) :
    pool.dequeue = fetch front pool := by
  subst current
  simp only [Pool.dequeue, PrinterPool.dequeue, fetch, if_pos nonempty, here, Option.map_some]

theorem dequeue_exhausted {pool : Pool} (empty : ¬ pool.queue.front < pool.queue.rear) :
    pool.dequeue = some (⟨pool.queue.front, -1⟩, pool) := by
  simp only [Pool.dequeue, PrinterPool.dequeue, if_neg empty, Option.map_some, if_pos]

theorem get_available_claim {job : Job} {index : Nat} {pool : Pool}
    (here : pool.printerStatus[index]? = some 1)
    (earlier : ∀ other < index, pool.printerStatus[other]? ≠ some 1) :
    pool.getAvailable job = ((index : Int), claim job index pool) := by
  obtain ⟨inside, isFree⟩ := List.getElem?_eq_some_iff.mp here
  have found : pool.printerStatus.findIdx? (· == 1) = some index := by
    apply List.findIdx?_eq_some_iff_getElem.mpr
    refine ⟨inside, by simp [isFree], ?_⟩
    intro other before
    have busy := earlier other before
    rw [List.getElem?_eq_getElem (by omega)] at busy
    simpa using busy
  simp only [Pool.getAvailable, PrinterPool.getAvailablePrinter, found, claim]

theorem advance_matched (upToDate : phase.UpToDate shared.pool)
    (available : ∀ job, phase.abstract = .acquiring job → (1 : Int) ∈ shared.pool.printerStatus)
    (advances : Advances worker shared phase after moved) :
    after.pool = shared.pool ∧ moved.abstract = phase.abstract ∨
      PrinterPool.advance shared.pool phase.abstract = some (after.pool, moved.abstract) := by
  cases advances with
  | empty served =>
      right
      simp only [Phase.abstract, PrinterPool.advance, dequeue_exhausted served, Option.map_some]
  | fetch fetched =>
      have here := fetched
      simp only [fetch, Option.map_eq_some_iff] at here
      obtain ⟨taskId, stored, _⟩ := here
      right
      simp only [Phase.abstract, PrinterPool.advance,
        dequeue_available upToDate.1 upToDate.2 stored, fetched, Option.map_some]
  | unlockQueue job =>
      left
      refine ⟨rfl, ?_⟩
      by_cases marker : job.taskId = -1
      · simp only [Phase.abstract, PrinterPool.Phase.dequeued, if_pos marker]
      · simp only [Phase.abstract, PrinterPool.Phase.dequeued, if_neg marker]
  | wait job waited =>
      right
      simp only [Phase.abstract, PrinterPool.advance, waited, Option.map_some]
  | exhausted job past =>
      -- the semaphore has let the worker in, so the scan does not come to the end
      obtain ⟨printer, free⟩ := List.mem_iff_getElem?.mp (available job rfl)
      have inside := (List.getElem?_eq_some_iff.mp free).1
      have bound := List.getElem?_eq_none_iff.mp past
      exact absurd free (upToDate printer (by omega))
  | claim job index =>
      right
      simp only [Phase.abstract, PrinterPool.advance,
        get_available_claim upToDate.1 upToDate.2]
  | release freed =>
      right
      simp only [Phase.abstract, PrinterPool.advance, freed, Option.map_some]
  | print job printerId => exact Or.inr rfl
  | post job => exact Or.inr rfl
  | _ => exact Or.inl ⟨rfl, rfl⟩

theorem step_matched {printers : Nat} {state next : State} (locked : Locked state)
    (exclusive : PrinterPool.Exclusive printers state.abstract)
    (stepped : step state worker = some next) :
    Matched PrinterPool.step state.abstract next.abstract := by
  obtain ⟨phase, shared, moved, lookup, advances, same⟩ := step_cases stepped
  subst same
  have coarse : state.abstract.workers[worker]? = some phase.abstract := by
    simp only [State.abstract, List.getElem?_map, lookup, Option.map_some]
  have available : ∀ job, phase.abstract = .acquiring job →
      (1 : Int) ∈ state.shared.pool.printerStatus := by
    intro job acquires
    rw [acquires] at coarse
    have split := List.perm_cons_erase (List.mem_of_getElem? coarse)
    exact (exclusive.guarded.perm split).free_mem PrinterPool.slot_inside rfl rfl
  have upToDate := locked.upToDate phase (List.mem_of_getElem? lookup)
  rcases advance_matched upToDate available advances with idle | operates
  · left
    simp only [State.abstract, List.map_set, idle]
    obtain ⟨inside, here⟩ := List.getElem?_eq_some_iff.mp coarse
    rw [← here]
    exact congrArg _ (List.set_getElem_self inside)
  · right
    refine ⟨worker, ?_⟩
    simp only [PrinterPool.step, coarse, Option.bind_some]
    simp only [State.abstract, List.map_set, operates, Option.map_some]

/-- The locks are held by those inside, and the pool behind them is in order. -/
structure Guards (printers : Nat) (state : State) : Prop where
  locked : Locked state
  exclusive : PrinterPool.Exclusive printers state.abstract

theorem guards_step {printers : Nat} {state next : State} (guards : Guards printers state)
    (stepped : step state worker = some next) : Guards printers next where
  locked := locked_step guards.locked stepped
  exclusive := (step_matched guards.locked guards.exclusive stepped).keeps
    (fun _ _ _ holds coarse => PrinterPool.exclusive_step holds coarse) guards.exclusive

theorem initial_abstract (queue : TaskQueue) (printers workers : Nat) :
    (initial queue printers workers).abstract = PrinterPool.initial queue printers workers := by
  simp only [State.abstract, initial, PrinterPool.initial, List.map_replicate]
  rfl

theorem guards_initial (queue : TaskQueue) (printers workers : Nat) :
    Guards printers (initial queue printers workers) where
  locked := locked_initial queue printers workers
  exclusive := by
    rw [initial_abstract]
    exact PrinterPool.exclusive_initial queue printers workers

/-- The mutexes make the operations of the pool atomic: every run of the loads
and stores is a run of whole operations. -/
theorem locks_refine_pool {queue : TaskQueue} {printers workers : Nat} {state : State}
    {actions : List Nat} (ran : run step (initial queue printers workers) actions = some state) :
    ∃ coarseActions, run PrinterPool.step (PrinterPool.initial queue printers workers)
      coarseActions = some state.abstract := by
  rw [← initial_abstract]
  exact run_refines (fun _ _ _ guards stepped => guards_step guards stepped)
    (fun _ _ _ guards stepped => step_matched guards.locked guards.exclusive stepped)
    (guards_initial queue printers workers) ran

/-- All that holds of the pool in any state of a run. -/
structure Sound (tasks : List Int) (printers : Nat) (state : State) : Prop
    extends Guards printers state where
  accounted : Accounted tasks state.abstract

theorem sound_step {tasks : List Int} (marked : ∀ taskId ∈ tasks, taskId ≠ -1) {printers : Nat}
    {state next : State} (sound : Sound tasks printers state)
    (stepped : step state worker = some next) : Sound tasks printers next where
  toGuards := guards_step sound.toGuards stepped
  accounted := (step_matched sound.locked sound.exclusive stepped).keeps
    (fun _ _ _ holds coarse => accounted_step marked holds coarse) sound.accounted

theorem sound_initial {tasks : List Int} {queue : TaskQueue} (filled : Filled tasks queue)
    (unread : queue.front = 0) (printers workers : Nat) :
    Sound tasks printers (initial queue printers workers) where
  toGuards := guards_initial queue printers workers
  accounted := by
    rw [initial_abstract]
    exact accounted_initial filled unread printers workers

end Refinement

section Progress

variable {tasks : List Int} {printers : Nat} {state : State}

def Phase.wantsPrinters : Phase → Bool
  | .locking _ | .returning _ _ => true
  | _ => false

theorem advance_enabled (upToDate : phase.UpToDate shared.pool)
    (stored : shared.pool.queue.rear ≤ shared.pool.queue.taskQueue.length)
    (releases : ∀ job printerId, phase = .releasing job printerId →
      ∃ pool, shared.pool.release job printerId = some pool)
    (queueFree : phase = .looping → shared.queueMutex = none)
    (printersFree : phase.wantsPrinters = true → shared.printerMutex = none)
    (posted : ∀ job, phase = .waiting job → 0 < shared.pool.printerSem) (stays : phase ≠ .left) :
    ∃ next, advance worker shared phase = some next := by
  cases phase with
  | looping => exact ⟨_, if_pos (queueFree rfl)⟩
  | dequeuing | scanning _ _ =>
      simp only [advance]
      repeat' split
      all_goals exact ⟨_, rfl⟩
  | fetching front =>
      have inside : front < shared.pool.queue.taskQueue.length :=
        Nat.lt_of_lt_of_le upToDate.2 stored
      simp only [advance, fetch, List.getElem?_eq_getElem inside, Option.map_some]
      exact ⟨_, rfl⟩
  | dequeued _ | claiming _ _ | picked _ _ | printing _ _ | released _ | posting _ => exact ⟨_, rfl⟩
  | waiting job =>
      obtain ⟨printerSem, positive⟩ := Nat.exists_eq_succ_of_ne_zero (posted job rfl).ne'
      have waits := PrinterPool.wait_eq_some.mpr ⟨printerSem, positive, rfl⟩
      simp only [advance, waits, Option.map_some]
      exact ⟨_, rfl⟩
  | locking _ | returning _ _ => exact ⟨_, if_pos (printersFree rfl)⟩
  | releasing job printerId =>
      obtain ⟨pool, released⟩ := releases job printerId rfl
      simp only [advance, released, Option.map_some]
      exact ⟨_, rfl⟩
  | left => exact absurd rfl stays

theorem release_some {job : Job} {printerId : Int} {pool : Pool} (low : 0 ≤ printerId)
    (high : printerId < pool.printerStatus.length) :
    ∃ after, pool.release job printerId = some after := by
  obtain ⟨printer, same⟩ := Int.eq_ofNat_of_zero_le low
  subst same
  have inside : printer < pool.printerStatus.length := by omega
  have released : PrinterPool.releasePrinter printer pool.printerStatus =
      some (pool.printerStatus.set printer 1) := if_pos inside
  exact ⟨_, by simp only [Pool.release, released, Option.map_some]; rfl⟩

theorem Sound.enabled (sound : Sound tasks printers state)
    (lookup : state.workers[worker]? = some phase)
    (queueFree : phase = .looping → state.shared.queueMutex = none)
    (printersFree : phase.wantsPrinters = true → state.shared.printerMutex = none)
    (posted : ∀ job, phase = .waiting job → 0 < state.shared.pool.printerSem)
    (stays : phase ≠ .left) : ∃ next, step state worker = some next := by
  have member := List.mem_of_getElem? lookup
  have filled : Filled tasks state.shared.pool.queue := sound.accounted.filled
  have stored : state.shared.pool.queue.rear ≤ state.shared.pool.queue.taskQueue.length := by
    rw [filled.rear]
    exact filled.stored.length_le
  have releases : ∀ job printerId, phase = .releasing job printerId →
      ∃ pool, state.shared.pool.release job printerId = some pool := by
    intro job printerId same
    have indexed := sound.exclusive.mutually_exclusive.indexed phase.abstract
      (List.mem_map_of_mem member) printerId (by rw [same]; rfl)
    have size : state.shared.pool.printerStatus.length = printers :=
      sound.exclusive.guarded.length
    exact release_some indexed.1 (by rw [size]; exact indexed.2)
  have advances : ∃ next, advance worker state.shared phase = some next :=
    advance_enabled (sound.locked.upToDate phase member) stored releases queueFree printersFree
      posted stays
  obtain ⟨next, advanced⟩ := advances
  refine ⟨⟨next.1, state.workers.set worker next.2⟩, ?_⟩
  simp only [step, lookup, Option.bind_some, advanced, Option.map_some]

theorem Sound.owner_enabled (sound : Sound tasks printers state)
    (lookup : state.workers[worker]? = some phase)
    (inside : phase.inQueue = true ∨ phase.inPrinters = true) :
    ∃ next, step state worker = some next := by
  apply sound.enabled lookup
  · intro same
    simp [same, Phase.inQueue, Phase.inPrinters] at inside
  · intro wants
    cases phase <;> simp [Phase.wantsPrinters, Phase.inQueue, Phase.inPrinters] at wants inside
  · intro job same
    simp [same, Phase.inQueue, Phase.inPrinters] at inside
  · intro same
    simp [same, Phase.inQueue, Phase.inPrinters] at inside

/-- With both mutexes free, a worker between the wait and the post can go on,
and one of them is there when the semaphore is down. -/
theorem Sound.idle_progress (sound : Sound tasks printers state) (somePrinter : 0 < printers)
    (queueFree : state.shared.queueMutex = none) (printersFree : state.shared.printerMutex = none)
    {phase : Phase} (member : phase ∈ state.workers) (stays : phase ≠ .left) :
    ∃ worker next, step state worker = some next := by
  by_cases posted : 0 < state.shared.pool.printerSem
  · obtain ⟨worker, lookup⟩ := List.mem_iff_getElem?.mp member
    exact ⟨worker, sound.enabled lookup (fun _ => queueFree) (fun _ => printersFree)
      (fun _ _ => posted) stays⟩
  · have balance := sound.exclusive.guarded.balance
    have down : state.abstract.pool.printerSem = 0 := Nat.eq_zero_of_not_pos posted
    rw [down, Nat.zero_add] at balance
    obtain ⟨coarse, coarseMember, inside⟩ := List.countP_pos_iff.mp (balance ▸ somePrinter)
    obtain ⟨other, otherMember, same⟩ := List.mem_map.mp coarseMember
    subst same
    obtain ⟨worker, lookup⟩ := List.mem_iff_getElem?.mp otherMember
    refine ⟨worker, sound.enabled lookup (fun _ => queueFree) (fun _ => printersFree) ?_ ?_⟩
    · intro job same
      rw [same] at inside
      cases inside
    · intro same
      rw [same] at inside
      cases inside

theorem Sound.progress (sound : Sound tasks printers state) (somePrinter : 0 < printers) :
    (∀ phase ∈ state.workers, phase = .left) ∨ ∃ worker next, step state worker = some next := by
  by_cases done : ∀ phase ∈ state.workers, phase = .left
  · exact Or.inl done
  push Not at done
  obtain ⟨phase, member, stays⟩ := done
  right
  rcases sound.locked.queue.free_or_inside with queueFree | ⟨worker, found, lookup, inside⟩
  · rcases sound.locked.printers.free_or_inside with printersFree | ⟨worker, found, lookup, inside⟩
    · exact sound.idle_progress somePrinter queueFree printersFree member stays
    · exact ⟨worker, sound.owner_enabled lookup (Or.inr inside)⟩
  · exact ⟨worker, sound.owner_enabled lookup (Or.inl inside)⟩

end Progress

theorem workers_length {state next : State} (stepped : step state worker = some next) :
    next.workers.length = state.workers.length := by
  obtain ⟨phase, shared, moved, _, _, same⟩ := step_cases stepped
  rw [same]
  exact List.length_set

/-- The queue, the mutexes and the semaphore together. -/
structure EveryJobOnce (tasks : List Int) (printers : Nat) (state : State) : Prop where
  inOrder : state.shared.pool.taken.map Job.taskId <+: tasks
  once : (state.shared.pool.taken.map Job.position).Nodup
  alone : ∀ (left right : Nat) (first second : Phase) (job : Job),
    state.workers[left]? = some first → state.workers[right]? = some second →
    PrintJobs.Phase.job first.abstract = some job →
    PrintJobs.Phase.job second.abstract = some job → left = right
  counters : state.shared.pool.queue.front ≤ state.shared.pool.queue.rear
  progress : (∀ phase ∈ state.workers, phase = .left) ∨
    ∃ worker next, step state worker = some next
  finished : (∀ phase ∈ state.workers, phase = .left) →
    state.shared.pool.acquired.Perm (jobsOf tasks) ∧
      state.shared.pool.released.Perm (jobsOf tasks) ∧
      state.shared.pool.printerStatus = List.replicate printers 1 ∧
      state.shared.pool.printerSem = printers

theorem Sound.jobs_once {tasks : List Int} {printers : Nat} {state : State}
    (sound : Sound tasks printers state) (somePrinter : 0 < printers)
    (someWorker : 0 < state.workers.length) : EveryJobOnce tasks printers state := by
  have accounted := sound.accounted
  constructor
  case inOrder =>
    have taken : state.shared.pool.taken.map Job.taskId =
        tasks.take state.shared.pool.queue.front := accounted.task_ids
    rw [taken]
    exact List.take_prefix _ _
  case once => exact accounted.positions
  case alone =>
    intro left right first second job leftLookup rightLookup firstHas secondHas
    have coarse {worker : Nat} {phase : Phase} (lookup : state.workers[worker]? = some phase) :
        state.abstract.workers[worker]? = some phase.abstract := by
      simp only [State.abstract, List.getElem?_map, lookup, Option.map_some]
    exact accounted.alone (coarse leftLookup) (coarse rightLookup) firstHas secondHas
  case counters =>
    have filled : Filled tasks state.shared.pool.queue := accounted.filled
    rw [filled.rear]
    exact accounted.counters
  case progress => exact sound.progress somePrinter
  case finished =>
    intro done
    have coarseDone : ∀ phase ∈ state.abstract.workers, phase = .left := by
      intro coarse member
      obtain ⟨phase, inside, same⟩ := List.mem_map.mp member
      rw [← same, done phase inside]
      rfl
    have served := accounted.all_served (by simpa [State.abstract] using someWorker) coarseDone
    have idle := sound.exclusive.guarded.idle
      (fun phase inside => by rw [coarseDone phase inside]; rfl)
      (fun phase inside => by rw [coarseDone phase inside]; rfl)
    exact ⟨served.1, served.2, idle.2, idle.1⟩

/-- Whatever tasks `main` puts into the queue before it starts the workers. -/
theorem every_job_once {tasks : List Int} {queueSize printers workers : Nat}
    (fits : tasks.length ≤ queueSize) (positive : ∀ taskId ∈ tasks, 0 < taskId)
    (someWorker : 0 < workers) (somePrinter : 0 < printers) :
    ∃ queue, enqueueAll tasks (emptyQueue queueSize) = some queue ∧
      ∀ (actions : List Nat) (state : State),
        run step (initial queue printers workers) actions = some state →
          EveryJobOnce tasks printers state := by
  have empty : Filled [] (emptyQueue queueSize) := ⟨rfl, List.nil_prefix⟩
  have room : ([] : List Int).length + tasks.length ≤
      (emptyQueue queueSize).taskQueue.length := by
    simpa [emptyQueue] using fits
  obtain ⟨queue, enqueued, filled, unread⟩ := enqueue_all_filled tasks empty room
  refine ⟨queue, enqueued, ?_⟩
  intro actions state ran
  have marked : ∀ taskId ∈ tasks, taskId ≠ -1 := by
    intro taskId member same
    have := positive taskId member
    omega
  have kept : ∀ state action next,
      Sound tasks printers state ∧ state.workers.length = workers →
      step state action = some next →
      Sound tasks printers next ∧ next.workers.length = workers :=
    fun _ _ _ holds stepped =>
      ⟨sound_step marked holds.1 stepped, (workers_length stepped).trans holds.2⟩
  have start : Sound tasks printers (initial queue printers workers) ∧
      (initial queue printers workers).workers.length = workers :=
    ⟨sound_initial filled unread printers workers, List.length_replicate⟩
  obtain ⟨sound, size⟩ := run_keeps_always kept start ran
  exact sound.jobs_once somePrinter (size.symm ▸ someWorker)

/-- Two workers at one printer, from the first lock until both have left. -/
theorem every_job_once_two_workers :
    ∃ state, run step (initial ⟨[5, 7, 0], 0, 2⟩ 1 2)
        (List.replicate 5 0 ++ List.replicate 4 1 ++ List.replicate 9 0 ++ List.replicate 10 1 ++
          [0, 0, 0, 1, 1, 1]) = some state ∧
      (∀ phase ∈ state.workers, phase = .left) ∧ EveryJobOnce [5, 7] 1 state := by
  have ran : run step (initial ⟨[5, 7, 0], 0, 2⟩ 1 2)
      (List.replicate 5 0 ++ List.replicate 4 1 ++ List.replicate 9 0 ++ List.replicate 10 1 ++
        [0, 0, 0, 1, 1, 1]) =
      some ⟨⟨⟨⟨[5, 7, 0], 2, 2⟩, [1], 1, [⟨0, 5⟩, ⟨1, 7⟩], [⟨0, 5⟩, ⟨1, 7⟩],
        [⟨0, 5⟩, ⟨1, 7⟩]⟩, none, none⟩, [.left, .left]⟩ := rfl
  have fits : ([5, 7] : List Int).length ≤ 3 := by decide
  obtain ⟨queue, enqueued, all⟩ :=
    every_job_once fits (by decide) (show 0 < 2 by decide) (show 0 < 1 by decide)
  have filled : queue = ⟨[5, 7, 0], 0, 2⟩ := Option.some.inj (enqueued.symm.trans rfl)
  subst filled
  exact ⟨_, ran, by decide, all _ _ ran⟩

end LinuxFff.PrinterLocks
