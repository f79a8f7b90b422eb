import LinuxFff.StepSystem

/-!
# The shared spinlock of `spinlock_proc1.c` and `spinlock_proc2.c`

The lock word lives in a file that stays when the processes have ended. `spinlock_proc1` makes
the file as long as the word and initialises the word each time it is started;
`spinlock_proc2` takes the word as it finds it. A process can be killed at any point, and the
word keeps the state in which it was left. What a word of zeros means to `pthread_spin_lock`
depends on the machine, so it is a parameter.
-/

namespace LinuxFff.SpinlockDemo

open LinuxFff.StepSystem

set_option autoImplicit false

inductive Program where
  | proc1
  | proc2
  deriving DecidableEq

inductive Phase where
  | opening
  | sizing
  | mapping
  | initialising
  | locking
  | inside
  | ended
  deriving DecidableEq

structure Process where
  program : Program
  phase : Phase
  deriving DecidableEq

/-- `SHM_FILE`: the page of an empty file cannot be accessed. -/
inductive ShmFile where
  | missing
  | empty
  | word (locked : Bool)
  deriving DecidableEq

structure State where
  processes : Nat → Option Process
  file : ShmFile

/-- No process is running; the file may be left over. -/
def idle (file : ShmFile) : State := ⟨fun _ => none, file⟩

inductive Action where
  | start (pid : Nat) (program : Program)
  | openFile (pid : Nat) (succeeds : Bool)
  | ftruncate (pid : Nat) (succeeds : Bool)
  | mmap (pid : Nat) (succeeds : Bool)
  | spinInit (pid : Nat)
  | spinLock (pid : Nat)
  | spinUnlock (pid : Nat)
  | kill (pid : Nat)
  deriving DecidableEq

def Action.pid : Action → Nat
  | .start pid _ | .openFile pid _ | .ftruncate pid _ | .mmap pid _ => pid
  | .spinInit pid | .spinLock pid | .spinUnlock pid | .kill pid => pid

def State.move (state : State) (pid : Nat) (program : Program) (phase : Phase) : State :=
  { state with processes := Function.update state.processes pid (some ⟨program, phase⟩) }

/-- `O_CREAT` makes an empty file. -/
def State.openFile (state : State) (pid : Nat) : Program → State
  | .proc1 => { state.move pid .proc1 .sizing with
      file := if state.file = .missing then .empty else state.file }
  | .proc2 => state.move pid .proc2 (if state.file = .missing then .ended else .mapping)

/-- The result is not looked at. A file that has a word keeps it. -/
def State.ftruncate (state : State) (zeroWord : Bool) (pid : Nat) (succeeds : Bool) : State :=
  { state.move pid .proc1 .mapping with
    file := if succeeds ∧ state.file = .empty then .word zeroWord else state.file }

/-- Whoever spins on a locked word takes no step; whoever accesses an empty file is killed. -/
def step (zeroWord : Bool) (state : State) : Action → Option State
  | .start pid program =>
      if state.processes pid = none then some (state.move pid program .opening) else none
  | .openFile pid succeeds =>
      match state.processes pid with
      | some ⟨program, .opening⟩ =>
          some (if succeeds then state.openFile pid program else state.move pid program .ended)
      | _ => none
  | .ftruncate pid succeeds =>
      match state.processes pid with
      | some ⟨.proc1, .sizing⟩ => some (state.ftruncate zeroWord pid succeeds)
      | _ => none
  | .mmap pid succeeds =>
      match state.processes pid with
      | some ⟨program, .mapping⟩ => some (state.move pid program
          (if succeeds then
            match program with
            | .proc1 => .initialising
            | .proc2 => .locking
          else .ended))
      | _ => none
  | .spinInit pid =>
      match state.processes pid, state.file with
      | some ⟨program, .initialising⟩, .word _ =>
          some { state.move pid program .locking with file := .word false }
      | some ⟨program, .initialising⟩, _ => some (state.move pid program .ended)
      | _, _ => none
  | .spinLock pid =>
      match state.processes pid, state.file with
      | some ⟨_, .locking⟩, .word true => none
      | some ⟨program, .locking⟩, .word false =>
          some { state.move pid program .inside with file := .word true }
      | some ⟨program, .locking⟩, _ => some (state.move pid program .ended)
      | _, _ => none
  | .spinUnlock pid =>
      match state.processes pid with
      | some ⟨program, .inside⟩ =>
          some { state.move pid program .ended with file := .word false }
      | _ => none
  | .kill pid =>
      match state.processes pid with
      | some ⟨_, .ended⟩ => none
      | some ⟨program, _⟩ => some (state.move pid program .ended)
      | none => none

def Inside (state : State) (pid : Nat) : Prop :=
  ∃ program, state.processes pid = some ⟨program, .inside⟩

def MutualExclusion (state : State) : Prop :=
  ∀ first second, Inside state first → Inside state second → first = second

/-- The word is initialised only while nobody is inside. -/
def InitUnheld (state : State) : Action → Prop
  | .spinInit _ => ∀ other, ¬Inside state other
  | _ => True

/-- At most one process is inside, and then the word is locked. -/
structure Guarded (state : State) : Prop where
  alone : MutualExclusion state
  held : ∀ pid, Inside state pid → state.file = .word true

inductive Effect (state : State) (action : Action) : State → Prop where
  | outside (program : Program) (phase : Phase) (file : ShmFile)
      (before : ¬Inside state action.pid) (after : phase ≠ .inside)
      (kept : file = state.file ∨ ∀ locked, state.file ≠ .word locked) :
      Effect state action { state.move action.pid program phase with file }
  | spinInit (program : Program) (initialises : action = .spinInit action.pid)
      (before : ¬Inside state action.pid) :
      Effect state action { state.move action.pid program .locking with file := .word false }
  | spinLock (program : Program) (here : state.file = .word false) :
      Effect state action { state.move action.pid program .inside with file := .word true }
  | spinUnlock (program : Program) (inside : Inside state action.pid) :
      Effect state action { state.move action.pid program .ended with file := .word false }
  | die (program : Program) (inside : Inside state action.pid) :
      Effect state action (state.move action.pid program .ended)

section Steps

variable {zeroWord : Bool} {state next : State} {pid : Nat}

theorem not_inside_of_phase {program : Program} {phase : Phase}
    (lookup : state.processes pid = some ⟨program, phase⟩) (apart : phase ≠ .inside) :
    ¬Inside state pid := by
  rintro ⟨other, inside⟩
  rw [lookup, Option.some.injEq, Process.mk.injEq] at inside
  exact apart inside.2

theorem step_effect {action : Action} (stepped : step zeroWord state action = some next) :
    Effect state action next := by
  have same : state.file = state.file ∨ ∀ locked, state.file ≠ .word locked := Or.inl rfl
  cases action with
  | start pid program =>
      simp only [step, Option.ite_none_right_eq_some, Option.some.injEq] at stepped
      obtain ⟨unborn, result⟩ := stepped
      have before : ¬Inside state pid := by
        rintro ⟨other, lookup⟩
        rw [unborn] at lookup
        cases lookup
      rw [← result]
      exact Effect.outside program .opening state.file before (by decide) same
  | openFile pid succeeds =>
      simp only [step] at stepped
      split at stepped
      case h_2 => cases stepped
      case h_1 program lookup =>
        have before := not_inside_of_phase lookup (by decide)
        cases stepped
        cases succeeds with
        | false => exact Effect.outside program .ended state.file before (by decide) same
        | true =>
            cases program with
            | proc1 =>
                apply Effect.outside .proc1 .sizing _ before (by decide)
                split
                · rename_i missing
                  simp [missing]
                · exact same
            | proc2 =>
                apply Effect.outside .proc2 _ state.file before _ same
                split <;> decide
  | ftruncate pid succeeds =>
      simp only [step] at stepped
      split at stepped
      case h_2 => cases stepped
      case h_1 lookup =>
        have before := not_inside_of_phase lookup (by decide)
        cases stepped
        apply Effect.outside .proc1 .mapping _ before (by decide)
        split
        · rename_i both
          simp [both.2]
        · exact same
  | mmap pid succeeds =>
      simp only [step] at stepped
      split at stepped
      case h_2 => cases stepped
      case h_1 program lookup =>
        have before := not_inside_of_phase lookup (by decide)
        cases stepped
        apply Effect.outside program _ state.file before _ same
        cases succeeds with
        | false => simp
        | true => cases program <;> simp
  | spinInit pid =>
      simp only [step] at stepped
      split at stepped
      case h_1 program locked lookup here =>
        cases stepped
        exact Effect.spinInit program rfl (not_inside_of_phase lookup (by decide))
      case h_2 program lookup _ =>
        have before := not_inside_of_phase lookup (by decide)
        cases stepped
        exact Effect.outside program .ended state.file before (by decide) same
      case h_3 => cases stepped
  | spinLock pid =>
      simp only [step] at stepped
      split at stepped
      case h_1 => cases stepped
      case h_2 program lookup here =>
        cases stepped
        exact Effect.spinLock program here
      case h_3 program lookup _ _ =>
        have before := not_inside_of_phase lookup (by decide)
        cases stepped
        exact Effect.outside program .ended state.file before (by decide) same
      case h_4 => cases stepped
  | spinUnlock pid =>
      simp only [step] at stepped
      split at stepped
      case h_2 => cases stepped
      case h_1 program lookup =>
        cases stepped
        exact Effect.spinUnlock program ⟨program, lookup⟩
  | kill pid =>
      simp only [step] at stepped
      split at stepped
      case h_1 => cases stepped
      case h_2 program phase _ lookup =>
        cases stepped
        by_cases inside : phase = .inside
        · exact Effect.die program ⟨program, inside ▸ lookup⟩
        · exact Effect.outside program .ended state.file (not_inside_of_phase lookup inside)
            (by decide) same
      case h_3 => cases stepped

theorem inside_move {program : Program} {phase : Phase} {file : ShmFile} {other : Nat} :
    Inside { state.move pid program phase with file } other ↔
      other = pid ∧ phase = .inside ∨ other ≠ pid ∧ Inside state other := by
  unfold Inside State.move
  by_cases same : other = pid
  · simp [same]
  · simp [same]

theorem inside_kept {program : Program} {phase : Phase} {file : ShmFile} {other : Nat}
    (before : ¬Inside state pid) (after : phase ≠ .inside) :
    Inside { state.move pid program phase with file } other ↔ Inside state other := by
  rw [inside_move]
  by_cases same : other = pid
  · simp [same, before, after]
  · simp [same]

theorem guarded_free (guarded : Guarded state) (here : state.file ≠ .word true) (other : Nat) :
    ¬Inside state other := fun inside => here (guarded.held other inside)

theorem guarded_of_empty (empty : ∀ other, ¬Inside next other) : Guarded next where
  alone := fun first _ inside => absurd inside (empty first)
  held := fun other inside => absurd inside (empty other)

theorem guarded_step {action : Action} (guarded : Guarded state)
    (met : InitUnheld state action) (stepped : step zeroWord state action = some next) :
    Guarded next := by
  cases step_effect stepped with
  | outside program phase file before after kept =>
      constructor
      case alone =>
        intro first second firstInside secondInside
        rw [inside_kept before after] at firstInside secondInside
        exact guarded.alone first second firstInside secondInside
      case held =>
        intro other inside
        rw [inside_kept before after] at inside
        have locked := guarded.held other inside
        rcases kept with same | noWord
        · exact same.trans locked
        · exact absurd locked (noWord true)
  | spinInit program initialises before =>
      rw [initialises] at met
      apply guarded_of_empty
      intro other inside
      rw [inside_kept before (by decide)] at inside
      exact met other inside
  | spinLock program here =>
      have empty := guarded_free guarded (by simp [here])
      constructor
      case alone =>
        intro first second firstInside secondInside
        rcases inside_move.mp firstInside with firstNew | firstOld
        · rcases inside_move.mp secondInside with secondNew | secondOld
          · exact firstNew.1.trans secondNew.1.symm
          · exact absurd secondOld.2 (empty second)
        · exact absurd firstOld.2 (empty first)
      case held => exact fun _ _ => rfl
  | spinUnlock program inside =>
      apply guarded_of_empty
      intro other otherInside
      rcases inside_move.mp otherInside with impossible | old
      · cases impossible.2
      · exact old.1 (guarded.alone other action.pid old.2 inside)
  | die program inside =>
      apply guarded_of_empty
      intro other otherInside
      rcases inside_move.mp otherInside with impossible | old
      · cases impossible.2
      · exact old.1 (guarded.alone other action.pid old.2 inside)

theorem guarded_idle (file : ShmFile) : Guarded (idle file) := by
  apply guarded_of_empty
  rintro other ⟨program, impossible⟩
  cases impossible

/-- Whoever initialises the word while another process is inside can follow it there. -/
theorem reset_lets_in (guarded : Guarded state)
    (stepped : step zeroWord state (.spinInit pid) = some next) {other : Nat}
    (inside : Inside state other) :
    ∃ final, step zeroWord next (.spinLock pid) = some final ∧ ¬MutualExclusion final := by
  have locked := guarded.held other inside
  simp only [step, locked] at stepped
  split at stepped
  case h_1 program word lookup here =>
    have apart : other ≠ pid := by
      intro same
      subst same
      exact not_inside_of_phase lookup (by decide) inside
    cases stepped
    refine ⟨{ state.move pid program .inside with file := .word true }, ?_, ?_⟩
    · simp [step, State.move]
    · intro exclusive
      apply apart
      apply exclusive other pid
      · exact inside_move.mpr (Or.inr ⟨apart, inside⟩)
      · exact inside_move.mpr (Or.inl ⟨rfl, rfl⟩)
  case h_2 noWord => exact (noWord true rfl).elim
  case h_3 => cases stepped

end Steps

/-- Whatever the file holds at first, and on either kind of machine: in every state of a run
that initialises the word only while nobody is inside, at most one process is inside; and
a next step that initialises it at another time can be followed by one that lets a second
process in. -/
theorem exclusion_of_unheld_inits (zeroWord : Bool) (file : ShmFile) (actions : List Action)
    (state : State) (met : Meets (step zeroWord) InitUnheld (idle file) actions)
    (ran : run (step zeroWord) (idle file) actions = some state) :
    MutualExclusion state ∧
      ∀ action next, ¬InitUnheld state action → step zeroWord state action = some next →
        ∃ later final, step zeroWord next later = some final ∧ ¬MutualExclusion final := by
  have guarded : Guarded state :=
    run_keeps (fun _ _ _ guarded met stepped => guarded_step guarded met stepped)
      (guarded_idle file) met ran
  refine ⟨guarded.alone, ?_⟩
  intro action next broken stepped
  cases action with
  | spinInit pid =>
      obtain ⟨other, inside⟩ := not_forall_not.mp broken
      obtain ⟨final, entered, two⟩ := reset_lets_in guarded stepped inside
      exact ⟨.spinLock pid, final, entered, two⟩
  | start pid program => exact absurd trivial broken
  | openFile pid succeeds => exact absurd trivial broken
  | ftruncate pid succeeds => exact absurd trivial broken
  | mmap pid succeeds => exact absurd trivial broken
  | spinLock pid => exact absurd trivial broken
  | spinUnlock pid => exact absurd trivial broken
  | kill pid => exact absurd trivial broken

/-- `spinlock_proc1` from its start to the word. -/
def begin1 (pid : Nat) : List Action :=
  [.start pid .proc1, .openFile pid true, .ftruncate pid true, .mmap pid true]

def begin2 (pid : Nat) : List Action := [.start pid .proc2, .openFile pid true, .mmap pid true]

/-- A process is inside while another waits, and a killed one leaves the word locked until a
third one initialises it. -/
def orderlyRun : List Action :=
  begin1 0 ++ begin2 1 ++ [.spinInit 0, .spinLock 0, .kill 0] ++ begin1 2 ++
    [.spinInit 2, .spinLock 1]

theorem orderly_run_exclusive :
    ∃ state, run (step true) (idle .missing) orderlyRun = some state ∧ Inside state 1 ∧
      MutualExclusion state := by
  have met : Meets (step true) InitUnheld (idle .missing) orderlyRun := by
    iterate 7 refine meets_cons trivial rfl ?_
    refine meets_cons ?_ rfl ?_
    case' refine_2 =>
      iterate 6 refine meets_cons trivial rfl ?_
      refine meets_cons ?_ rfl (meets_cons trivial rfl trivial)
    -- at both initialisations the processes are outside, one after the other
    all_goals
      rintro other ⟨program, lookup⟩
      simp [State.move, State.openFile, State.ftruncate, idle, Function.update_apply] at lookup
      split_ifs at lookup
      all_goals simp at lookup
  exact ⟨_, rfl, ⟨.proc2, rfl⟩, (exclusion_of_unheld_inits true .missing orderlyRun _ met rfl).1⟩

/-- `spinlock_proc1` is started again while it sleeps in its critical section. -/
def startedTwice : List Action :=
  begin1 0 ++ [.spinInit 0, .spinLock 0] ++ begin1 1 ++ [.spinInit 1, .spinLock 1]

theorem started_twice_both_inside :
    ∃ state, run (step false) (idle .missing) startedTwice = some state ∧
      ¬MutualExclusion state := by
  refine ⟨_, rfl, ?_⟩
  intro exclusive
  exact absurd (exclusive 0 1 ⟨.proc1, rfl⟩ ⟨.proc1, rfl⟩) (by decide)

end LinuxFff.SpinlockDemo
