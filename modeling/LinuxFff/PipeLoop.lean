import LinuxFff.CString
import LinuxFff.StepSystem
import Mathlib.Data.List.Nodup

/-!
# An event loop that writes to itself: `assignment4/ex3.c`

The loop waits with `epoll` for its standard input and for the read end of a pipe, and writes to
the pipe itself when something was typed. A `write` to a full pipe would wait for ever, since
nobody else reads; here every call is a step, and the capacity of the pipe is the one of Linux.
-/

namespace LinuxFff.PipeLoop

open LinuxFff.CString LinuxFff.StepSystem

set_option autoImplicit false

inductive Source where
  | stdin
  | pipe
  deriving DecidableEq

def welcome : Bytes := ascii "welcome\n"

/-- `write (pipefd[1], "hello\n", 5)`. -/
def hello : Bytes := (ascii "hello\n").take 5

def pipeCapacity : Nat := 65536

/-- `read (fd, buf, sizeof(buf) - 1)` with `char buf[1024]`. -/
def bufRoom : Nat := 1023

/-- `events` are the entries of the current round that are still to be handled, `writing` is
whether the `write` that follows a line typed is still to come. `typed` is what has been read from
the standard input and `printed` what `printf` has made of `%s`; no step reads them. -/
structure State where
  pipe : Bytes
  events : List Source
  writing : Bool
  typed : List Bytes
  printed : List (Source × Bytes)

def start : State := ⟨welcome, [], false, [], []⟩

/-- Nothing read is the end of the input, or an error. -/
inductive Action where
  | epollWait (events : List Source)
  | readStdin (chunk : Bytes)
  | writePipe
  | readPipe

/-- The kernel reports the pipe as long as there is something in it. -/
def step (state : State) : Action → Option State
  | .epollWait events =>
      if state.events = [] ∧ state.writing = false ∧ events ≠ [] ∧ events.Nodup ∧
          (.pipe ∈ events ↔ state.pipe ≠ []) then
        some { state with events }
      else none
  | .readStdin chunk =>
      if state.writing = false ∧ state.events.head? = some .stdin ∧ chunk.length ≤ bufRoom then
        if chunk = [] then some { state with events := state.events.tail }
        else some { state with
          events := state.events.tail
          writing := true
          typed := state.typed ++ [chunk]
          printed := state.printed ++ [(.stdin, cstr (chunk ++ [0]))] }
      else none
  | .writePipe =>
      if state.writing = true ∧ state.pipe.length + hello.length ≤ pipeCapacity then
        some { state with pipe := state.pipe ++ hello, writing := false }
      else none
  | .readPipe =>
      if state.writing = false ∧ state.events.head? = some .pipe ∧ state.pipe ≠ [] then
        some { state with
          events := state.events.tail
          pipe := state.pipe.drop bufRoom
          printed := state.printed ++ [(.pipe, cstr (state.pipe.take bufRoom ++ [0]))] }
      else none

def hellos (count : Nat) : Bytes := (List.replicate count hello).flatten

/-- What has been printed of one source. -/
def printedOf (source : Source) (printed : List (Source × Bytes)) : List Bytes :=
  (printed.filter fun entry => entry.1 = source).map Prod.snd

def owed (state : State) : Nat :=
  if .stdin ∈ state.events ∨ state.writing = true then 1 else 0

/-- Whether the first line has been read off the pipe, and how many `hello`s have been and are
still in it. -/
structure Holds (welcomed : Bool) (outside inside : Nat) (state : State) : Prop where
  distinct : state.events.Nodup
  single : .stdin ∈ state.events → state.writing = false
  content : state.pipe = (if welcomed = true then [] else welcome) ++ hellos inside
  reported : .pipe ∈ state.events → state.pipe ≠ []
  pending : .pipe ∈ state.events → inside + owed state ≤ if welcomed = true then 2 else 1
  handled : .pipe ∉ state.events → inside + owed state ≤ if welcomed = true then 1 else 0
  shown : (printedOf .pipe state.printed).flatten =
    if welcomed = true then welcome ++ hellos outside else []
  first : welcomed = false → outside = 0
  counted : outside + inside + (if state.writing = true then 1 else 0) = state.typed.length
  echoed : printedOf .stdin state.printed = state.typed.map cstr

section Words

/-- `buf[count] = '\0'` does not change what the string is. -/
theorem cstr_terminated (chunk : Bytes) : cstr (chunk ++ [0]) = cstr chunk := cstr_stops chunk []

theorem hellos_no_nul (count : Nat) : (0 : Byte) ∉ hellos count := by
  intro member
  obtain ⟨piece, copied, inside⟩ := List.mem_flatten.mp member
  rw [List.eq_of_mem_replicate copied] at inside
  exact absurd inside (by decide)

theorem hellos_add (first second : Nat) :
    hellos (first + second) = hellos first ++ hellos second := by
  rw [hellos, List.replicate_add, List.flatten_append]
  rfl

theorem hellos_length (count : Nat) : (hellos count).length = 5 * count := by
  induction count with
  | zero => rfl
  | succ count ih =>
      have one : (hellos 1).length = 5 := by decide
      rw [hellos_add, List.length_append, ih, one]
      omega

theorem printed_same {source : Source} {printed : List (Source × Bytes)} {text : Bytes} :
    printedOf source (printed ++ [(source, text)]) = printedOf source printed ++ [text] := by
  simp [printedOf]

theorem printed_other {source other : Source} {printed : List (Source × Bytes)} {text : Bytes}
    (apart : other ≠ source) :
    printedOf source (printed ++ [(other, text)]) = printedOf source printed := by
  simp [printedOf, apart]

theorem owed_le (state : State) : owed state ≤ 1 := by
  unfold owed
  split <;> decide

end Words

section Steps

variable {welcomed : Bool} {outside inside : Nat} {state next : State}

/-- The first line and one `hello`, or two `hello`s. -/
theorem Holds.short (holds : Holds welcomed outside inside state) : state.pipe.length ≤ 13 := by
  have eight : welcome.length = 8 := by decide
  have few : inside ≤ if welcomed = true then 2 else 1 := by
    by_cases here : .pipe ∈ state.events
    · exact (Nat.le_add_right _ _).trans (holds.pending here)
    · have fewer := (Nat.le_add_right _ _).trans (holds.handled here)
      cases welcomed <;> simp at fewer ⊢ <;> omega
  rw [holds.content, List.length_append, hellos_length]
  cases welcomed
  · simp only [Bool.false_eq_true, if_false, eight] at few ⊢
    omega
  · simp only [if_true, List.length_nil] at few ⊢
    omega

theorem holds_start : Holds false 0 0 start where
  distinct := List.nodup_nil
  single := fun _ => rfl
  content := rfl
  reported := by
    intro impossible
    cases impossible
  pending := by
    intro impossible
    cases impossible
  handled := fun _ => by decide
  shown := rfl
  first := fun _ => rfl
  counted := rfl
  echoed := rfl

theorem holds_wait {events : List Source} (holds : Holds welcomed outside inside state)
    (done : state.events = []) (quiet : state.writing = false) (distinct : events.Nodup)
    (report : .pipe ∈ events ↔ state.pipe ≠ []) :
    Holds welcomed outside inside { state with events } where
  distinct := distinct
  single := fun _ => quiet
  content := holds.content
  reported := report.mp
  pending := by
    intro _
    have before := holds.handled (by rw [done]; exact List.not_mem_nil)
    have now := owed_le { state with events }
    cases welcomed <;> simp at before ⊢ <;> omega
  handled := by
    intro absent
    have empty : state.pipe = [] := by
      by_contra something
      exact absent (report.mpr something)
    have nothing := congrArg List.length empty
    have now := owed_le { state with events }
    have eight : welcome.length = 8 := by decide
    rw [holds.content, List.length_append, hellos_length, List.length_nil] at nothing
    cases welcomed
    · simp only [Bool.false_eq_true, if_false, eight] at nothing
      omega
    · simp only [if_true, List.length_nil] at nothing ⊢
      omega
  shown := holds.shown
  first := holds.first
  counted := holds.counted
  echoed := holds.echoed

theorem holds_stdin {rest : List Source} {writing : Bool} {lines : List Bytes}
    (holds : Holds welcomed outside inside state) (events : state.events = .stdin :: rest)
    (quiet : state.writing = false) (one : lines.length = if writing = true then 1 else 0) :
    Holds welcomed outside inside { state with
      events := rest
      writing
      typed := state.typed ++ lines
      printed := state.printed ++ lines.map fun line => (.stdin, cstr line) } := by
  have distinct := holds.distinct
  rw [events] at distinct
  obtain ⟨gone, distinct⟩ := List.nodup_cons.mp distinct
  have owedBefore : owed state = 1 := by simp [owed, events]
  have owedNow : owed { state with
      events := rest
      writing
      typed := state.typed ++ lines
      printed := state.printed ++ lines.map fun line => (.stdin, cstr line) } ≤ owed state := by
    rw [owedBefore]
    exact owed_le _
  have sameEntry : .pipe ∈ rest ↔ .pipe ∈ state.events := by simp [events]
  have apart : ∀ source, source ≠ .stdin →
      printedOf source (state.printed ++ lines.map fun line => (.stdin, cstr line)) =
        printedOf source state.printed := by
    intro source other
    simp [printedOf, Ne.symm other]
  constructor
  case distinct => exact distinct
  case single => exact fun member => absurd member gone
  case content => exact holds.content
  case reported => exact fun member => holds.reported (sameEntry.mp member)
  case pending =>
    intro member
    exact (Nat.add_le_add_left owedNow inside).trans (holds.pending (sameEntry.mp member))
  case handled =>
    intro absent
    have before := holds.handled fun member => absent (sameEntry.mpr member)
    exact (Nat.add_le_add_left owedNow inside).trans before
  case shown =>
    rw [apart .pipe (by decide)]
    exact holds.shown
  case first => exact holds.first
  case counted =>
    have counted := holds.counted
    simp only [quiet, Bool.false_eq_true, if_false] at counted
    rw [List.length_append, one, ← counted]
    rfl
  case echoed =>
    have echoed := holds.echoed
    unfold printedOf at echoed ⊢
    rw [List.filter_append, List.map_append, echoed, List.map_append]
    simp [List.filter_map, Function.comp_def]

theorem holds_write (holds : Holds welcomed outside inside state) (due : state.writing = true) :
    Holds welcomed outside (inside + 1) { state with
      pipe := state.pipe ++ hello
      writing := false } := by
  have gone : .stdin ∉ state.events := by
    intro member
    have quiet := holds.single member
    rw [due] at quiet
    cases quiet
  have owedBefore : owed state = 1 := by simp [owed, due]
  have owedNow : owed { state with pipe := state.pipe ++ hello, writing := false } = 0 := by
    simp [owed, gone]
  constructor
  case distinct => exact holds.distinct
  case single => exact fun _ => rfl
  case content =>
    have one : hellos 1 = hello := by decide
    change state.pipe ++ hello = _
    rw [holds.content, hellos_add, one, List.append_assoc]
  case reported =>
    intro _ empty
    have five := congrArg List.length empty
    change (state.pipe ++ hello).length = 0 at five
    rw [List.length_append] at five
    have long : hello.length = 5 := by decide
    omega
  case pending =>
    intro member
    have before := holds.pending member
    rw [owedNow]
    rwa [owedBefore] at before
  case handled =>
    intro absent
    have before := holds.handled absent
    rw [owedNow]
    rwa [owedBefore] at before
  case shown => exact holds.shown
  case first => exact holds.first
  case counted =>
    have counted := holds.counted
    simp only [due, if_true] at counted
    simp only [Bool.false_eq_true, if_false]
    omega
  case echoed => exact holds.echoed

theorem holds_read {rest : List Source} (holds : Holds welcomed outside inside state)
    (events : state.events = .pipe :: rest) (quiet : state.writing = false) :
    Holds true (outside + inside) 0 { state with
      events := rest
      pipe := state.pipe.drop bufRoom
      printed := state.printed ++ [(.pipe, cstr (state.pipe.take bufRoom ++ [0]))] } := by
  have noNul : (0 : Byte) ∉ state.pipe := by
    rw [holds.content, List.mem_append, not_or]
    refine ⟨?_, hellos_no_nul inside⟩
    split <;> decide
  have fits : state.pipe.length ≤ bufRoom := holds.short.trans (by decide)
  have distinct := holds.distinct
  rw [events] at distinct
  obtain ⟨gone, distinct⟩ := List.nodup_cons.mp distinct
  rw [List.take_of_length_le fits, List.drop_of_length_le fits, cstr_terminated,
    cstr_of_no_nul noNul]
  constructor
  case distinct => exact distinct
  case single => exact fun _ => quiet
  case content => rfl
  case reported => exact fun member => absurd member gone
  case pending => exact fun member => absurd member gone
  case handled =>
    intro _
    rw [if_pos rfl, Nat.zero_add]
    exact owed_le _
  case shown =>
    rw [printed_same, List.flatten_append, holds.shown, List.flatten_singleton, holds.content]
    cases welcomed with
    | true => simp [hellos_add]
    | false => simp [holds.first rfl]
  case first =>
    intro impossible
    cases impossible
  case counted => exact holds.counted
  case echoed =>
    rw [printed_other (by decide)]
    exact holds.echoed

theorem head_some {source : Source} (head : state.events.head? = some source) :
    state.events = source :: state.events.tail := by
  cases shape : state.events with
  | nil => simp [shape] at head
  | cons first rest =>
      rw [shape] at head
      cases head
      rfl

theorem holds_step {action : Action} (holds : ∃ welcomed outside inside,
      Holds welcomed outside inside state) (stepped : step state action = some next) :
    ∃ welcomed outside inside, Holds welcomed outside inside next := by
  obtain ⟨welcomed, outside, inside, holds⟩ := holds
  cases action with
  | epollWait events =>
      simp only [step, Option.ite_none_right_eq_some, Option.some.injEq] at stepped
      obtain ⟨⟨done, quiet, _, distinct, report⟩, rfl⟩ := stepped
      exact ⟨welcomed, outside, inside, holds_wait holds done quiet distinct report⟩
  | readStdin chunk =>
      simp only [step, Option.ite_none_right_eq_some] at stepped
      obtain ⟨⟨quiet, head, _⟩, stepped⟩ := stepped
      split at stepped
      · cases stepped
        have handled := @holds_stdin welcomed outside inside state _ false [] holds
          (head_some head) quiet rfl
        simp only [List.append_nil, List.map_nil, ← quiet] at handled
        exact ⟨welcomed, outside, inside, handled⟩
      · cases stepped
        rw [cstr_terminated]
        exact ⟨welcomed, outside, inside, @holds_stdin welcomed outside inside state _ true [chunk]
          holds (head_some head) quiet rfl⟩
  | writePipe =>
      simp only [step, Option.ite_none_right_eq_some, Option.some.injEq] at stepped
      obtain ⟨⟨due, _⟩, rfl⟩ := stepped
      exact ⟨welcomed, outside, inside + 1, holds_write holds due⟩
  | readPipe =>
      simp only [step, Option.ite_none_right_eq_some, Option.some.injEq] at stepped
      obtain ⟨⟨quiet, head, _⟩, rfl⟩ := stepped
      exact ⟨true, outside + inside, 0, holds_read holds (head_some head) quiet⟩

end Steps

/-- However `epoll` orders its events and whatever is typed: the pipe never holds more than 13
bytes, so that neither its `write` nor its `read` ever waits; what has been read from it, is in it
and is due makes up the first line and one `hello` for each time that something was typed; and
each piece typed has been printed up to its first NUL. -/
theorem pipe_never_fills (actions : List Action) (state : State)
    (ran : run step start actions = some state) :
    state.pipe.length ≤ 13 ∧
      (printedOf .pipe state.printed).flatten ++ state.pipe ++
          (if state.writing = true then hello else []) = welcome ++ hellos state.typed.length ∧
      printedOf .stdin state.printed = state.typed.map cstr ∧
      (state.writing = true → (step state .writePipe).isSome = true) ∧
      (state.writing = false → state.events.head? = some .pipe →
        (step state .readPipe).isSome = true) := by
  have kept : ∀ state action next,
      (∃ welcomed outside inside, Holds welcomed outside inside state) →
        step state action = some next →
          ∃ welcomed outside inside, Holds welcomed outside inside next :=
    fun _ _ _ holds stepped => holds_step holds stepped
  obtain ⟨welcomed, outside, inside, holds⟩ :=
    run_keeps_always kept ⟨false, 0, 0, holds_start⟩ ran
  have short := holds.short
  refine ⟨short, ?_, holds.echoed, ?_, ?_⟩
  · have due : (if state.writing = true then hello else []) =
        hellos (if state.writing = true then 1 else 0) := by
      split <;> rfl
    rw [due, holds.shown, holds.content, ← holds.counted, hellos_add, hellos_add]
    cases welcomed with
    | true => simp
    | false => simp [holds.first rfl, hellos]
  · intro due
    have five : hello.length = 5 := by decide
    have room : state.pipe.length + hello.length ≤ pipeCapacity := by
      rw [five, pipeCapacity]
      omega
    simp [step, due, room]
  · intro quiet head
    have something := holds.reported (by rw [head_some head]; exact List.mem_cons_self)
    simp [step, quiet, head, something]

/-- Two lines are typed, the first one reported before the pipe and the second one with a NUL. -/
def twoLines : List Action :=
  [.epollWait [.stdin, .pipe], .readStdin (ascii "a\n"), .writePipe, .readPipe,
    .epollWait [.stdin], .readStdin (98 :: 0 :: ascii "c\n")]

theorem pipe_never_fills_two_lines :
    ∃ state, run step start twoLines = some state ∧
      state.typed = [ascii "a\n", 98 :: 0 :: ascii "c\n"] ∧
      printedOf .pipe state.printed = [ascii "welcome\nhello"] ∧ state.pipe.length ≤ 13 ∧
      printedOf .stdin state.printed = state.typed.map cstr ∧
      (state.writing = true → (step state .writePipe).isSome = true) := by
  have observed : ((run step start twoLines).map fun state =>
      (state.typed, printedOf .pipe state.printed)) =
        some ([ascii "a\n", 98 :: 0 :: ascii "c\n"], [ascii "welcome\nhello"]) := by
    decide +kernel
  obtain ⟨state, ran, seen⟩ := Option.map_eq_some_iff.mp observed
  simp only [Prod.mk.injEq] at seen
  obtain ⟨typed, printed⟩ := seen
  obtain ⟨short, _, echoed, writes, _⟩ := pipe_never_fills twoLines state ran
  exact ⟨state, ran, typed, printed, short, echoed, writes⟩

end LinuxFff.PipeLoop
