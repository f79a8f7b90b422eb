import LinuxFff.StepSystem

/-!
# The key loop of `mock_application/test.c`

`main` reads one key after the other and leaves its loop at a quit key only; `getch` returns a
`char`, so the end of the input looks like a byte 255. Two threads show the state of the LED and
the value of the I2C device for as long as `running` is true, and `main` joins them behind its
loop. What the `ioctl` calls return is part of the actions.
-/

namespace LinuxFff.KeyLoop

open LinuxFff.StepSystem

set_option autoImplicit false

def keyCode (key : Char) : UInt8 := UInt8.ofNat key.toNat

/-- The next byte, or `EOF`. -/
def getchar : List UInt8 → Int × List UInt8
  | [] => (-1, [])
  | byte :: rest => (byte.toNat, rest)

def getch (input : List UInt8) : UInt8 × List UInt8 :=
  (UInt8.ofInt (getchar input).1, (getchar input).2)

def quits (c : UInt8) : Bool := c = keyCode 'q' ∨ c = keyCode 'Q'

def setting (c : UInt8) : Option Int :=
  if c = keyCode '1' then some 1
  else if c = keyCode '2' then some 0
  else none

inductive MainPhase where
  | reading
  | joiningLed
  | joiningI2c
  | ended
  deriving DecidableEq

/-- A thread tests `running`, or is behind the test. -/
inductive ThreadPhase where
  | testing
  | polling
  | left
  deriving DecidableEq

inductive Line where
  | ledStatus (on : Bool)
  | ledError
  | i2cLed (val : Int)
  | i2cError
  deriving DecidableEq

/-- `requests` are the values of the `LEDBTN_SET` calls. -/
structure State where
  input : List UInt8
  main : MainPhase
  running : Bool
  requests : List Int
  led : ThreadPhase
  i2c : ThreadPhase
  screen : List Line
  deriving DecidableEq

def started (input : List UInt8) : State :=
  ⟨input, .reading, true, [], .testing, .testing, []⟩

inductive Action where
  | key (ret : Int)
  | join
  | led (ret val : Int)
  | i2c (ret val : Int)

def Action.isKey : Action → Bool
  | .key _ => true
  | _ => false

/-- A round of the loop of `main`, which ignores what the `ioctl` returns. -/
def State.round (state : State) : State :=
  let got := getch state.input
  match setting got.1 with
  | some val => { state with input := got.2, requests := state.requests ++ [val] }
  | none =>
      if quits got.1 then { state with input := got.2, main := .joiningLed, running := false }
      else { state with input := got.2 }

def ledLine (ret val : Int) : Line := if ret = 0 then .ledStatus (val ≠ 0) else .ledError

def i2cLine (ret val : Int) : Line := if ret = 0 then .i2cLed val else .i2cError

def ThreadPhase.next (running : Bool) : ThreadPhase → Option ThreadPhase
  | .testing => some (if running then .polling else .left)
  | .polling => some .testing
  | .left => none

def step (state : State) : Action → Option State
  | .key _ => if state.main = .reading then some state.round else none
  | .join =>
      match state.main with
      | .joiningLed => if state.led = .left then some { state with main := .joiningI2c } else none
      | .joiningI2c => if state.i2c = .left then some { state with main := .ended } else none
      | _ => none
  | .led ret val => (state.led.next state.running).map fun phase =>
      { state with
        led := phase
        screen := if state.led = .polling then state.screen ++ [ledLine ret val] else state.screen }
  | .i2c ret val => (state.i2c.next state.running).map fun phase =>
      { state with
        i2c := phase
        screen := if state.i2c = .polling then state.screen ++ [i2cLine ret val] else state.screen }

/-- What the keys before the first quit key ask for last. -/
def lastSetting (input : List UInt8) : Option Int :=
  ((input.takeWhile fun c => !quits c).filterMap setting).getLast?

/-- However the program and its threads take turns and whatever the calls return: the loop has
finitely many rounds and no round waits for ever, behind the loop `running` is false, the last
request is that of the last key, only finitely many steps are left, and where no step is left
the threads have left their loops and `main` has ended. -/
structure EndsWithInput (input : List UInt8) : Prop where
  rounds : ∃ bound, ∀ actions final, run step (started input) actions = some final →
    actions.countP Action.isKey ≤ bound
  stopped : ∀ actions final, run step (started input) actions = some final →
    final.main ≠ .reading → final.running = false ∧ final.requests.getLast? = lastSetting input
  leaves : ∀ actions final, run step (started input) actions = some final →
    final.main ≠ .reading → ∃ bound, ∀ later last, run step final later = some last →
      later.length ≤ bound
  finished : ∀ actions final, run step (started input) actions = some final →
    (∀ action, step final action = none) →
      final.main = .ended ∧ final.led = .left ∧ final.i2c = .left

inductive Effect (state : State) : Action → State → Prop where
  | key (ret : Int) (here : state.main = .reading) : Effect state (.key ret) state.round
  | joinLed (here : state.main = .joiningLed) :
      Effect state .join { state with main := .joiningI2c }
  | joinI2c (here : state.main = .joiningI2c) : Effect state .join { state with main := .ended }
  | led (ret val : Int) (phase : ThreadPhase) (screen : List Line)
      (moved : state.led.next state.running = some phase) :
      Effect state (.led ret val) { state with led := phase, screen }
  | i2c (ret val : Int) (phase : ThreadPhase) (screen : List Line)
      (moved : state.i2c.next state.running = some phase) :
      Effect state (.i2c ret val) { state with i2c := phase, screen }

theorem step_effect {state next : State} {action : Action}
    (stepped : step state action = some next) : Effect state action next := by
  cases action with
  | key ret =>
      simp only [step, Option.ite_none_right_eq_some, Option.some.injEq] at stepped
      rw [← stepped.2]
      exact Effect.key ret stepped.1
  | join =>
      simp only [step] at stepped
      split at stepped
      case h_1 here =>
        simp only [Option.ite_none_right_eq_some, Option.some.injEq] at stepped
        rw [← stepped.2]
        exact Effect.joinLed here
      case h_2 here =>
        simp only [Option.ite_none_right_eq_some, Option.some.injEq] at stepped
        rw [← stepped.2]
        exact Effect.joinI2c here
      case h_3 => cases stepped
  | led ret val =>
      obtain ⟨phase, moved, same⟩ := Option.map_eq_some_iff.mp stepped
      rw [← same]
      exact Effect.led ret val phase _ moved
  | i2c ret val =>
      obtain ⟨phase, moved, same⟩ := Option.map_eq_some_iff.mp stepped
      rw [← same]
      exact Effect.i2c ret val phase _ moved

theorem getch_cons (c : UInt8) (rest : List UInt8) : getch (c :: rest) = (c, rest) := by
  have narrowed : UInt8.ofInt (c.toNat : Int) = c := by
    apply UInt8.toNat_inj.mp
    have small := c.toNat_lt
    simp only [UInt8.ofInt, UInt8.toNat_ofNat']
    omega
  rw [getch, getchar, narrowed]

theorem getch_nil : getch [] = (255, []) := rfl

theorem quits_no_setting {c : UInt8} (quit : quits c = true) : setting c = none := by
  have keys : c = keyCode 'q' ∨ c = keyCode 'Q' := of_decide_eq_true quit
  rcases keys with same | same
  · rw [same]
    rfl
  · rw [same]
    rfl

theorem round_cases (state : State) :
    (state.input = [] ∧ state.round = state) ∨
      ∃ c rest, state.input = c :: rest ∧
        ((quits c = true ∧
            state.round = { state with input := rest, main := .joiningLed, running := false }) ∨
          (quits c = false ∧
            state.round =
              { state with input := rest, requests := state.requests ++ (setting c).toList })) := by
  cases unread : state.input with
  | nil =>
      refine Or.inl ⟨rfl, ?_⟩
      have nothing : setting 255 = none := rfl
      have goes : quits 255 = false := rfl
      simp only [State.round, unread, getch_nil, nothing, goes]
      rw [← unread]
      rfl
  | cons c rest =>
      refine Or.inr ⟨c, rest, rfl, ?_⟩
      by_cases quit : quits c = true
      · refine Or.inl ⟨quit, ?_⟩
        simp only [State.round, unread, getch_cons, quits_no_setting quit, quit, if_true]
      · refine Or.inr ⟨Bool.eq_false_iff.mpr quit, ?_⟩
        simp only [State.round, unread, getch_cons]
        cases asked : setting c with
        | none => simp [quit]
        | some val => rfl

/-- Where the program is in its input, and what it has asked for. -/
structure Follows (input : List UInt8) (state : State) : Prop where
  reading : state.main = .reading → state.running = true ∧ ∃ read, input = read ++ state.input ∧
    (∀ c ∈ read, quits c = false) ∧ state.requests = read.filterMap setting
  behind : state.main ≠ .reading → state.running = false ∧
    state.requests = (input.takeWhile fun c => !quits c).filterMap setting

theorem follows_started (input : List UInt8) : Follows input (started input) where
  reading := fun _ => ⟨rfl, [], rfl, fun _ impossible => absurd impossible List.not_mem_nil, rfl⟩
  behind := fun impossible => absurd rfl impossible

section Steps

variable {input : List UInt8} {state next : State}

theorem follows_round (follows : Follows input state) (here : state.main = .reading) :
    Follows input state.round := by
  obtain ⟨running, read, split, unquit, requests⟩ := follows.reading here
  rcases round_cases state with ⟨_, same⟩ | ⟨c, rest, unread, ⟨quit, same⟩ | ⟨goes, same⟩⟩
  · rw [same]
    exact follows
  · rw [same]
    constructor
    case reading =>
      intro impossible
      cases impossible
    case behind =>
      intro _
      refine ⟨rfl, ?_⟩
      have taken : (input.takeWhile fun c => !quits c) = read := by
        rw [split, unread, List.takeWhile_append_of_pos, List.takeWhile_cons_of_neg,
          List.append_nil]
        · simp [quit]
        · intro other member
          simp [unquit other member]
      rw [taken]
      exact requests
  · rw [same]
    constructor
    case reading =>
      intro _
      refine ⟨running, read ++ [c], ?_, ?_, ?_⟩
      · rw [split, unread, List.append_assoc]
        rfl
      · intro other member
        rcases List.mem_append.mp member with old | new
        · exact unquit other old
        · rw [List.mem_singleton.mp new]
          exact goes
      · rw [requests, List.filterMap_append]
        cases asked : setting c with
        | none => simp [asked]
        | some val => simp [asked]
    case behind =>
      intro apart
      exact absurd here apart

theorem Follows.of_joined {phase : MainPhase} (follows : Follows input state)
    (before : state.main ≠ .reading) (after : phase ≠ .reading) :
    Follows input { state with main := phase } where
  reading := fun impossible => absurd impossible after
  behind := fun _ => follows.behind before

theorem follows_step {action : Action} (follows : Follows input state)
    (stepped : step state action = some next) : Follows input next := by
  cases step_effect stepped with
  | key ret here => exact follows_round follows here
  | joinLed here => exact follows.of_joined (by simp [here]) (by decide)
  | joinI2c here => exact follows.of_joined (by simp [here]) (by decide)
  | led ret val phase screen moved => exact ⟨follows.reading, follows.behind⟩
  | i2c ret val phase screen moved => exact ⟨follows.reading, follows.behind⟩

/-- The rounds that `main` has before it, when a quit key is among them. -/
def roundsLeft (state : State) : Nat :=
  match state.main with
  | .reading => (state.input.takeWhile fun c => !quits c).length + 1
  | _ => 0

theorem round_lowers (here : state.main = .reading) (quit : ∃ c ∈ state.input, quits c = true) :
    roundsLeft state.round + 1 ≤ roundsLeft state := by
  rcases round_cases state with ⟨nothing, _⟩ | ⟨c, rest, unread, ⟨quit, same⟩ | ⟨goes, same⟩⟩
  · obtain ⟨c, member, _⟩ := quit
    rw [nothing] at member
    cases member
  · simp [roundsLeft, same, here]
  · have counted : ((c :: rest).takeWhile fun c => !quits c).length =
        (rest.takeWhile fun c => !quits c).length + 1 := by
      rw [List.takeWhile_cons_of_pos (by simp [goes]), List.length_cons]
    rw [same]
    simp only [roundsLeft, here, unread]
    omega

theorem quit_ahead (follows : Follows input state) (here : state.main = .reading)
    (ends : ∃ c ∈ input, quits c = true) : ∃ c ∈ state.input, quits c = true := by
  obtain ⟨_, read, split, unquit, _⟩ := follows.reading here
  obtain ⟨c, member, quit⟩ := ends
  rw [split] at member
  rcases List.mem_append.mp member with old | ahead
  · rw [unquit c old] at quit
    cases quit
  · exact ⟨c, ahead, quit⟩

theorem step_lowers_rounds {action : Action} (follows : Follows input state)
    (ends : ∃ c ∈ input, quits c = true) (stepped : step state action = some next) :
    roundsLeft next + (if action.isKey = true then 1 else 0) ≤ roundsLeft state := by
  cases step_effect stepped with
  | key ret here => exact round_lowers here (quit_ahead follows here ends)
  | joinLed here => exact Nat.zero_le _
  | joinI2c here => exact Nat.zero_le _
  | led ret val phase screen moved => exact Nat.le_refl _
  | i2c ret val phase screen moved => exact Nat.le_refl _

end Steps

section Leaving

variable {state next : State}

structure Behind (state : State) : Prop where
  main : state.main ≠ .reading
  running : state.running = false

def ThreadPhase.stepsLeft : ThreadPhase → Nat
  | .polling => 2
  | .testing => 1
  | .left => 0

def MainPhase.stepsLeft : MainPhase → Nat
  | .reading => 3
  | .joiningLed => 2
  | .joiningI2c => 1
  | .ended => 0

def stepsLeft (state : State) : Nat :=
  state.main.stepsLeft + state.led.stepsLeft + state.i2c.stepsLeft

theorem thread_lowers {before after : ThreadPhase} (moved : before.next false = some after) :
    after.stepsLeft + 1 = before.stepsLeft := by
  cases before with
  | testing =>
      cases moved
      rfl
  | polling =>
      cases moved
      rfl
  | left => cases moved

theorem behind_step {action : Action} (behind : Behind state)
    (stepped : step state action = some next) :
    Behind next ∧ stepsLeft next + 1 = stepsLeft state := by
  cases step_effect stepped with
  | key ret here => exact absurd here behind.main
  | joinLed here =>
      refine ⟨⟨by simp, behind.running⟩, ?_⟩
      simp only [stepsLeft, here, MainPhase.stepsLeft]
      omega
  | joinI2c here =>
      refine ⟨⟨by simp, behind.running⟩, ?_⟩
      simp only [stepsLeft, here, MainPhase.stepsLeft]
      omega
  | led ret val phase screen moved =>
      rw [behind.running] at moved
      have lowered := thread_lowers moved
      refine ⟨⟨behind.main, behind.running⟩, ?_⟩
      simp only [stepsLeft]
      omega
  | i2c ret val phase screen moved =>
      rw [behind.running] at moved
      have lowered := thread_lowers moved
      refine ⟨⟨behind.main, behind.running⟩, ?_⟩
      simp only [stepsLeft]
      omega

/-- Behind the loop every step counts down. -/
theorem behind_run_length {later : List Action} {last : State} (behind : Behind state)
    (ran : run step state later = some last) : later.length ≤ stepsLeft state := by
  have counted : later.countP (fun _ => true) + stepsLeft last ≤ stepsLeft state := by
    apply run_count_le (fun _ _ _ holds stepped => (behind_step holds stepped).1) _ behind ran
    intro state action next holds stepped
    exact Nat.le_of_eq (behind_step holds stepped).2
  rw [List.countP_true] at counted
  omega

theorem thread_left {phase : ThreadPhase} {running : Bool} (stuck : phase.next running = none) :
    phase = .left := by
  cases phase with
  | testing => cases stuck
  | polling => cases stuck
  | left => rfl

theorem stuck_finished (stuck : ∀ action, step state action = none) :
    state.main = .ended ∧ state.led = .left ∧ state.i2c = .left := by
  have led : state.led = .left := thread_left (Option.map_eq_none_iff.mp (stuck (.led 0 0)))
  have i2c : state.i2c = .left := thread_left (Option.map_eq_none_iff.mp (stuck (.i2c 0 0)))
  refine ⟨?_, led, i2c⟩
  have noKey := stuck (.key 0)
  have noJoin := stuck .join
  cases here : state.main with
  | reading => simp [step, here] at noKey
  | joiningLed => simp [step, here, led] at noJoin
  | joiningI2c => simp [step, here, i2c] at noJoin
  | ended => rfl

end Leaving

theorem follows_run {input : List UInt8} {actions : List Action} {final : State}
    (ran : run step (started input) actions = some final) : Follows input final :=
  run_keeps_always (fun _ _ _ follows stepped => follows_step follows stepped)
    (follows_started input) ran

theorem ends_of_quit {input : List UInt8} (ends : ∃ c ∈ input, quits c = true) :
    EndsWithInput input where
  rounds := by
    refine ⟨roundsLeft (started input), ?_⟩
    intro actions final ran
    have lowers : ∀ state action next, Follows input state → step state action = some next →
        roundsLeft next + (if action.isKey = true then 1 else 0) ≤ roundsLeft state :=
      fun _ _ _ follows stepped => step_lowers_rounds follows ends stepped
    have counted := run_count_le (fun _ _ _ follows stepped => follows_step follows stepped)
      lowers (follows_started input) ran
    exact Nat.le_trans (Nat.le_add_right _ _) counted
  stopped := by
    intro actions final ran apart
    obtain ⟨running, requests⟩ := (follows_run ran).behind apart
    exact ⟨running, by rw [requests, lastSetting]⟩
  leaves := by
    intro actions final ran apart
    have behind : Behind final := ⟨apart, ((follows_run ran).behind apart).1⟩
    exact ⟨stepsLeft final, fun later last goesOn => behind_run_length behind goesOn⟩
  finished := fun _ _ _ stuck => stuck_finished stuck

/-- Without a quit key the loop takes any number of rounds. -/
theorem rounds_without_quit (size : Nat) {state : State} (here : state.main = .reading)
    (unquit : ∀ c ∈ state.input, quits c = false) :
    ∃ final, run step state (List.replicate size (.key 0)) = some final := by
  induction size generalizing state with
  | zero => exact ⟨state, rfl⟩
  | succ size ih =>
      have stepped : step state (.key 0) = some state.round := if_pos here
      have again : ∃ final, run step state.round (List.replicate size (.key 0)) = some final := by
        rcases round_cases state with ⟨_, same⟩ | ⟨c, rest, unread, ⟨quit, _⟩ | ⟨_, same⟩⟩
        · rw [same]
          exact ih here unquit
        · rw [unquit c (by simp [unread])] at quit
          cases quit
        · rw [same]
          refine ih here ?_
          intro other member
          exact unquit other (by simp [unread, member])
      obtain ⟨final, ran⟩ := again
      exact ⟨final, run_cons_some.mpr ⟨_, stepped, ran⟩⟩

theorem quit_of_ends {input : List UInt8} (ends : EndsWithInput input) :
    ∃ c ∈ input, quits c = true := by
  by_contra none
  have unquit : ∀ c ∈ input, quits c = false := by
    intro c member
    exact Bool.eq_false_iff.mpr fun quit => none ⟨c, member, quit⟩
  obtain ⟨bound, bounded⟩ := ends.rounds
  obtain ⟨final, ran⟩ := @rounds_without_quit (bound + 1) (started input) rfl unquit
  have counted := bounded _ final ran
  have key : (Action.key 0).isKey = true := rfl
  rw [List.countP_replicate, if_pos key] at counted
  exact Nat.not_succ_le_self bound counted

/-- For every input: the application ends with it exactly when it has a quit key. -/
theorem ends_with_input_iff (input : List UInt8) :
    EndsWithInput input ↔ ∃ c ∈ input, c = keyCode 'q' ∨ c = keyCode 'Q' := by
  have keys : ∀ c, quits c = true ↔ c = keyCode 'q' ∨ c = keyCode 'Q' := fun _ => decide_eq_true_iff
  constructor
  · intro ends
    obtain ⟨c, member, quit⟩ := quit_of_ends ends
    exact ⟨c, member, (keys c).mp quit⟩
  · rintro ⟨c, member, key⟩
    exact ends_of_quit ⟨c, member, (keys c).mpr key⟩

/-- The LED is turned on and the input is closed. -/
theorem closed_input_never_ends : ¬EndsWithInput [keyCode '1'] := by
  intro ends
  obtain ⟨c, member, quit⟩ := quit_of_ends ends
  rw [List.mem_singleton.mp member] at quit
  exact absurd quit (by decide)

end LinuxFff.KeyLoop
