import LinuxFff.I2cValue
import LinuxFff.StepSystem

/-!
# The sender thread of `i2c_test.c` against its readers

A round of `sender_thread_fn` is two steps, since other processors run meanwhile: it fills `buf`
and calls `i2c_transfer`, and then it looks at the result, keeps the value if it was sent, and
counts on. `i2c_ioctl` and `i2c_read` look at `last_sent_value` once each and may come between
the two.
-/

namespace LinuxFff.I2cSender

open LinuxFff.CString LinuxFff.I2cValue LinuxFff.KernelMemory LinuxFff.StackArray
open LinuxFff.StepSystem

set_option autoImplicit false

/-- Where the thread is, with what `i2c_transfer` has returned. -/
inductive Phase where
  | looping
  | returned (ret : Int)
  | stopped
  deriving DecidableEq

/-- A call of `i2c_transfer` that has returned: the byte of `buf` and the result. -/
structure Transfer where
  byte : UInt8
  ret : Int
  deriving DecidableEq

/-- `ioctls` and `reads` are what the calls from user space have got. -/
structure State where
  sender : Sender
  phase : Phase
  transfers : List Transfer
  ioctls : List (Int × Option Int)
  reads : List Answer

def started : State := ⟨loaded, .looping, [], [], []⟩

inductive Action where
  | transfer (ret : Int)
  | store
  | stop
  | ioctl (cmd : BitVec 32) (copied : Bool)
  | read (request : Request) (ppos : Int)

/-- `_IOR(0x99, 0, int)` -/
def i2cGetValue : BitVec 32 := 0x80049900

def enotty : Int := -25

/-- The return value, and the value stored for the caller. -/
def i2cIoctl (lastSent : Int) (cmd : BitVec 32) (copied : Bool) : Int × Option Int :=
  if cmd = i2cGetValue then
    if copied then (0, some lastSent) else (efault, none)
  else (enotty, none)

def step (state : State) : Action → Option State
  | .transfer ret =>
      if state.phase = .looping then
        some { state with
          phase := .returned ret
          transfers := state.transfers ++ [⟨state.sender.value, ret⟩] }
      else none
  | .store =>
      match state.phase with
      | .returned ret => some { state with
          sender := state.sender.round (ret = 1)
          phase := .looping }
      | _ => none
  | .stop => if state.phase = .looping then some { state with phase := .stopped } else none
  | .ioctl cmd copied =>
      some { state with ioctls := state.ioctls ++ [i2cIoctl state.sender.lastSent cmd copied] }
  | .read request ppos =>
      some { state with reads := state.reads ++ [(i2cRead state.sender.lastSent request ppos).1] }

inductive Effect (state : State) : Action → State → Prop where
  | transfer (ret : Int) (here : state.phase = .looping) :
      Effect state (.transfer ret) { state with
        phase := .returned ret
        transfers := state.transfers ++ [⟨state.sender.value, ret⟩] }
  | store (ret : Int) (here : state.phase = .returned ret) :
      Effect state .store { state with
        sender := state.sender.round (ret = 1)
        phase := .looping }
  | stop (here : state.phase = .looping) : Effect state .stop { state with phase := .stopped }
  | ioctl (cmd : BitVec 32) (copied : Bool) :
      Effect state (.ioctl cmd copied) { state with
        ioctls := state.ioctls ++ [i2cIoctl state.sender.lastSent cmd copied] }
  | read (request : Request) (ppos : Int) :
      Effect state (.read request ppos) { state with
        reads := state.reads ++ [(i2cRead state.sender.lastSent request ppos).1] }

theorem step_effect {state next : State} {action : Action}
    (stepped : step state action = some next) : Effect state action next := by
  cases action with
  | transfer ret =>
      simp only [step, Option.ite_none_right_eq_some, Option.some.injEq] at stepped
      rw [← stepped.2]
      exact Effect.transfer ret stepped.1
  | store =>
      simp only [step] at stepped
      split at stepped
      · rename_i ret here
        cases stepped
        exact Effect.store ret here
      · cases stepped
  | stop =>
      simp only [step, Option.ite_none_right_eq_some, Option.some.injEq] at stepped
      rw [← stepped.2]
      exact Effect.stop stepped.1
  | ioctl cmd copied =>
      cases stepped
      exact Effect.ioctl cmd copied
  | read request ppos =>
      cases stepped
      exact Effect.read request ppos

/-- The byte of the latest transfer that succeeded, or 0. -/
def latestSent (transfers : List Transfer) : Int :=
  match (transfers.filter fun transfer => transfer.ret = 1).getLast? with
  | some transfer => transfer.byte.toNat
  | none => 0

/-- The text and its terminator have room in `kbuf`, and `snprintf` returns no
more than it has stored. -/
structure TextFits (lastSent : Int) : Prop where
  room : (valueText lastSent ++ [0]).length ≤ 4
  stored : (valueText lastSent).length ≤ (snprintf 4 (valueText lastSent)).length

/-- The transfers whose results the thread has looked at. -/
def State.recorded (state : State) : List Transfer :=
  match state.phase with
  | .returned _ => state.transfers.dropLast
  | _ => state.transfers

theorem latest_sent_snoc (transfers : List Transfer) (transfer : Transfer) :
    latestSent (transfers ++ [transfer]) =
      if transfer.ret = 1 then (transfer.byte.toNat : Int) else latestSent transfers := by
  unfold latestSent
  rw [List.filter_append, List.filter_singleton]
  by_cases sent : transfer.ret = 1
  · simp [sent]
  · simp [sent]

theorem text_fits {sender : Sender} (sound : Sound sender) : TextFits sender.lastSent where
  room := by
    rw [List.length_append, value_text_length sound]
    decide
  stored := by
    have length := value_text_length sound
    rw [snprintf, List.length_take]
    omega

theorem read_stores_text {sender : Sender} (sound : Sound sender) (request : Request)
    (ppos : Int) : (i2cRead sender.lastSent request ppos).1.stored <+: valueText sender.lastSent := by
  simp only [i2cRead, value_text_length sound, kbuf_text sound]
  split
  · exact List.nil_prefix
  · split
    · exact List.take_prefix _ _
    · exact List.take_prefix _ _

/-- What links the counter, the transfers and the variable. -/
structure Tracks (state : State) : Prop where
  sound : Sound state.sender
  counting : state.sender.value.toNat = state.recorded.length % 8
  carried : ∀ k transfer, state.transfers[k]? = some transfer → transfer.byte.toNat = k % 8
  latest : state.sender.lastSent = latestSent state.recorded
  pending : ∀ ret, state.phase = .returned ret →
    state.transfers = state.recorded ++ [⟨state.sender.value, ret⟩]

theorem tracks_started : Tracks started where
  sound := loaded_sound
  counting := rfl
  carried := by
    intro k transfer impossible
    cases impossible
  latest := rfl
  pending := by
    intro ret impossible
    cases impossible

theorem next_value (value : UInt8) :
    (UInt8.ofNat ((value.toNat + 1) % 8)).toNat = (value.toNat + 1) % 8 := by
  have small : (value.toNat + 1) % 8 < 8 := Nat.mod_lt _ (by decide)
  exact UInt8.toNat_ofNat_of_lt' (Nat.lt_trans small (by decide))

theorem tracks_transfer {state : State} {ret : Int} (tracks : Tracks state)
    (here : state.phase = .looping) :
    Tracks { state with
      phase := .returned ret
      transfers := state.transfers ++ [⟨state.sender.value, ret⟩] } := by
  have before : state.recorded = state.transfers := by rw [State.recorded, here]
  have counting := tracks.counting
  have latest := tracks.latest
  rw [before] at counting latest
  have after : State.recorded { state with
      phase := .returned ret
      transfers := state.transfers ++ [⟨state.sender.value, ret⟩] } = state.transfers :=
    List.dropLast_concat
  constructor
  case sound => exact tracks.sound
  case counting =>
    rw [after]
    exact counting
  case carried =>
    intro k transfer lookup
    by_cases old : k < state.transfers.length
    · rw [List.getElem?_append_left old] at lookup
      exact tracks.carried k transfer lookup
    · have bound := (List.getElem?_eq_some_iff.mp lookup).1
      rw [List.length_append, List.length_singleton] at bound
      have last : k = state.transfers.length := by omega
      rw [last, List.getElem?_concat_length] at lookup
      rw [← Option.some.inj lookup, last]
      exact counting
  case latest =>
    rw [after]
    exact latest
  case pending =>
    intro other same
    cases same
    rw [after]

theorem tracks_store {state : State} {ret : Int} (tracks : Tracks state)
    (here : state.phase = .returned ret) :
    Tracks { state with
      sender := state.sender.round (ret = 1)
      phase := .looping } := by
  have pending := tracks.pending ret here
  have counting := tracks.counting
  have latest := tracks.latest
  constructor
  case sound => exact sound_round tracks.sound _
  case counting =>
    change (UInt8.ofNat ((state.sender.value.toNat + 1) % 8)).toNat = state.transfers.length % 8
    rw [next_value, pending, List.length_append, List.length_singleton]
    omega
  case carried => exact tracks.carried
  case latest =>
    change (state.sender.round (ret = 1)).lastSent = latestSent state.transfers
    rw [pending, latest_sent_snoc, ← latest]
    by_cases sent : ret = 1 <;> simp [Sender.round, sent]
  case pending =>
    intro other impossible
    cases impossible

theorem tracks_stop {state : State} (tracks : Tracks state) (here : state.phase = .looping) :
    Tracks { state with phase := .stopped } := by
  have recorded : state.recorded = state.transfers := by rw [State.recorded, here]
  have counting := tracks.counting
  have latest := tracks.latest
  rw [recorded] at counting latest
  refine ⟨tracks.sound, counting, tracks.carried, latest, ?_⟩
  intro ret impossible
  cases impossible

theorem tracks_step {state next : State} {action : Action} (tracks : Tracks state)
    (stepped : step state action = some next) : Tracks next := by
  cases step_effect stepped with
  | transfer ret here => exact tracks_transfer tracks here
  | store ret here => exact tracks_store tracks here
  | stop here => exact tracks_stop tracks here
  | ioctl cmd copied =>
      exact ⟨tracks.sound, tracks.counting, tracks.carried, tracks.latest, tracks.pending⟩
  | read request ppos =>
      exact ⟨tracks.sound, tracks.counting, tracks.carried, tracks.latest, tracks.pending⟩

theorem tracks_run {actions : List Action} {state : State}
    (ran : run step started actions = some state) : Tracks state :=
  run_keeps_always (fun _ _ _ tracks stepped => tracks_step tracks stepped) tracks_started ran

/-- What the calls have got: a single digit, or a part of its text and nothing else that was
on the stack. -/
structure Reported (state : State) : Prop where
  ioctls : ∀ answer ∈ state.ioctls, ∀ value, answer.2 = some value →
    ∃ digit : Nat, digit < 8 ∧ value = digit
  reads : ∀ answer ∈ state.reads, ∃ digit : Nat, digit < 8 ∧ answer.stored <+: valueText digit

theorem reported_step {state next : State} {action : Action} (tracks : Tracks state)
    (reported : Reported state) (stepped : step state action = some next) : Reported next := by
  obtain ⟨digit, small, same⟩ := tracks.sound.digit
  cases step_effect stepped with
  | transfer ret here => exact ⟨reported.ioctls, reported.reads⟩
  | store ret here => exact ⟨reported.ioctls, reported.reads⟩
  | stop here => exact ⟨reported.ioctls, reported.reads⟩
  | ioctl cmd copied =>
      refine ⟨?_, reported.reads⟩
      intro answer member value stored
      rcases List.mem_append.mp member with old | new
      · exact reported.ioctls answer old value stored
      · rw [List.mem_singleton.mp new, i2cIoctl] at stored
        split_ifs at stored
        cases stored
        exact ⟨digit, small, same⟩
  | read request ppos =>
      refine ⟨reported.ioctls, ?_⟩
      intro answer member
      rcases List.mem_append.mp member with old | new
      · exact reported.reads answer old
      · rw [List.mem_singleton.mp new]
        exact ⟨digit, small, same ▸ read_stores_text tracks.sound request ppos⟩

theorem calls_report_digits {actions : List Action} {state : State}
    (ran : run step started actions = some state) : Reported state := by
  have begins : Tracks started ∧ Reported started := by
    refine ⟨tracks_started, ?_, ?_⟩
    · intro answer impossible
      cases impossible
    · intro answer impossible
      cases impossible
  have kept : ∀ state action next, (Tracks state ∧ Reported state) →
      step state action = some next → Tracks next ∧ Reported next :=
    fun _ _ _ both stepped => ⟨tracks_step both.1 stepped, reported_step both.1 both.2 stepped⟩
  exact (run_keeps_always kept begins ran).2

/-- The two steps of a round that nobody interrupts are the round. -/
theorem transfer_store_round (state : State) (ret : Int) (here : state.phase = .looping) :
    run step state [.transfer ret, .store] = some { state with
      sender := state.sender.round (ret = 1)
      transfers := state.transfers ++ [⟨state.sender.value, ret⟩] } := by
  simp [run, step, here]

/-- However the thread and the calls take turns, the transfers carry the numbers below eight in
turn, and the variable has the byte of the latest one that succeeded, except for the moment
between the return of a transfer that succeeded and the store: then it has the byte of the one
before. The text of the value always fits. -/
theorem last_sent_is_latest (actions : List Action) (state : State)
    (ran : run step started actions = some state) :
    (∀ k transfer, state.transfers[k]? = some transfer → transfer.byte.toNat = k % 8) ∧
      (state.phase ≠ .returned 1 → state.sender.lastSent = latestSent state.transfers) ∧
      (state.phase = .returned 1 → state.sender.lastSent = latestSent state.transfers.dropLast) ∧
      TextFits state.sender.lastSent := by
  have tracks := tracks_run ran
  refine ⟨tracks.carried, ?_, ?_, text_fits tracks.sound⟩
  case refine_1 =>
    intro apart
    rw [tracks.latest]
    cases phase : state.phase with
    | looping => rw [State.recorded, phase]
    | stopped => rw [State.recorded, phase]
    | returned ret =>
        have failed : ret ≠ 1 := fun same => apart (by rw [phase, same])
        rw [tracks.pending ret phase, latest_sent_snoc, if_neg failed]
  case refine_2 =>
    intro here
    rw [tracks.latest, State.recorded, here]

def readInBetween : List Action :=
  [.transfer 1, .store, .transfer 1, .read ⟨2, 2, someKbuf⟩ 0, .store, .transfer (-5), .store]

theorem last_sent_is_latest_read :
    ∃ state, run step started readInBetween = some state ∧
      state.reads.map Answer.stored = [ascii "0\n"] ∧ latestSent state.transfers = 1 ∧
      state.sender.lastSent = latestSent state.transfers ∧ TextFits state.sender.lastSent := by
  obtain ⟨_, settled, _, fits⟩ := last_sent_is_latest readInBetween _ rfl
  exact ⟨_, rfl, by decide, by decide, settled (by decide), fits⟩

/-- The 1 has been sent, and the variable still has the 0 sent before. -/
theorem last_sent_lags :
    ¬∀ actions state, run step started actions = some state →
      state.sender.lastSent = latestSent state.transfers := by
  intro always
  have same := always [.transfer 1, .store, .transfer 1] _ rfl
  exact absurd same (by decide)

end LinuxFff.I2cSender
