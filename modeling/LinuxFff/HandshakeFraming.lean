import LinuxFff.CString
import LinuxFff.StepSystem

/-!
# The handshake between `client.c` and `server.c`

The client sends the mode, the username array and the password array with one
`send` each. On the way they are one stream of 104 bytes, of which the network
delivers any number at a time. The server makes one `recv` for each field: it
stores the bytes that it gets at the start of the field and leaves the rest of
the array as it was. What has not been read after the third `recv` is what the
chat loop reads first.
-/

namespace LinuxFff.HandshakeFraming

open LinuxFff.CString LinuxFff.StepSystem

set_option autoImplicit false

/-- `char username[50]` or `char password[50]` of the client, after `fgets`. -/
structure Field where
  array : Bytes
  size : array.length = 50
  terminated : (0 : Byte) ∈ array

/-- What `client.c` sends; the mode is the memory of an `int`. -/
structure Hello where
  mode : Bytes
  modeSize : mode.length = 4
  username : Field
  password : Field

inductive Waiting where
  | mode
  | username
  | password
  | chat
  deriving DecidableEq

/-- The size argument of the `recv` call that comes next. -/
def Waiting.size : Waiting → Nat
  | .mode => 4
  | .username => 50
  | .password => 50
  | .chat => 0

def Waiting.next : Waiting → Waiting
  | .mode => .username
  | .username => .password
  | .password => .chat
  | .chat => .chat

/-- What the coming `recv` calls ask for together. -/
def Waiting.owed : Waiting → Nat
  | .mode => 104
  | .username => 100
  | .password => 50
  | .chat => 0

/-- The local variables of `main` in `server.c`. -/
structure Locals where
  mode : Bytes
  username : Bytes
  password : Bytes

structure State where
  unsent : List Bytes
  inFlight : Bytes
  arrived : Bytes
  waiting : Waiting
  locals : Locals

def start (hello : Hello) (stale : Locals) : State where
  unsent := [hello.mode, hello.username.array, hello.password.array]
  inFlight := []
  arrived := []
  waiting := .mode
  locals := stale

/-- Everything that the server has not read yet, in stream order. -/
def State.unread (state : State) : Bytes :=
  state.arrived ++ (state.inFlight ++ state.unsent.flatten)

inductive Action where
  | send
  | deliver (count : Nat)
  | recv (count : Nat)
  deriving DecidableEq

def overwrite (array chunk : Bytes) : Bytes := chunk ++ array.drop chunk.length

def Locals.store (locals : Locals) (waiting : Waiting) (chunk : Bytes) : Locals :=
  match waiting with
  | .mode => { locals with mode := overwrite locals.mode chunk }
  | .username => { locals with username := overwrite locals.username chunk }
  | .password => { locals with password := overwrite locals.password chunk }
  | .chat => locals

/-- A `recv` returns a non-empty prefix of what has arrived, at most as long as
it asked for. -/
def step (state : State) : Action → Option State
  | .send =>
      match state.unsent with
      | [] => none
      | chunk :: rest => some { state with unsent := rest, inFlight := state.inFlight ++ chunk }
  | .deliver count =>
      if 1 ≤ count ∧ count ≤ state.inFlight.length then
        some { state with
          inFlight := state.inFlight.drop count
          arrived := state.arrived ++ state.inFlight.take count }
      else none
  | .recv count =>
      if 1 ≤ count ∧ count ≤ state.waiting.size ∧ count ≤ state.arrived.length then
        some { state with
          arrived := state.arrived.drop count
          waiting := state.waiting.next
          locals := state.locals.store state.waiting (state.arrived.take count) }
      else none

/-- The server has the fields that were sent, and whatever the user types is
all that the chat loop reads. -/
structure Framed (hello : Hello) (state : State) : Prop where
  mode : state.locals.mode = hello.mode
  username : cstr state.locals.username = cstr hello.username.array
  password : cstr state.locals.password = cstr hello.password.array
  chat : ∀ typed, state.unread ++ typed = typed

/-- The `recv` returns its whole field. -/
def WholeField (state : State) : Action → Prop
  | .recv count => count = state.waiting.size
  | .send => True
  | .deliver _ => True

instance (state : State) (action : Action) : Decidable (WholeField state action) :=
  match action with
  | .recv _ => inferInstanceAs (Decidable (_ = _))
  | .send => isTrue trivial
  | .deliver _ => isTrue trivial

section Step

variable {state next : State} {count : Nat}

theorem send_cases (stepped : step state .send = some next) :
    next.unread = state.unread ∧ next.waiting = state.waiting ∧ next.locals = state.locals := by
  unfold step at stepped
  cases remaining : state.unsent with
  | nil => simp [remaining] at stepped
  | cons chunk rest =>
      simp only [remaining, Option.some.injEq] at stepped
      subst stepped
      simp [State.unread, remaining]

theorem deliver_cases (stepped : step state (.deliver count) = some next) :
    next.unread = state.unread ∧ next.waiting = state.waiting ∧ next.locals = state.locals := by
  simp only [step, Option.ite_none_right_eq_some, Option.some.injEq] at stepped
  obtain ⟨_, same⟩ := stepped
  subst same
  refine ⟨?_, rfl, rfl⟩
  simp only [State.unread, List.append_assoc]
  rw [← List.append_assoc (state.inFlight.take count), List.take_append_drop]

theorem recv_cases (stepped : step state (.recv count) = some next) :
    1 ≤ count ∧ count ≤ state.waiting.size ∧ count ≤ state.unread.length ∧
      next.unread = state.unread.drop count ∧ next.waiting = state.waiting.next ∧
      next.locals = state.locals.store state.waiting (state.unread.take count) := by
  simp only [step, Option.ite_none_right_eq_some, Option.some.injEq] at stepped
  obtain ⟨⟨positive, asked, arrived⟩, same⟩ := stepped
  subst same
  refine ⟨positive, asked, ?_, ?_, rfl, ?_⟩
  · simp only [State.unread, List.length_append]
    omega
  · simp only [State.unread]
    rw [List.drop_append_of_le_length arrived]
  · simp only [State.unread]
    rw [List.take_append_of_le_length arrived]

end Step

/-- How much one step leaves in the stream beyond what is still asked for. -/
theorem step_leaves {state next : State} {action : Action}
    (stepped : step state action = some next) :
    ∃ short, next.unread.length + state.waiting.owed =
        state.unread.length + next.waiting.owed + short ∧
      (WholeField state action ↔ short = 0) := by
  cases action with
  | send =>
      obtain ⟨unread, waiting, _⟩ := send_cases stepped
      exact ⟨0, by rw [unread, waiting]; omega, by simp [WholeField]⟩
  | deliver count =>
      obtain ⟨unread, waiting, _⟩ := deliver_cases stepped
      exact ⟨0, by rw [unread, waiting]; omega, by simp [WholeField]⟩
  | recv count =>
      obtain ⟨positive, asked, available, unread, waiting, _⟩ := recv_cases stepped
      refine ⟨state.waiting.size - count, ?_, ?_⟩
      · rw [unread, waiting, List.length_drop]
        cases place : state.waiting <;> simp only [place, Waiting.size] at asked <;>
          simp only [Waiting.owed, Waiting.next, Waiting.size] <;> omega
      · simp only [WholeField]
        omega

/-- Over a run, nothing is left beyond what is still asked for exactly when
every `recv` returned its whole field. -/
theorem run_leaves (actions : List Action) {state final : State}
    (ran : run step state actions = some final) :
    state.unread.length + final.waiting.owed ≤ final.unread.length + state.waiting.owed ∧
      (final.unread.length + state.waiting.owed = state.unread.length + final.waiting.owed ↔
        Meets step WholeField state actions) := by
  induction actions generalizing state with
  | nil =>
      cases ran
      exact ⟨le_refl _, by simp [Meets]⟩
  | cons action rest ih =>
      obtain ⟨next, stepped, restRun⟩ := run_cons_some.mp ran
      obtain ⟨short, leaves, exactly⟩ := step_leaves stepped
      obtain ⟨later, laterExactly⟩ := ih restRun
      refine ⟨by omega, ?_⟩
      constructor
      · intro same
        apply meets_cons (exactly.mpr (by omega)) stepped
        exact laterExactly.mp (by omega)
      · intro met
        have none : short = 0 := exactly.mp met.1
        have restSame := laterExactly.mpr (met.2 next stepped)
        omega

/-- What the server has and what is still in the stream, as long as every
`recv` has returned its whole field. -/
def Aligned (hello : Hello) (state : State) : Prop :=
  match state.waiting with
  | .mode => state.unread = hello.mode ++ (hello.username.array ++ hello.password.array)
  | .username => state.locals.mode = hello.mode ∧
      state.unread = hello.username.array ++ hello.password.array
  | .password => state.locals.mode = hello.mode ∧ state.locals.username = hello.username.array ∧
      state.unread = hello.password.array
  | .chat => state.locals.mode = hello.mode ∧ state.locals.username = hello.username.array ∧
      state.locals.password = hello.password.array ∧ state.unread = []

structure Sized (locals : Locals) : Prop where
  mode : locals.mode.length = 4
  username : locals.username.length = 50
  password : locals.password.length = 50

theorem field_stored {array field rest stream : Bytes} {count : Nat}
    (size : field.length = array.length) (shape : stream = field ++ rest)
    (whole : count = field.length) :
    overwrite array (stream.take count) = field ∧ stream.drop count = rest := by
  rw [shape, whole, List.take_left, List.drop_left]
  exact ⟨by simp [overwrite, size], rfl⟩

structure Exact (hello : Hello) (state : State) : Prop where
  sized : Sized state.locals
  aligned : Aligned hello state

theorem exact_start (hello : Hello) {stale : Locals} (sized : Sized stale) :
    Exact hello (start hello stale) where
  sized := sized
  aligned := by simp [Aligned, start, State.unread]

theorem Exact.same {hello : Hello} {state next : State} (holds : Exact hello state)
    (unread : next.unread = state.unread) (waiting : next.waiting = state.waiting)
    (locals : next.locals = state.locals) : Exact hello next where
  sized := by
    rw [locals]
    exact holds.sized
  aligned := by
    have aligned := holds.aligned
    unfold Aligned at aligned ⊢
    rw [waiting, locals, unread]
    exact aligned

theorem overwrite_length {array chunk : Bytes} (fits : chunk.length ≤ array.length) :
    (overwrite array chunk).length = array.length := by
  simp only [overwrite, List.length_append, List.length_drop]
  omega

theorem sized_store {locals : Locals} {waiting : Waiting} {chunk : Bytes} (sized : Sized locals)
    (fits : chunk.length ≤ waiting.size) : Sized (locals.store waiting chunk) := by
  obtain ⟨mode, username, password⟩ := sized
  cases waiting with
  | mode =>
      have kept : (overwrite locals.mode chunk).length = 4 := by
        rw [overwrite_length (by rw [mode]; exact fits), mode]
      exact ⟨kept, username, password⟩
  | username =>
      have kept : (overwrite locals.username chunk).length = 50 := by
        rw [overwrite_length (by rw [username]; exact fits), username]
      exact ⟨mode, kept, password⟩
  | password =>
      have kept : (overwrite locals.password chunk).length = 50 := by
        rw [overwrite_length (by rw [password]; exact fits), password]
      exact ⟨mode, username, kept⟩
  | chat => exact ⟨mode, username, password⟩

theorem aligned_recv {hello : Hello} {state next : State} {count : Nat}
    (holds : Exact hello state) (whole : count = state.waiting.size)
    (stepped : step state (.recv count) = some next) : Aligned hello next := by
  obtain ⟨positive, _, _, unread, waiting, locals⟩ := recv_cases stepped
  have sized := holds.sized
  have aligned := holds.aligned
  cases place : state.waiting with
  | mode =>
      simp only [Aligned, place] at aligned
      have length : count = hello.mode.length := by rw [whole, place, hello.modeSize]; rfl
      have size : hello.mode.length = state.locals.mode.length := by
        rw [hello.modeSize, sized.mode]
      obtain ⟨stored, rest⟩ := field_stored size aligned length
      simp only [Aligned, waiting, place, Waiting.next, locals, Locals.store]
      exact ⟨stored, unread.trans rest⟩
  | username =>
      simp only [Aligned, place] at aligned
      obtain ⟨mode, stream⟩ := aligned
      have length : count = hello.username.array.length := by
        rw [whole, place, hello.username.size]
        rfl
      have size : hello.username.array.length = state.locals.username.length := by
        rw [hello.username.size, sized.username]
      obtain ⟨stored, rest⟩ := field_stored size stream length
      simp only [Aligned, waiting, place, Waiting.next, locals, Locals.store]
      exact ⟨mode, stored, unread.trans rest⟩
  | password =>
      simp only [Aligned, place] at aligned
      obtain ⟨mode, username, stream⟩ := aligned
      rw [← List.append_nil hello.password.array] at stream
      have length : count = hello.password.array.length := by
        rw [whole, place, hello.password.size]
        rfl
      have size : hello.password.array.length = state.locals.password.length := by
        rw [hello.password.size, sized.password]
      obtain ⟨stored, rest⟩ := field_stored size stream length
      simp only [Aligned, waiting, place, Waiting.next, locals, Locals.store]
      exact ⟨mode, username, stored, unread.trans rest⟩
  | chat =>
      rw [place, Waiting.size] at whole
      omega

theorem exact_recv {hello : Hello} {state next : State} {count : Nat} (holds : Exact hello state)
    (whole : count = state.waiting.size) (stepped : step state (.recv count) = some next) :
    Exact hello next where
  sized := by
    obtain ⟨_, asked, _, _, _, locals⟩ := recv_cases stepped
    rw [locals]
    exact sized_store holds.sized ((List.length_take_le _ _).trans asked)
  aligned := aligned_recv holds whole stepped

theorem exact_step {hello : Hello} {state next : State} {action : Action}
    (holds : Exact hello state) (whole : WholeField state action)
    (stepped : step state action = some next) : Exact hello next := by
  cases action with
  | send =>
      obtain ⟨unread, waiting, locals⟩ := send_cases stepped
      exact holds.same unread waiting locals
  | deliver count =>
      obtain ⟨unread, waiting, locals⟩ := deliver_cases stepped
      exact holds.same unread waiting locals
  | recv count => exact exact_recv holds whole stepped

/-- A handshake that is over was framed as it was sent exactly when each of the
three `recv` calls returned its whole field. -/
theorem handshake_framed_iff (hello : Hello) (stale : Locals) (sized : Sized stale)
    (actions : List Action) (final : State)
    (ran : run step (start hello stale) actions = some final) (finished : final.waiting = .chat) :
    Framed hello final ↔ Meets step WholeField (start hello stale) actions := by
  have sent : (start hello stale).unread.length = 104 := by
    simp [start, State.unread, hello.modeSize, hello.username.size, hello.password.size]
  have asked : (start hello stale).waiting.owed = 104 := rfl
  have nothing : final.waiting.owed = 0 := by rw [finished]; rfl
  have leaves := (run_leaves actions ran).2
  rw [sent, asked, nothing] at leaves
  constructor
  · intro framed
    have empty := framed.chat []
    rw [List.append_nil] at empty
    exact leaves.mp (by rw [empty]; rfl)
  · intro met
    have exact' : Exact hello final := run_keeps
      (fun _ _ _ holds whole stepped => exact_step holds whole stepped)
      (exact_start hello sized) met ran
    have aligned := exact'.aligned
    simp only [Aligned, finished] at aligned
    obtain ⟨mode, username, password, unread⟩ := aligned
    constructor
    case mode => exact mode
    case username => rw [username]
    case password => rw [password]
    case chat =>
      intro typed
      rw [unread, List.nil_append]

def nameField (name : Bytes) (short : name.length ≤ 49) : Field where
  array := name ++ List.replicate (50 - name.length) 0
  size := by
    simp only [List.length_append, List.length_replicate]
    omega
  terminated := by
    have room : 50 - name.length ≠ 0 := by omega
    simp [room]

def alLogsIn : Hello where
  mode := [1, 0, 0, 0]
  modeSize := rfl
  username := nameField (ascii "al") (by decide)
  password := nameField (ascii "pw") (by decide)

def zeroed : Locals where
  mode := List.replicate 4 0
  username := List.replicate 50 0
  password := List.replicate 50 0

theorem zeroed_sized : Sized zeroed := ⟨by decide, by decide, by decide⟩

def inOnePiece : List Action :=
  [.send, .send, .send, .deliver 104, .recv 4, .recv 50, .recv 50]

theorem one_segment_is_framed :
    ∃ final, run step (start alLogsIn zeroed) inOnePiece = some final ∧ Framed alLogsIn final := by
  have reached : ∃ final, run step (start alLogsIn zeroed) inOnePiece = some final ∧
      final.waiting = .chat := ⟨_, rfl, rfl⟩
  obtain ⟨final, ran, finished⟩ := reached
  have framed := handshake_framed_iff alLogsIn zeroed zeroed_sized inOnePiece final ran finished
  exact ⟨final, ran, framed.mpr (by decide)⟩

/-- The username arrives in two segments: its second half is taken for the password. -/
def usernameSplit : List Action :=
  [.send, .deliver 4, .recv 4, .send, .deliver 1, .recv 1, .deliver 49, .recv 49]

theorem split_username_is_misread :
    ¬∀ hello stale actions final, Sized stale → run step (start hello stale) actions = some final →
      final.waiting = .chat → Framed hello final := by
  intro framed
  have reached : ∃ final, run step (start alLogsIn zeroed) usernameSplit = some final ∧
      final.waiting = .chat ∧ cstr final.locals.password = ascii "l" := ⟨_, rfl, rfl, by decide⟩
  obtain ⟨final, ran, finished, misread⟩ := reached
  have sent := (framed alLogsIn zeroed usernameSplit final zeroed_sized ran finished).password
  rw [misread] at sent
  exact absurd sent (by decide)

end LinuxFff.HandshakeFraming
