import LinuxFff.TlsServer

/-!
# The descriptors of `server_tls_final.c`

`main` gets a descriptor from `accept` and gives only the `SSL` object to the
thread. `main` closes the descriptor when `SSL_accept` fails; `handle_client`
frees the object and has no descriptor to close, and freeing does not close it.
A step is a step of the server with what it does to the descriptors.
-/

namespace LinuxFff.DescriptorLeak

open LinuxFff.StepSystem LinuxFff.TlsServer

set_option autoImplicit false

/-- `clientSock` is the local of the iteration of the accept loop in which the
session was accepted; `opened` has the sessions and numbers of the open
descriptors, the last three lists are the calls so far. -/
structure State where
  server : TlsServer.State
  clientSock : Nat → Nat
  opened : List (Nat × Nat)
  accepted : List Nat
  closed : List Nat
  freed : List Nat

def initial : State where
  server := TlsServer.initial
  clientSock := fun _ => 0
  opened := []
  accepted := []
  closed := []
  freed := []

/-- `sock` is what `accept` returns, and plays no part in other calls. -/
structure Action where
  call : TlsServer.Action
  sock : Nat

def State.accept (state : State) (session sock : Nat) : State :=
  { state with
    clientSock := Function.update state.clientSock session sock
    opened := (session, sock) :: state.opened
    accepted := session :: state.accepted }

def State.close (state : State) (session : Nat) : State :=
  { state with
    opened := state.opened.erase (session, state.clientSock session)
    closed := session :: state.closed }

def State.sslFree (state : State) (session : Nat) : State :=
  { state with freed := session :: state.freed }

def ThreadEnds (state : TlsServer.State) : TlsServer.Action → Prop
  | .proceed session => (state.sessions session).map Session.phase = some .freeing
  | _ => False

instance (state : TlsServer.State) (call : TlsServer.Action) : Decidable (ThreadEnds state call) :=
  match call with
  | .proceed session =>
      inferInstanceAs (Decidable ((state.sessions session).map Session.phase = some .freeing))
  | .accept _ _ | .handshake _ _ | .authenticate _ _ | .receive _ _ => isFalse id

/-- An open number is not given out again. -/
def step (state : State) (action : Action) : Option State :=
  (TlsServer.step state.server action.call).bind fun server =>
    let next := { state with server }
    match action.call with
    | .accept session _ =>
        if action.sock ∈ state.opened.map Prod.snd then none
        else some (next.accept session action.sock)
    | .handshake session false => some ((next.close session).sslFree session)
    | .proceed session =>
        if ThreadEnds state.server action.call then some (next.sslFree session) else some next
    | _ => some next

def running (server : TlsServer.State) (session : Nat) : Bool :=
  match server.sessions session with
  | some found => decide (found.phase ≠ .ended)
  | none => false

/-- As many open descriptors as sessions that have not ended, and every session
that has ended has been closed and freed once. -/
structure Balanced (state : State) : Prop where
  number : state.opened.length = state.accepted.countP (running state.server)
  closedOnce : ∀ session ∈ state.accepted, running state.server session = false →
    state.closed.count session = 1
  freedOnce : ∀ session ∈ state.accepted, running state.server session = false →
    state.freed.count session = 1

structure Tracked (state : State) : Prop where
  distinct : state.accepted.Nodup
  accepted : ∀ session, session ∈ state.accepted ↔
    ∃ found, state.server.sessions session = some found
  holds : ∀ session found, state.server.sessions session = some found →
    found.phase = .handshake → (session, state.clientSock session) ∈ state.opened
  untouched : ∀ session, (state.server.sessions session = none ∨
    running state.server session = true) → session ∉ state.closed ∧ session ∉ state.freed

theorem tracked_initial : Tracked initial where
  distinct := List.nodup_nil
  accepted := by
    intro session
    simp [initial, TlsServer.initial]
  holds := by
    intro session found impossible
    cases impossible
  untouched := by
    intro session _
    exact ⟨List.not_mem_nil, List.not_mem_nil⟩

theorem balanced_initial : Balanced initial where
  number := rfl
  closedOnce := by
    intro session impossible
    cases impossible
  freedOnce := by
    intro session impossible
    cases impossible

theorem count_change {items : List Nat} {before after : Nat → Bool} {item : Nat}
    (distinct : items.Nodup) (member : item ∈ items)
    (others : ∀ other, other ≠ item → after other = before other) :
    items.countP after + (before item).toNat = items.countP before + (after item).toNat := by
  have split := List.perm_cons_erase member
  have rest : (items.erase item).countP after = (items.erase item).countP before := by
    apply List.countP_congr
    intro other inside
    rw [others other (distinct.mem_erase_iff.mp inside).1]
  rw [split.countP_eq, split.countP_eq, List.countP_cons, List.countP_cons, rest]
  cases before item <;> cases after item <;> simp

structure MovesOn (server next : TlsServer.State) (session : Nat) (found moved : Session) :
    Prop where
  lookup : server.sessions session = some found
  sessions : next.sessions = Function.update server.sessions session (some moved)
  before : found.phase ≠ .ended
  after : moved.phase ≠ .ended
  past : moved.phase ≠ .handshake

theorem proceed_moves_on {server next : TlsServer.State} {session : Nat} {found : Session}
    (lookup : server.sessions session = some found) (stays : found.phase ≠ .freeing)
    (stepped : proceed server session found = some next) :
    ∃ moved, MovesOn server next session found moved := by
  unfold proceed at stepped
  split at stepped
  case h_1 here =>
    cases stepped
    refine ⟨{ found with phase := .broadcasting .joined }, lookup, ?_, by simp [here], by simp,
      by simp⟩
    obtain ⟨clients, event, _, same⟩ := add_client_cases server session found
    rw [same]
    rfl
  case h_2 notice here =>
    cases stepped
    exact ⟨_, lookup, rfl, by simp [here], by simp, by simp⟩
  case h_3 message here =>
    cases stepped
    refine ⟨_, lookup, rfl, by simp [here], ?_, ?_⟩
    · cases message.notice <;> simp [Notice.next]
    · cases message.notice <;> simp [Notice.next]
  case h_4 here =>
    cases stepped
    exact ⟨_, lookup, rfl, by simp [here], by simp, by simp⟩
  case h_5 here =>
    cases stepped
    exact ⟨_, lookup, rfl, by simp [here], by simp, by simp⟩
  case h_6 here => exact absurd here stays
  case h_7 => cases stepped

theorem running_some {server : TlsServer.State} {session : Nat} {found : Session}
    (lookup : server.sessions session = some found) :
    running server session = decide (found.phase ≠ .ended) := by
  rw [running, lookup]

theorem running_other {server next : TlsServer.State} {session other : Nat} {moved : Session}
    (sessions : next.sessions = Function.update server.sessions session (some moved))
    (apart : other ≠ session) : running next other = running server other := by
  rw [running, running, sessions, Function.update_of_ne apart]

theorem running_moved {server next : TlsServer.State} {session : Nat} {moved : Session}
    (sessions : next.sessions = Function.update server.sessions session (some moved)) :
    running next session = decide (moved.phase ≠ .ended) :=
  running_some (by rw [sessions, Function.update_self])

section Steps

variable {state : State} {server : TlsServer.State} {session : Nat} {found moved : Session}

theorem MovesOn.running_eq (moves : MovesOn state.server server session found moved) :
    running server = running state.server := by
  funext other
  by_cases same : other = session
  · rw [same, running_moved moves.sessions, running_some moves.lookup]
    simp [moves.before, moves.after]
  · exact running_other moves.sessions same

theorem Tracked.sessions_known (tracked : Tracked state)
    (lookup : state.server.sessions session = some found)
    (sessions : server.sessions = Function.update state.server.sessions session (some moved))
    (other : Nat) : other ∈ state.accepted ↔ ∃ result, server.sessions other = some result := by
  rw [tracked.accepted, sessions]
  by_cases same : other = session
  · simp [same, lookup]
  · rw [Function.update_of_ne same]

theorem Tracked.moves_on (tracked : Tracked state)
    (moves : MovesOn state.server server session found moved) :
    Tracked { state with server } where
  distinct := tracked.distinct
  accepted := tracked.sessions_known moves.lookup moves.sessions
  holds := by
    intro other result lookup here
    simp only [moves.sessions] at lookup
    by_cases same : other = session
    · rw [same, Function.update_self] at lookup
      cases lookup
      exact absurd here moves.past
    · rw [Function.update_of_ne same] at lookup
      exact tracked.holds other result lookup here
  untouched := by
    intro other fresh
    apply tracked.untouched other
    simp only [moves.running_eq] at fresh
    rcases fresh with unborn | runs
    · left
      rw [moves.sessions] at unborn
      by_cases same : other = session
      · rw [same, Function.update_self] at unborn
        cases unborn
      · rwa [Function.update_of_ne same] at unborn
    · exact Or.inr runs

theorem Balanced.moves_on (balanced : Balanced state)
    (moves : MovesOn state.server server session found moved) :
    Balanced { state with server } where
  number := by
    rw [moves.running_eq]
    exact balanced.number
  closedOnce := by
    simp only [moves.running_eq]
    exact balanced.closedOnce
  freedOnce := by
    simp only [moves.running_eq]
    exact balanced.freedOnce

theorem Tracked.accept (tracked : Tracked state) {sock : Nat}
    (unborn : state.server.sessions session = none)
    (sessions : server.sessions = Function.update state.server.sessions session (some moved)) :
    Tracked ({ state with server }.accept session sock) := by
  have outsider : session ∉ state.accepted := by
    rw [tracked.accepted, unborn]
    simp
  constructor
  case distinct => exact List.nodup_cons.mpr ⟨outsider, tracked.distinct⟩
  case accepted =>
    intro other
    simp only [State.accept, List.mem_cons, tracked.accepted, sessions]
    by_cases same : other = session
    · simp [same]
    · simp [same]
  case holds =>
    intro other result lookup here
    simp only [State.accept, sessions] at lookup ⊢
    by_cases same : other = session
    · rw [same, Function.update_self]
      exact List.mem_cons_self
    · rw [Function.update_of_ne same] at lookup ⊢
      exact List.mem_cons_of_mem _ (tracked.holds other result lookup here)
  case untouched =>
    intro other fresh
    apply tracked.untouched other
    simp only [State.accept, sessions] at fresh
    by_cases same : other = session
    · rw [same]
      exact Or.inl unborn
    · rwa [Function.update_of_ne same, running_other sessions same] at fresh

theorem Balanced.accept (balanced : Balanced state) (tracked : Tracked state) {sock : Nat}
    (unborn : state.server.sessions session = none) (begins : moved.phase ≠ .ended)
    (sessions : server.sessions = Function.update state.server.sessions session (some moved)) :
    Balanced ({ state with server }.accept session sock) := by
  have outsider : session ∉ state.accepted := by
    rw [tracked.accepted, unborn]
    simp
  have others : ∀ other ∈ state.accepted, running server other = running state.server other := by
    intro other member
    apply running_other sessions
    intro same
    exact outsider (same ▸ member)
  have runs : running server session = true := by
    rw [running_moved sessions]
    simp [begins]
  have ended : ∀ other ∈ session :: state.accepted, running server other = false →
      other ∈ state.accepted ∧ running state.server other = false := by
    intro other member stopped
    rcases List.mem_cons.mp member with same | old
    · rw [same, runs] at stopped
      cases stopped
    · rw [others other old] at stopped
      exact ⟨old, stopped⟩
  constructor
  case number =>
    have same : state.accepted.countP (running server) =
        state.accepted.countP (running state.server) :=
      List.countP_congr fun other member => by rw [others other member]
    simp only [State.accept, List.length_cons, List.countP_cons, runs, same, balanced.number,
      if_true]
  case closedOnce =>
    intro other member stopped
    obtain ⟨old, before⟩ := ended other member stopped
    exact balanced.closedOnce other old before
  case freedOnce =>
    intro other member stopped
    obtain ⟨old, before⟩ := ended other member stopped
    exact balanced.freedOnce other old before

structure Ends (server next : TlsServer.State) (session : Nat) (found moved : Session) :
    Prop where
  lookup : server.sessions session = some found
  sessions : next.sessions = Function.update server.sessions session (some moved)
  before : found.phase ≠ .ended
  after : moved.phase = .ended

theorem Ends.count (ends : Ends state.server server session found moved)
    (tracked : Tracked state) :
    state.accepted.countP (running server) + 1 =
      state.accepted.countP (running state.server) := by
  have member : session ∈ state.accepted := (tracked.accepted session).mpr ⟨found, ends.lookup⟩
  have change := count_change tracked.distinct member
    fun other apart => running_other ends.sessions apart
  rw [running_some ends.lookup, running_moved ends.sessions] at change
  simpa [ends.before, ends.after] using change

theorem Ends.unbalanced (ends : Ends state.server server session found moved)
    (tracked : Tracked state) (balanced : Balanced state) :
    ¬Balanced ({ state with server }.sslFree session) := by
  intro after
  have number := after.number
  have before := balanced.number
  have count := ends.count tracked
  simp only [State.sslFree] at number
  omega

theorem Ends.others_fresh (ends : Ends state.server server session found moved) {other : Nat}
    (fresh : server.sessions other = none ∨ running server other = true) :
    other ≠ session ∧
      (state.server.sessions other = none ∨ running state.server other = true) := by
  have apart : other ≠ session := by
    intro same
    rw [same, running_moved ends.sessions, ends.sessions, Function.update_self] at fresh
    simp [ends.after] at fresh
  rw [ends.sessions, Function.update_of_ne apart, running_other ends.sessions apart] at fresh
  exact ⟨apart, fresh⟩

theorem Ends.tracked {opened : List (Nat × Nat)} {closed : List Nat}
    (ends : Ends state.server server session found moved) (tracked : Tracked state)
    (kept : ∀ other sock, other ≠ session → (other, sock) ∈ state.opened → (other, sock) ∈ opened)
    (own : ∀ other, other ≠ session → other ∉ state.closed → other ∉ closed) :
    Tracked { state with server, opened, closed, freed := session :: state.freed } where
  distinct := tracked.distinct
  accepted := tracked.sessions_known ends.lookup ends.sessions
  holds := by
    intro other result lookup here
    simp only [ends.sessions] at lookup
    by_cases same : other = session
    · rw [same, Function.update_self] at lookup
      cases lookup
      rw [ends.after] at here
      cases here
    · rw [Function.update_of_ne same] at lookup
      exact kept other _ same (tracked.holds other result lookup here)
  untouched := by
    intro other fresh
    obtain ⟨apart, before⟩ := ends.others_fresh fresh
    obtain ⟨notClosed, notFreed⟩ := tracked.untouched other before
    exact ⟨own other apart notClosed, fun freed => (List.mem_cons.mp freed).elim apart notFreed⟩

theorem Ends.tracked_free (ends : Ends state.server server session found moved)
    (tracked : Tracked state) : Tracked ({ state with server }.sslFree session) :=
  ends.tracked tracked (fun _ _ _ held => held) (fun _ _ notClosed => notClosed)

theorem Ends.tracked_refuse (ends : Ends state.server server session found moved)
    (tracked : Tracked state) :
    Tracked (({ state with server }.close session).sslFree session) := by
  apply ends.tracked tracked
  · intro other sock apart held
    have differs : (other, sock) ≠ (session, state.clientSock session) :=
      fun equal => apart (congrArg Prod.fst equal)
    exact (List.mem_erase_of_ne differs).mpr held
  · intro other apart notClosed closed
    exact (List.mem_cons.mp closed).elim apart notClosed

theorem Ends.once (ends : Ends state.server server session found moved) {calls : List Nat}
    (fresh : session ∉ calls)
    (earlier : ∀ other ∈ state.accepted, running state.server other = false →
      calls.count other = 1) :
    ∀ other ∈ state.accepted, running server other = false →
      (session :: calls).count other = 1 := by
  intro other member stopped
  by_cases same : other = session
  · rw [same, List.count_cons_self, List.count_eq_zero.mpr fresh]
  · rw [running_other ends.sessions same] at stopped
    rw [List.count_cons_of_ne (Ne.symm same)]
    exact earlier other member stopped

theorem Ends.balanced_refuse (ends : Ends state.server server session found moved)
    (tracked : Tracked state) (handshake : found.phase = .handshake)
    (balanced : Balanced state) :
    Balanced (({ state with server }.close session).sslFree session) := by
  have runs : running state.server session = true := by
    rw [running_some ends.lookup]
    simp [ends.before]
  obtain ⟨notClosed, notFreed⟩ := tracked.untouched session (Or.inr runs)
  constructor
  case number =>
    have isOpen := tracked.holds session found ends.lookup handshake
    have some_open := List.length_pos_of_mem isOpen
    have count := ends.count tracked
    have number := balanced.number
    simp only [State.close, State.sslFree, List.length_erase_of_mem isOpen]
    omega
  case closedOnce => exact ends.once notClosed balanced.closedOnce
  case freedOnce => exact ends.once notFreed balanced.freedOnce

theorem moved_sound {call : TlsServer.Action} (tracked : Tracked state)
    (moves : MovesOn state.server server session found moved)
    (goesOn : ¬ThreadEnds state.server call) :
    Tracked { state with server } ∧
      (Balanced state → (Balanced { state with server } ↔ ¬ThreadEnds state.server call)) :=
  ⟨tracked.moves_on moves, fun balanced => ⟨fun _ => goesOn, fun _ => balanced.moves_on moves⟩⟩

end Steps

/-- The last step of a thread: `SSL_free`, and the descriptor stays. -/
theorem proceed_sound {state next : State} {server : TlsServer.State} {session : Nat}
    (tracked : Tracked state)
    (served : TlsServer.step state.server (.proceed session) = some server)
    (same : (if ThreadEnds state.server (.proceed session) then
      some ({ state with server }.sslFree session) else some { state with server }) = some next) :
    Tracked next ∧
      (Balanced state → (Balanced next ↔ ¬ThreadEnds state.server (.proceed session))) := by
  obtain ⟨found, lookup, proceeded⟩ := proceed_cases served
  by_cases here : found.phase = .freeing
  · have ending : ThreadEnds state.server (.proceed session) := by
      simp [ThreadEnds, lookup, here]
    simp only [if_pos ending, Option.some.injEq] at same
    subst same
    simp only [proceed, here, Option.some.injEq] at proceeded
    have ends : Ends state.server server session found { found with phase := .ended } := by
      subst proceeded
      exact ⟨lookup, rfl, by simp [here], rfl⟩
    refine ⟨ends.tracked_free tracked, fun balanced => ?_⟩
    exact ⟨fun after => absurd after (ends.unbalanced tracked balanced),
      fun goesOn => absurd ending goesOn⟩
  · have goesOn : ¬ThreadEnds state.server (.proceed session) := by
      simp [ThreadEnds, lookup, here]
    simp only [if_neg goesOn, Option.some.injEq] at same
    subst same
    obtain ⟨moved, moves⟩ := proceed_moves_on lookup here proceeded
    exact moved_sound tracked moves goesOn

theorem step_sound {state next : State} {action : Action} (tracked : Tracked state)
    (stepped : step state action = some next) :
    Tracked next ∧
      (Balanced state → (Balanced next ↔ ¬ThreadEnds state.server action.call)) := by
  obtain ⟨call, sock⟩ := action
  simp only [step, Option.bind_eq_some_iff] at stepped
  obtain ⟨server, served, same⟩ := stepped
  cases call with
  | accept session ssl =>
      simp only [Option.ite_none_left_eq_some, Option.some.injEq] at same
      obtain ⟨_, isNext⟩ := same
      subst isNext
      obtain ⟨unborn, _, _, isServer⟩ := accept_cases served
      subst isServer
      refine ⟨tracked.accept unborn rfl, fun balanced => ⟨fun _ => id, fun _ => ?_⟩⟩
      exact balanced.accept tracked unborn (by simp) rfl
  | handshake session success =>
      obtain ⟨found, lookup, here, ⟨accepted, isServer⟩ | ⟨refused, isServer⟩⟩ :=
        handshake_cases served
      · subst accepted
        cases same
        have moves : MovesOn state.server server session found
            { found with phase := .authenticating } := by
          subst isServer
          exact ⟨lookup, rfl, by simp [here], by simp, by simp⟩
        exact moved_sound tracked moves id
      · subst refused
        cases same
        have ends : Ends state.server server session found { found with phase := .ended } := by
          subst isServer
          exact ⟨lookup, rfl, by simp [here], rfl⟩
        exact ⟨ends.tracked_refuse tracked, fun balanced =>
          ⟨fun _ => id, fun _ => ends.balanced_refuse tracked here balanced⟩⟩
  | authenticate session result =>
      cases same
      obtain ⟨found, lookup, here, outcome⟩ := authenticate_cases served
      have moves : ∃ moved, MovesOn state.server server session found moved := by
        rcases outcome with ⟨_, isServer⟩ | ⟨name, _, isServer⟩
        · subst isServer
          exact ⟨_, lookup, rfl, by simp [here], by simp, by simp⟩
        · subst isServer
          exact ⟨_, lookup, rfl, by simp [here], by simp, by simp⟩
      exact moved_sound tracked moves.choose_spec id
  | receive session record =>
      cases same
      obtain ⟨found, lookup, here, outcome⟩ := receive_cases served
      have moves : ∃ moved, MovesOn state.server server session found moved := by
        rcases outcome with ⟨_, isServer⟩ | ⟨buffer, _, isServer⟩
        · subst isServer
          exact ⟨_, lookup, rfl, by simp [here], by simp, by simp⟩
        · subst isServer
          exact ⟨_, lookup, rfl, by simp [here], by simp, by simp⟩
      exact moved_sound tracked moves.choose_spec id
  | proceed session => exact proceed_sound tracked served same

theorem disabled_goes_on {state : State} {action : Action} (disabled : step state action = none) :
    ¬ThreadEnds state.server action.call := by
  obtain ⟨call, sock⟩ := action
  cases call with
  | proceed session =>
      intro ending
      obtain ⟨found, lookup, here⟩ := Option.map_eq_some_iff.mp ending
      simp [step, TlsServer.step, lookup, proceed, here, ending] at disabled
  | _ => exact id

/-- Descriptors and sessions balance in every state of a run exactly when no
thread of the run ends. -/
theorem descriptors_balance_iff (actions : List Action) :
    (∀ before after reached, actions = before ++ after →
        run step initial before = some reached → Balanced reached) ↔
      Meets step (fun state action => ¬ThreadEnds state.server action.call) initial actions :=
  meets_iff_always_good (fun _ _ _ tracked stepped => (step_sound tracked stepped).1)
    (fun _ _ _ tracked balanced stepped => ((step_sound tracked stepped).2 balanced).symm)
    (fun _ _ disabled => disabled_goes_on disabled) tracked_initial balanced_initial actions

/-- One client whose login fails: its thread ends, its descriptor stays open. -/
theorem failed_login_leaks :
    ∃ state, run step initial [⟨.accept 0 1, 4⟩, ⟨.handshake 0 true, 0⟩, ⟨.authenticate 0 none, 0⟩,
        ⟨.proceed 0, 0⟩] = some state ∧
      running state.server 0 = false ∧ state.opened = [(0, 4)] ∧ state.freed = [0] ∧
      ¬Balanced state := by
  refine ⟨_, rfl, rfl, rfl, rfl, ?_⟩
  intro balanced
  exact absurd balanced.number (by decide)

end LinuxFff.DescriptorLeak
