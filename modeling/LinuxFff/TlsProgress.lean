import LinuxFff.LogOrder
import LinuxFff.StreamOrder

/-!
# What comes in is worked off

The threads of `server_tls_final.c` wait for their clients and for one mutex. Whatever the
scheduler does, the steps that a thread takes between two inputs are bounded by the size of the
table, and as long as a thread is not back at its client some thread can go on.
-/

namespace LinuxFff.TlsProgress

open LinuxFff.ClientTables LinuxFff.ClientsMutex LinuxFff.LogOrder LinuxFff.Serialization
open LinuxFff.StepSystem LinuxFff.StreamOrder LinuxFff.TlsHistory LinuxFff.TlsThreads
open LinuxFff.TlsServer (Message Notice Session)

set_option autoImplicit false

def accessesLeft : Local → Nat
  | .adding _ _ i => maxClients - i + 4
  | .storingSsl _ _ _ => 3
  | .storingActive _ _ => 2
  | .storingUsername _ _ => 1
  | .removing _ i => maxClients - i + 3
  | .clearingActive _ => 2
  | .clearingSsl _ => 1
  | .sending _ i => 2 * (maxClients - i) + 1
  | .writing _ i => 2 * (maxClients - (i + 1)) + 2

/-- The steps of a thread up to the return of its call. -/
def toReturn : Phase Call Local Result → Nat
  | .waiting call => accessesLeft (enter call) + 2
  | .inside _ here => accessesLeft here + 1
  | .leaving _ _ => 1

/-- The steps after the message is in the log. -/
def afterSave : Notice → Nat
  | .joined => 1
  | .said _ => 0
  | .left => maxClients + 7

/-- The steps of a thread after its call, or without one, up to its next input. -/
def toInput : TlsServer.Phase → Nat
  | .adding => 2 * maxClients + 6
  | .broadcasting notice => afterSave notice + 1
  | .saving message => afterSave message.notice + 1
  | .replaying => 1
  | .removing => 1
  | .freeing => 1
  | _ => 0

/-- The thread waits for its client, or has ended. -/
def Resting : TlsServer.Phase → Prop
  | .handshake => True
  | .authenticating => True
  | .reading => True
  | .ended => True
  | _ => False

def callLeft (session : Nat) (found : Session) : Option (Phase Call Local Result) → Nat
  | some phase => toReturn phase
  | none =>
      match callOf session found with
      | some call => toReturn (.waiting call) + 1
      | none => 0

def work (state : TlsThreads.State) (session : Nat) : Nat :=
  match state.sessions session with
  | some found => toInput found.phase + callLeft session found (state.mutex.phases session)
  | none => 0

/-- The steps of a thread that wait for nothing but the mutex. -/
def internalOf (session : Nat) : TlsThreads.Action → Bool
  | .outside (.proceed other) => other == session
  | .outside _ => false
  | .call other => other == session
  | .lock other => other == session
  | .access other => other == session
  | .unlock other => other == session

def inputOf (session : Nat) : TlsThreads.Action → Bool
  | .outside (.proceed _) => false
  | .outside action => action.session == session
  | _ => false

def actor : TlsThreads.Action → Nat
  | .outside action => action.session
  | .call session => session
  | .lock session => session
  | .access session => session
  | .unlock session => session

theorem access_length {here : Local} {shared after : Shared} {outcome : Local ⊕ Result}
    (accessed : access here shared = (after, outcome)) :
    after.clients.length = shared.clients.length := by
  cases access_touched accessed with
  | nothing => rfl
  | stored i change => exact List.length_modify _ _ _
  | wrote message i client at_write lookup => rfl

theorem lookup_inside {shared : Shared} {i : Nat} {client : Client}
    (size : shared.clients.length = maxClients) (lookup : shared.clients[i]? = some client) :
    i < maxClients := by
  obtain ⟨inside, _⟩ := List.getElem?_eq_some_iff.mp lookup
  exact size ▸ inside

theorem access_lowers {here moved : Local} {shared after : Shared}
    (size : shared.clients.length = maxClients)
    (accessed : access here shared = (after, .inl moved)) :
    accessesLeft moved + 1 ≤ accessesLeft here := by
  cases here <;> simp only [access] at accessed
  case adding ssl username i =>
    split at accessed
    case h_1 client lookup =>
      have inside := lookup_inside size lookup
      split at accessed <;> cases accessed <;> simp only [accessesLeft] <;> omega
    case h_2 => cases accessed
  case removing ssl i =>
    split at accessed
    case h_1 client lookup =>
      have inside := lookup_inside size lookup
      split at accessed <;> cases accessed <;> simp only [accessesLeft] <;> omega
    case h_2 => cases accessed
  case sending message i =>
    split at accessed
    case h_1 client lookup =>
      have inside := lookup_inside size lookup
      split at accessed <;> cases accessed <;> simp only [accessesLeft] <;> omega
    case h_2 => cases accessed
  case writing message i =>
    split at accessed <;> cases accessed <;> simp only [accessesLeft] <;> omega
  all_goals
    cases accessed
    try simp [accessesLeft]

theorem accesses_left_pos (here : Local) : 1 ≤ accessesLeft here := by
  cases here <;> simp [accessesLeft]

theorem work_bound (session : Nat) (found : Session) :
    toInput found.phase + callLeft session found none ≤ 3 * maxClients + 13 := by
  unfold callLeft callOf
  cases here : found.phase with
  | broadcasting notice =>
      have later : afterSave notice ≤ maxClients + 7 := by
        cases notice <;> simp [afterSave]
      simp only [toInput, toReturn, enter, accessesLeft]
      omega
  | saving message =>
      have later : afterSave message.notice ≤ maxClients + 7 := by
        cases message.notice <;> simp [afterSave]
      simp only [toInput]
      omega
  | _ =>
      simp [toInput, toReturn, enter, accessesLeft]
      try omega

section Work

variable {state next : TlsThreads.State} {coarse : TlsServer.State} {session : Nat} {found : Session}

theorem work_some {phase : Option (Phase Call Local Result)}
    (lookup : state.sessions session = some found)
    (here : state.mutex.phases session = phase) :
    work state session = toInput found.phase + callLeft session found phase := by
  rw [work, lookup, here]

theorem work_congr (sessions : next.sessions session = state.sessions session)
    (phases : next.mutex.phases session = state.mutex.phases session) :
    work next session = work state session := by
  rw [work, work, sessions, phases]

theorem proceed_lowers {view after : TlsServer.State} (outside : callOf session found = none)
    (stepped : TlsServer.proceed view session found = some after) :
    ∃ moved, after.sessions = Function.update view.sessions session (some moved) ∧
      toInput moved.phase + callLeft session moved none + 1 ≤ toInput found.phase := by
  unfold TlsServer.proceed at stepped
  split at stepped
  case h_1 here => simp [callOf, here] at outside
  case h_2 notice here => simp [callOf, here] at outside
  case h_3 message here =>
    cases stepped
    refine ⟨{ found with phase := message.notice.next }, rfl, ?_⟩
    rw [here]
    cases notice : message.notice with
    | joined => simp [toInput, afterSave, callLeft, callOf, Notice.next, notice]
    | said buffer => simp [toInput, afterSave, callLeft, callOf, Notice.next, notice]
    | left =>
        simp [toInput, afterSave, callLeft, callOf, Notice.next, toReturn, enter, accessesLeft, notice]
        omega
  case h_4 here =>
    cases stepped
    refine ⟨{ found with phase := .reading }, rfl, ?_⟩
    simp [toInput, callLeft, callOf, here]
  case h_5 here => simp [callOf, here] at outside
  case h_6 here =>
    cases stepped
    refine ⟨{ found with phase := .ended }, rfl, ?_⟩
    simp [toInput, callLeft, callOf, here]
  case h_7 => cases stepped

theorem returned_lowers {call : Call} (calls : callOf session found = some call) :
    toInput (returned session found).phase + callLeft session (returned session found) none + 1 ≤
      toInput found.phase + 1 := by
  unfold callOf at calls
  unfold returned
  split at calls
  case h_1 here =>
    simp [here, toInput, callLeft, callOf, toReturn, enter, accessesLeft, afterSave]
    omega
  case h_2 notice here => simp [here, toInput, callLeft, callOf, Session.message]
  case h_3 here => simp [here, toInput, callLeft, callOf]
  case h_4 => cases calls

theorem moved_unique {sessions after : Nat → Option Session} {moved other : Session}
    (first : after = Function.update sessions session (some moved))
    (second : after = Function.update sessions session (some other)) : moved = other := by
  have both := congrFun (first.symm.trans second) session
  rw [Function.update_self, Function.update_self] at both
  exact Option.some.inj both

theorem outside_pays {action : TlsServer.Action} {after : TlsServer.State}
    (simulates : Simulates state coarse) (outside : state.callOf action.session = none)
    (stepped : TlsServer.step state.view action = some after) :
    work (state.put after) session + (if internalOf session (.outside action) = true then 1 else 0) ≤
      work state session +
        (if inputOf session (.outside action) = true then 3 * maxClients + 13 else 0) := by
  obtain ⟨moved, sessions, _⟩ := effect_sessions (TlsServer.step_effect stepped)
  by_cases own : action.session = session
  · subst own
    have idle : (state.put after).mutex.phases action.session = none := simulates.idle outside
    have now : (state.put after).sessions action.session = some moved := by
      change after.sessions action.session = some moved
      rw [sessions, Function.update_self]
    rw [work_some now idle]
    have bound := work_bound action.session moved
    cases action with
    | proceed session =>
        obtain ⟨found, lookup, proceeded⟩ := TlsServer.proceed_cases stepped
        have free : callOf session found = none := by
          rw [← call_of_some lookup]
          exact outside
        obtain ⟨other, otherSessions, lowers⟩ := proceed_lowers free proceeded
        have same : moved = other := moved_unique sessions otherSessions
        subst same
        have known : state.sessions session = some found := lookup
        have before : work state session = toInput found.phase + callLeft session found none :=
          work_some known (simulates.idle outside)
        simp [internalOf, inputOf, TlsServer.Action.session, before]
        omega
    | _ => simp [internalOf, inputOf] at bound ⊢; omega
  · have sameSession : (state.put after).sessions session = state.sessions session := by
      change after.sessions session = state.sessions session
      rw [sessions, Function.update_of_ne (Ne.symm own)]
      rfl
    have same : work (state.put after) session = work state session := work_congr sameSession rfl
    have noStep : internalOf session (.outside action) = false := by
      cases action with
      | proceed other => simpa [internalOf, TlsServer.Action.session] using own
      | _ => rfl
    simp [same, noStep]

theorem mutex_pays {actor : Nat}
    {before after : Option (Phase Call Local Result)}
    (lookup : state.sessions actor = some found) (here : state.mutex.phases actor = before)
    (sessions : next.sessions = state.sessions)
    (phases : next.mutex.phases = Function.update state.mutex.phases actor after)
    (lowers : callLeft actor found after + 1 ≤ callLeft actor found before) :
    work next session + (if (actor == session) = true then 1 else 0) ≤ work state session := by
  by_cases own : actor = session
  · subst own
    have now : next.mutex.phases actor = after := by
      rw [phases, Function.update_self]
    rw [work_some (sessions ▸ lookup) now, work_some lookup here]
    simp only [beq_self_eq_true, if_true]
    omega
  · have same : work next session = work state session := by
      apply work_congr (congrFun sessions session)
      rw [phases, Function.update_of_ne (Ne.symm own)]
    simp [same, own]

theorem unlock_pays {actor : Nat} {call : Call} {result : Result}
    (lookup : state.sessions actor = some found)
    (leaves : state.mutex.phases actor = some (.leaving call result))
    (calls : callOf actor found = some call)
    (sessions : next.sessions =
      Function.update state.sessions actor (some (returned actor found)))
    (phases : next.mutex.phases = Function.update state.mutex.phases actor none) :
    work next session + (if (actor == session) = true then 1 else 0) ≤ work state session := by
  by_cases own : actor = session
  · subst own
    have now : next.sessions actor = some (returned actor found) := by
      rw [sessions, Function.update_self]
    have idle : next.mutex.phases actor = none := by
      rw [phases, Function.update_self]
    have lowers := returned_lowers calls
    rw [work_some now idle, work_some lookup leaves]
    simp only [beq_self_eq_true, if_true, callLeft, toReturn] at lowers ⊢
    exact lowers
  · have same : work next session = work state session := by
      apply work_congr
      · rw [sessions, Function.update_of_ne (Ne.symm own)]
      · rw [phases, Function.update_of_ne (Ne.symm own)]
    simp [same, own]

theorem step_pays {action : TlsThreads.Action} (simulates : Simulates state coarse)
    (size : state.mutex.shared.clients.length = maxClients)
    (stepped : TlsThreads.step state action = some next) :
    work next session + (if internalOf session action = true then 1 else 0) ≤
      work state session + (if inputOf session action = true then 3 * maxClients + 13 else 0) := by
  cases TlsThreads.step_effect stepped with
  | outside action chat outside chatStep => exact outside_pays simulates outside chatStep
  | call actor found call lookup calls idle =>
      refine mutex_pays lookup idle rfl rfl ?_
      rw [callLeft, callLeft, calls]
  | lock actor call waits isFree =>
      obtain ⟨found, lookup, _⟩ := Option.bind_eq_some_iff.mp (simulates.calling actor _ waits)
      exact mutex_pays lookup waits rfl rfl (Nat.le_refl _)
  | goOn actor call here moved shared inside accessed =>
      obtain ⟨found, lookup, _⟩ := Option.bind_eq_some_iff.mp (simulates.calling actor _ inside)
      refine mutex_pays lookup inside rfl rfl ?_
      have lowers := access_lowers size accessed
      simp only [callLeft, toReturn]
      omega
  | finish actor call here result shared inside accessed =>
      obtain ⟨found, lookup, _⟩ := Option.bind_eq_some_iff.mp (simulates.calling actor _ inside)
      refine mutex_pays lookup inside rfl rfl ?_
      have left := accesses_left_pos here
      simp only [callLeft, toReturn]
      omega
  | unlock actor found call result lookup leaves =>
      have calls := simulates.calling actor _ leaves
      rw [call_of_some lookup] at calls
      exact unlock_pays lookup leaves calls rfl rfl

theorem size_step {action : TlsThreads.Action}
    (size : state.mutex.shared.clients.length = maxClients)
    (stepped : TlsThreads.step state action = some next) :
    next.mutex.shared.clients.length = maxClients := by
  cases TlsThreads.step_effect stepped with
  | goOn actor call here moved shared inside accessed => exact (access_length accessed).trans size
  | finish actor call here result shared inside accessed => exact (access_length accessed).trans size
  | _ => exact size

/-- A thread that has called is served, or another one can go on. -/
theorem caller_goes_on (simulates : Simulates state coarse) {phase : Phase Call Local Result}
    (called : state.mutex.phases session = some phase) :
    ∃ actor action next, internalOf actor action = true ∧
      TlsThreads.step state action = some next := by
  obtain ⟨action, mutex, notCall, stepped⟩ := simulates.serialised.progress called
  cases action with
  | call actor call => exact absurd rfl (notCall actor call)
  | lock actor =>
      refine ⟨actor, .lock actor, { state with mutex }, by simp [internalOf], ?_⟩
      simp [TlsThreads.step, stepped]
  | access actor =>
      refine ⟨actor, .access actor, state.wrote mutex, by simp [internalOf], ?_⟩
      simp [TlsThreads.step, stepped]
  | unlock actor =>
      have leaving : ∃ call result, state.mutex.phases actor = some (.leaving call result) := by
        cases Serialization.step_effect stepped with
        | unlock _ call result leaves => exact ⟨call, result, leaves⟩
      obtain ⟨call, result, leaves⟩ := leaving
      obtain ⟨found, lookup, _⟩ := Option.bind_eq_some_iff.mp (simulates.calling actor _ leaves)
      refine ⟨actor, .unlock actor, state.back actor found mutex, by simp [internalOf], ?_⟩
      simp [TlsThreads.step, lookup, stepped]

/-- A thread that is not at its client can go on, or another one can. -/
theorem busy_goes_on (simulates : Simulates state coarse)
    (lookup : state.sessions session = some found) (busy : ¬Resting found.phase) :
    ∃ actor action next, internalOf actor action = true ∧
      TlsThreads.step state action = some next := by
  cases here : state.mutex.phases session with
  | some phase => exact caller_goes_on simulates here
  | none =>
      cases calls : state.callOf session with
      | some call =>
          refine ⟨session, .call session,
            { state with mutex := state.mutex.move session (some (.waiting call)) },
            by simp [internalOf], ?_⟩
          simp [TlsThreads.step, calls, Serialization.step, here]
      | none =>
          have free : callOf session found = none := by
            rw [← call_of_some lookup]
            exact calls
          have goes : ∃ after, TlsServer.proceed state.view session found = some after := by
            unfold TlsServer.proceed
            unfold callOf at free
            cases at_phase : found.phase <;> simp_all [Resting]
          obtain ⟨after, proceeded⟩ := goes
          refine ⟨session, .outside (.proceed session), state.put after, by simp [internalOf], ?_⟩
          have known : state.view.sessions session = some found := lookup
          simp [TlsThreads.step, TlsServer.Action.session, calls, TlsServer.step, known, proceeded]

end Work

theorem settling_run {actions : List TlsServer.Action} {chat : TlsServer.State}
    (ran : run TlsServer.step TlsServer.initial actions = some chat) : Settling chat := by
  have start : Recorded TlsServer.initial ∧ Settling TlsServer.initial :=
    ⟨recorded_initial, settling_initial⟩
  have kept : ∀ state action next, Recorded state ∧ Settling state →
      TlsServer.step state action = some next → Recorded next ∧ Settling next :=
    fun _ _ _ holds stepped =>
      ⟨recorded_step holds.1 stepped, (step_sound holds.1 holds.2 stepped).1⟩
  exact (run_keeps_always kept start ran).2

theorem resting_outside {session : Nat} {found : Session} (resting : Resting found.phase) :
    callOf session found = none := by
  unfold callOf
  cases here : found.phase <;> simp_all [Resting]

theorem resting_free {state : TlsThreads.State} {coarse : TlsServer.State}
    (simulates : Simulates state coarse)
    (resting : ∀ session found, state.sessions session = some found → Resting found.phase) :
    state.mutex.owner = none := by
  cases owner : state.mutex.owner with
  | none => rfl
  | some holder =>
      obtain ⟨phase, held⟩ := simulates.serialised.held holder owner
      obtain ⟨found, lookup, calls⟩ :=
        Option.bind_eq_some_iff.mp (simulates.calling holder phase held)
      rw [resting_outside (resting holder found lookup)] at calls
      cases calls

theorem resting_logged {state : TlsThreads.State} {coarse : TlsServer.State}
    (simulates : Simulates state coarse) (settling : Settling coarse)
    (resting : ∀ session found, state.sessions session = some found → Resting found.phase)
    {reader : Nat} {message : Message} (heard : message ∈ state.live reader) :
    message ∈ state.chatlog := by
  obtain ⟨members, registered⟩ := simulates.registered
  have ordered :=
    BroadcastOrder.ordered_of_registered simulates.recorded registered simulates.numbered
  rw [(simulates.between_sections (resting_free simulates resting)).2] at heard
  have said := BroadcastOrder.mem_broadcasts.mp ((ordered.heard reader).subset heard)
  have chatlog : state.chatlog = coarse.chatlog := simulates.agree.chatlog
  have sessions : state.sessions = coarse.sessions := simulates.agree.sessions
  rcases settling message said with logged | ⟨found, lookup, saving⟩
  · exact chatlog ▸ logged
  · have rests := resting message.author found (sessions ▸ lookup)
    rw [saving] at rests
    exact absurd rests id

/-- However the threads are scheduled, a thread takes at most 313 steps for each input it gets,
and unless every thread is back at its client some thread can go on. When all are, the mutex is
free and everything that anybody has been sent is in the log. -/
theorem inputs_are_worked_off (actions : List TlsThreads.Action) (state : TlsThreads.State)
    (ran : run TlsThreads.step TlsThreads.initial actions = some state) :
    (∀ session, actions.countP (internalOf session) ≤
      (3 * maxClients + 13) * actions.countP (inputOf session)) ∧
      ((∃ session action next, internalOf session action = true ∧
          TlsThreads.step state action = some next) ∨
        (∀ session found, state.sessions session = some found → Resting found.phase) ∧
          state.mutex.owner = none ∧
          ∀ reader message, message ∈ state.live reader → message ∈ state.chatlog) := by
  constructor
  · intro session
    have start : (∃ coarse, Simulates TlsThreads.initial coarse) ∧
        TlsThreads.initial.mutex.shared.clients.length = maxClients :=
      ⟨⟨_, simulates_initial⟩, List.length_replicate⟩
    have kept : ∀ state action next, ((∃ coarse, Simulates state coarse) ∧
        state.mutex.shared.clients.length = maxClients) →
        TlsThreads.step state action = some next →
        (∃ coarse, Simulates next coarse) ∧ next.mutex.shared.clients.length = maxClients := by
      rintro state action next ⟨⟨coarse, simulates⟩, size⟩ stepped
      obtain ⟨after, _, still⟩ := simulates_step simulates stepped
      exact ⟨⟨after, still⟩, size_step size stepped⟩
    have counted := @run_count_le_fed _ _ _ _ (fun state => work state session)
      (internalOf session) (inputOf session) (3 * maxClients + 13) kept
      (fun _ _ _ holds stepped => step_pays holds.1.choose_spec holds.2 stepped) _ _ _ start ran
    have none : work TlsThreads.initial session = 0 := rfl
    omega
  · obtain ⟨chatActions, chat, chatRan, simulates⟩ := simulated_run ran
    by_cases resting : ∀ session found, state.sessions session = some found → Resting found.phase
    · exact Or.inr ⟨resting, resting_free simulates resting, fun _ _ heard =>
        resting_logged simulates (settling_run chatRan) resting heard⟩
    · push Not at resting
      obtain ⟨session, found, lookup, busy⟩ := resting
      exact Or.inl (busy_goes_on simulates lookup busy)

/-- The thread that is in the middle of its broadcast has had three inputs. -/
theorem inputs_are_worked_off_mid_broadcast :
    ∃ state, run TlsThreads.step TlsThreads.initial midBroadcast = some state ∧
      midBroadcast.countP (internalOf 0) = 11 ∧ midBroadcast.countP (inputOf 0) = 3 ∧
      midBroadcast.countP (internalOf 0) ≤
        (3 * maxClients + 13) * midBroadcast.countP (inputOf 0) := by
  have ran : (run TlsThreads.step TlsThreads.initial midBroadcast).isSome = true := by
    decide +kernel
  obtain ⟨state, ran⟩ := Option.isSome_iff_exists.mp ran
  exact ⟨state, ran, by decide, by decide, (inputs_are_worked_off midBroadcast state ran).1 0⟩

end LinuxFff.TlsProgress
