import LinuxFff.BroadcastOrder
import LinuxFff.ClientsMutex

/-!
# The threads of `server_tls_final.c` access by access

Between the critical sections the threads go on as in the chat model; inside them every
access to `clients[]` and every `SSL_write` is a step of its own. `SSL_free` runs without
the mutex, so other threads free their objects and `main` gets new ones from `SSL_new`
while a broadcast is under way. All the same the server is the chat model, in which a
critical section is one step.
-/

namespace LinuxFff.TlsThreads

open LinuxFff.BroadcastOrder LinuxFff.ClientTables LinuxFff.ClientsMutex LinuxFff.EventOrder
open LinuxFff.Ownership
open LinuxFff.Roster LinuxFff.Serialization LinuxFff.StepSystem
open LinuxFff.TlsDelivery LinuxFff.TlsHistory
open LinuxFff.TlsServer (Event Message Notice Session)

set_option autoImplicit false

/-- The table is that of the mutex; the rest is the state of the chat model. -/
structure State where
  sessions : Nat → Option Session
  accepting : Option Nat
  heap : Ssl → Option Nat
  mutex : Serialization.State Call Local Shared Result
  live : Nat → List Message
  stray : List Ssl
  chatlog : List Message
  replayed : Nat → List Message

def emptyTable : Shared := ⟨emptyClients, []⟩

def initial : State where
  sessions := fun _ => none
  accepting := none
  heap := fun _ => none
  mutex := begin emptyTable
  live := fun _ => []
  stray := []
  chatlog := []
  replayed := fun _ => []

/-- The server as the chat model has it, with the table as it is at the moment. -/
def State.view (state : State) : TlsServer.State where
  sessions := state.sessions
  accepting := state.accepting
  heap := state.heap
  clients := state.mutex.shared.clients
  live := state.live
  stray := state.stray
  chatlog := state.chatlog
  replayed := state.replayed
  history := []

def State.put (state : State) (next : TlsServer.State) : State :=
  { state with
    sessions := next.sessions
    accepting := next.accepting
    heap := next.heap
    chatlog := next.chatlog
    replayed := next.replayed }

def callOf (session : Nat) (found : Session) : Option Call :=
  match found.phase with
  | .adding => some (.addClient found.ssl found.username)
  | .broadcasting notice => some (.broadcast (found.message session notice))
  | .removing => some (.removeClient found.ssl)
  | _ => none

def returned (session : Nat) (found : Session) : Session :=
  match found.phase with
  | .adding => { found with phase := .broadcasting .joined }
  | .broadcasting notice =>
      { found with phase := .saving (found.message session notice), sent := found.sent + 1 }
  | .removing => { found with phase := .freeing }
  | _ => found

def State.callOf (state : State) (session : Nat) : Option Call :=
  (state.sessions session).bind (TlsThreads.callOf session)

/-- Writes to objects reach the sessions that own them. -/
def deliver (heap : Ssl → Option Nat) (live : Nat → List Message) (writes : List (Ssl × Message)) :
    Nat → List Message :=
  writes.foldl (fun live target => write heap target.2 live target.1) live

inductive Action where
  | outside (action : TlsServer.Action)
  | call (session : Nat)
  | lock (session : Nat)
  | access (session : Nat)
  | unlock (session : Nat)

/-- After an access; `writes` is what it has written. -/
def State.wrote (state : State) (mutex : Serialization.State Call Local Shared Result) : State :=
  let writes := mutex.shared.written.drop state.mutex.shared.written.length
  { state with
    mutex
    live := deliver state.heap state.live writes
    stray := state.stray ++ (writes.map Prod.fst).filter fun ssl => state.heap ssl = none }

/-- After the return of a call. -/
def State.back (state : State) (session : Nat) (found : Session)
    (mutex : Serialization.State Call Local Shared Result) : State :=
  { state with
    mutex
    sessions := Function.update state.sessions session (some (returned session found)) }

def step (state : State) : Action → Option State
  | .outside action =>
      if state.callOf action.session = none then (TlsServer.step state.view action).map state.put
      else none
  | .call session =>
      match state.callOf session with
      | none => none
      | some call =>
          (Serialization.step code state.mutex (.call session call)).map fun mutex =>
            { state with mutex }
  | .lock session =>
      (Serialization.step code state.mutex (.lock session)).map fun mutex => { state with mutex }
  | .access session => (Serialization.step code state.mutex (.access session)).map state.wrote
  | .unlock session =>
      match state.sessions session with
      | none => none
      | some found =>
          (Serialization.step code state.mutex (.unlock session)).map (state.back session found)

inductive Effect (state : State) : Action → State → Prop where
  | outside (action : TlsServer.Action) (chat : TlsServer.State)
      (free : state.callOf action.session = none)
      (stepped : TlsServer.step state.view action = some chat) :
      Effect state (.outside action) (state.put chat)
  | call (session : Nat) (found : Session) (call : Call)
      (lookup : state.sessions session = some found) (calls : callOf session found = some call)
      (idle : state.mutex.phases session = none) :
      Effect state (.call session)
        { state with mutex := state.mutex.move session (some (.waiting call)) }
  | lock (session : Nat) (call : Call) (waits : state.mutex.phases session = some (.waiting call))
      (isFree : state.mutex.owner = none) :
      Effect state (.lock session)
        { state with
          mutex := { state.mutex.move session (some (.inside call (enter call))) with
            owner := some session } }
  | goOn (session : Nat) (call : Call) (here moved : Local) (shared : Shared)
      (inside : state.mutex.phases session = some (.inside call here))
      (accessed : access here state.mutex.shared = (shared, .inl moved)) :
      Effect state (.access session)
        (state.wrote { state.mutex.move session (some (.inside call moved)) with shared })
  | finish (session : Nat) (call : Call) (here : Local) (result : Result) (shared : Shared)
      (inside : state.mutex.phases session = some (.inside call here))
      (accessed : access here state.mutex.shared = (shared, .inr result)) :
      Effect state (.access session)
        (state.wrote { state.mutex.move session (some (.leaving call result)) with shared })
  | unlock (session : Nat) (found : Session) (call : Call) (result : Result)
      (lookup : state.sessions session = some found)
      (leaves : state.mutex.phases session = some (.leaving call result)) :
      Effect state (.unlock session)
        (state.back session found { state.mutex.move session none with
          owner := none
          served := state.mutex.served ++ [⟨session, call, result⟩] })

theorem step_effect {state next : State} {action : Action}
    (stepped : step state action = some next) : Effect state action next := by
  cases action with
  | outside action =>
      simp only [step, Option.ite_none_right_eq_some, Option.map_eq_some_iff] at stepped
      obtain ⟨outside, chat, chatStep, rfl⟩ := stepped
      exact Effect.outside action chat outside chatStep
  | call session =>
      simp only [step] at stepped
      split at stepped
      case h_1 => cases stepped
      case h_2 call calls =>
        obtain ⟨mutex, mutexStep, rfl⟩ := Option.map_eq_some_iff.mp stepped
        obtain ⟨found, lookup, callsFound⟩ := Option.bind_eq_some_iff.mp calls
        cases Serialization.step_effect mutexStep with
        | call _ _ idle => exact Effect.call session found call lookup callsFound idle
  | lock session =>
      obtain ⟨mutex, mutexStep, rfl⟩ := Option.map_eq_some_iff.mp stepped
      cases Serialization.step_effect mutexStep with
      | lock _ call waits isFree => exact Effect.lock session call waits isFree
  | access session =>
      obtain ⟨mutex, mutexStep, rfl⟩ := Option.map_eq_some_iff.mp stepped
      cases Serialization.step_effect mutexStep with
      | goOn _ call here moved shared inside accessed =>
          exact Effect.goOn session call here moved shared inside accessed
      | finish _ call here result shared inside accessed =>
          exact Effect.finish session call here result shared inside accessed
  | unlock session =>
      simp only [step] at stepped
      split at stepped
      case h_1 => cases stepped
      case h_2 found lookup =>
        obtain ⟨mutex, mutexStep, rfl⟩ := Option.map_eq_some_iff.mp stepped
        cases Serialization.step_effect mutexStep with
        | unlock _ call result leaves =>
            exact Effect.unlock session found call result lookup leaves

section Deliver

variable {heap other : Ssl → Option Nat} {live : Nat → List Message}
  {earlier later : List (Ssl × Message)}

theorem deliver_append :
    deliver heap live (earlier ++ later) = deliver heap (deliver heap live earlier) later :=
  List.foldl_append

theorem deliver_message (message : Message) (targets : List Ssl) :
    deliver heap live (targets.map fun ssl => (ssl, message)) =
      writeAll heap message live targets :=
  List.foldl_map

theorem deliver_congr {writes : List (Ssl × Message)}
    (same : ∀ target ∈ writes, other target.1 = heap target.1) :
    deliver other live writes = deliver heap live writes := by
  unfold deliver
  apply List.foldl_ext
  intro live target member
  unfold write
  rw [same target member]

end Deliver

/-- What the steps outside the critical sections read and write. -/
structure Agree (left right : TlsServer.State) : Prop where
  sessions : left.sessions = right.sessions
  accepting : left.accepting = right.accepting
  heap : left.heap = right.heap
  chatlog : left.chatlog = right.chatlog
  replayed : left.replayed = right.replayed

/-- What they leave alone. -/
structure Frame (before after : TlsServer.State) : Prop where
  clients : after.clients = before.clients
  live : after.live = before.live
  broadcasts : broadcasts after.history = broadcasts before.history

section Outside

variable {left right next : TlsServer.State} {session : Nat} {found : Session}

/-- One state in the frame of another. -/
def framed (left right : TlsServer.State) : TlsServer.State :=
  { left with
    clients := right.clients
    live := right.live
    stray := right.stray
    history := right.history }

theorem Agree.framed (agree : Agree left right) : right = framed left right := by
  rcases right with ⟨_, _, _, clients, live, stray, _, _, history⟩
  rcases agree with ⟨rfl, rfl, rfl, rfl, rfl⟩
  rfl

theorem proceed_outside (outside : callOf session found = none)
    (stepped : TlsServer.proceed left session found = some next) :
    ∃ after, TlsServer.proceed (framed left right) session found = some after ∧ Agree next after ∧
      Frame (framed left right) after := by
  unfold TlsServer.proceed at stepped
  split at stepped
  case h_1 here => simp [callOf, here] at outside
  case h_2 notice here => simp [callOf, here] at outside
  case h_3 message here =>
    cases stepped
    refine ⟨((framed left right).saveChatLog message).move session
      { found with phase := message.notice.next }, ?_, ⟨rfl, rfl, rfl, rfl, rfl⟩,
      ⟨rfl, rfl, broadcasts_silent rfl⟩⟩
    simp [TlsServer.proceed, here]
  case h_4 here =>
    cases stepped
    refine ⟨((framed left right).sendChatLog session).move session { found with phase := .reading },
      ?_, ⟨rfl, rfl, rfl, rfl, rfl⟩, ⟨rfl, rfl, broadcasts_silent rfl⟩⟩
    simp [TlsServer.proceed, here]
  case h_5 here => simp [callOf, here] at outside
  case h_6 here =>
    cases stepped
    refine ⟨((framed left right).sslFree found.ssl).move session { found with phase := .ended },
      ?_, ⟨rfl, rfl, rfl, rfl, rfl⟩, ⟨rfl, rfl, rfl⟩⟩
    simp [TlsServer.proceed, here]
  case h_7 => cases stepped

theorem step_outside {action : TlsServer.Action} (agree : Agree left right)
    (outside : (left.sessions action.session).bind (callOf action.session) = none)
    (stepped : TlsServer.step left action = some next) :
    ∃ after, TlsServer.step right action = some after ∧ Agree next after ∧ Frame right after := by
  rw [agree.framed]
  cases action with
  | accept session ssl =>
      simp only [TlsServer.step, Option.ite_none_right_eq_some, Option.some.injEq] at stepped
      obtain ⟨allowed, same⟩ := stepped
      subst same
      exact ⟨_, if_pos allowed, ⟨rfl, rfl, rfl, rfl, rfl⟩, ⟨rfl, rfl, rfl⟩⟩
  | handshake session success =>
      obtain ⟨found, lookup, here, ⟨rfl, rfl⟩ | ⟨rfl, rfl⟩⟩ := TlsServer.handshake_cases stepped
      · refine ⟨{ (framed left right).move session { found with phase := .authenticating } with
          accepting := none }, ?_, ⟨rfl, rfl, rfl, rfl, rfl⟩, ⟨rfl, rfl, rfl⟩⟩
        simp [TlsServer.step, framed, lookup, here]
      · refine ⟨{ ((framed left right).sslFree found.ssl).move session
          { found with phase := .ended } with accepting := none }, ?_, ⟨rfl, rfl, rfl, rfl, rfl⟩,
          ⟨rfl, rfl, rfl⟩⟩
        simp [TlsServer.step, framed, lookup, here]
  | authenticate session result =>
      obtain ⟨found, lookup, here, ⟨rfl, rfl⟩ | ⟨name, rfl, rfl⟩⟩ :=
        TlsServer.authenticate_cases stepped
      · refine ⟨(framed left right).move session { found with phase := .freeing }, ?_,
          ⟨rfl, rfl, rfl, rfl, rfl⟩, ⟨rfl, rfl, rfl⟩⟩
        simp [TlsServer.step, framed, lookup, here]
      · refine ⟨(framed left right).move session
          { found with username := (CString.cstr name).take 50, phase := .adding }, ?_,
          ⟨rfl, rfl, rfl, rfl, rfl⟩, ⟨rfl, rfl, rfl⟩⟩
        simp [TlsServer.step, framed, lookup, here]
  | receive session record =>
      obtain ⟨found, lookup, here, ⟨rfl, rfl⟩ | ⟨buffer, rfl, rfl⟩⟩ :=
        TlsServer.receive_cases stepped
      · refine ⟨(framed left right).move session { found with phase := .broadcasting .left }, ?_,
          ⟨rfl, rfl, rfl, rfl, rfl⟩, ⟨rfl, rfl, rfl⟩⟩
        simp [TlsServer.step, framed, lookup, here]
      · refine ⟨(framed left right).move session
          { found with phase := .broadcasting (.said buffer) }, ?_, ⟨rfl, rfl, rfl, rfl, rfl⟩,
          ⟨rfl, rfl, rfl⟩⟩
        simp [TlsServer.step, framed, lookup, here]
  | proceed session =>
      obtain ⟨found, lookup, proceeded⟩ := TlsServer.proceed_cases stepped
      have here : callOf session found = none := by
        change (left.sessions session).bind (callOf session) = none at outside
        rw [lookup] at outside
        exact outside
      obtain ⟨after, same, agrees, frame⟩ := @proceed_outside left right _ _ _ here proceeded
      refine ⟨after, ?_, agrees, frame⟩
      rw [← same]
      simp [TlsServer.step, framed, lookup]

end Outside

section Registered

variable {members : List Nat} {coarse after : TlsServer.State}

theorem listed_owner (registered : Registered members coarse) {ssl : Ssl}
    (listed : ssl ∈ activeSsls coarse.clients) :
    ∃ session found, coarse.heap ssl = some session ∧ coarse.sessions session = some found ∧
      found.phase.Active := by
  obtain ⟨session, member, same⟩ :=
    List.mem_map.mp (registered.room.lists.listed.mem_iff.mp listed)
  obtain ⟨found, lookup, active⟩ := registered.room.active session member
  exact ⟨session, found, same ▸ registered.owner member, lookup, active⟩

theorem listed_kept (registered : Registered members coarse) {action : TlsServer.Action}
    (stepped : TlsServer.step coarse action = some after) {ssl : Ssl}
    (listed : ssl ∈ activeSsls coarse.clients) : after.heap ssl = coarse.heap ssl := by
  obtain ⟨session, owner, owned, ownerLookup, active⟩ := listed_owner registered listed
  cases TlsServer.step_effect stepped with
  | accept new unborn nonNull unused =>
      have apart : ssl ≠ new := by
        intro same
        rw [same, unused] at owned
        cases owned
      exact Function.update_of_ne apart _ _
  | quiet found username phase accepting lookup moved named => rfl
  | add found lookup here =>
      obtain ⟨clients, event, _, same⟩ := TlsServer.add_client_cases coarse action.session found
      rw [same]
      rfl
  | broadcast found notice lookup here => rfl
  | save found message lookup here => rfl
  | replay found lookup here => rfl
  | remove found lookup here => rfl
  | free found accepting lookup here =>
      have alive : Session.Alive found := by
        rcases here with here | here <;> simp [here, Session.Alive]
      have apart : ssl ≠ found.ssl := by
        intro same
        rw [same, registered.owns.held _ found lookup alive] at owned
        cases owned
        rw [lookup] at ownerLookup
        cases ownerLookup
        rcases here with here | here <;>
          simp [here, TlsServer.Phase.Active, TlsServer.Phase.rank] at active
      exact Function.update_of_ne apart _ _

end Registered

theorem access_writes {before shared after : Shared} {call : Call} {here : Local}
    {outcome : Local ⊕ Result} (progress : Progress before call here shared)
    (accessed : access here shared = (after, outcome)) :
    ∃ writes, after.written = shared.written ++ writes ∧
      ∀ target ∈ writes, target.1 ∈ activeSsls before.clients := by
  cases access_touched accessed with
  | nothing => exact ⟨[], (List.append_nil _).symm, by simp⟩
  | stored i change => exact ⟨[], (List.append_nil _).symm, by simp⟩
  | wrote message i client at_write lookup =>
      subst at_write
      cases progress with
      | writing _ _ found here active other =>
          have same : found = client := Option.some.inj (here.symm.trans lookup)
          refine ⟨[(client.ssl, message)], rfl, ?_⟩
          intro target member
          rw [List.mem_singleton.mp member, ← same]
          have taken : found ∈ before.clients.filter Client.active :=
            List.mem_filter.mpr ⟨List.mem_of_getElem? here, active⟩
          exact List.mem_map_of_mem taken

/-- The chat model is at the last unlock: what has been written since then is `writes`. -/
structure Pending (state : State) (coarse : TlsServer.State) (earlier writes : List (Ssl × Message)) :
    Prop where
  served : Replays effect emptyTable state.mutex.served ⟨coarse.clients, earlier⟩
  written : state.mutex.shared.written = earlier ++ writes
  live : state.live = deliver coarse.heap coarse.live writes
  listed : ∀ target ∈ writes, target.1 ∈ activeSsls coarse.clients

structure Simulates (state : State) (coarse : TlsServer.State) : Prop where
  serialised : Serialised code effect emptyTable state.mutex
  recorded : Recorded coarse
  numbered : Numbered (broadcasts coarse.history) (sentBy coarse.sessions)
  registered : ∃ members, Registered members coarse
  agree : Agree state.view coarse
  calling : ∀ session phase, state.mutex.phases session = some phase →
    state.callOf session = some phase.call
  stray : state.stray = []
  pending : ∃ earlier writes, Pending state coarse earlier writes

theorem simulates_initial : Simulates initial TlsServer.initial where
  serialised := serialised_begin
  recorded := recorded_initial
  numbered := numbered_initial
  registered := ⟨[], registered_initial⟩
  agree := ⟨rfl, rfl, rfl, rfl, rfl⟩
  calling := by
    intro session phase impossible
    cases impossible
  stray := rfl
  pending := by
    refine ⟨[], [], rfl, rfl, rfl, ?_⟩
    intro target member
    cases member

section Simulation

variable {state : State} {coarse after : TlsServer.State} {session : Nat} {found : Session}
  {mutex : Serialization.State Call Local Shared Result} {earlier writes : List (Ssl × Message)}

theorem call_of_some (lookup : state.sessions session = some found) :
    state.callOf session = callOf session found := by
  rw [State.callOf, lookup]
  rfl

theorem Simulates.idle (simulates : Simulates state coarse) (outside : state.callOf session = none) :
    state.mutex.phases session = none := by
  cases lookup : state.mutex.phases session with
  | none => rfl
  | some phase =>
      have calling := simulates.calling session phase lookup
      rw [outside] at calling
      cases calling

theorem Simulates.outside {action : TlsServer.Action} {next : TlsServer.State}
    (simulates : Simulates state coarse) (outside : state.callOf action.session = none)
    (stepped : TlsServer.step state.view action = some next) :
    ∃ after, Matched TlsServer.step coarse after ∧ Simulates (state.put next) after := by
  obtain ⟨after, coarseStepped, agree, frame⟩ := step_outside simulates.agree outside stepped
  obtain ⟨members, registered⟩ := simulates.registered
  obtain ⟨earlier, writes, pending⟩ := simulates.pending
  obtain ⟨moved, sessions, _⟩ := effect_sessions (TlsServer.step_effect stepped)
  refine ⟨after, Or.inr ⟨action, coarseStepped⟩, ?_⟩
  constructor
  case serialised => exact simulates.serialised
  case recorded => exact recorded_step simulates.recorded coarseStepped
  case numbered => exact numbered_step simulates.numbered coarseStepped
  case registered => exact registered_step simulates.recorded registered coarseStepped
  case agree => exact ⟨agree.sessions, agree.accepting, agree.heap, agree.chatlog, agree.replayed⟩
  case calling =>
    intro other phase lookup
    have apart : other ≠ action.session := by
      intro same
      rw [same] at lookup
      have idle := simulates.idle outside
      exact absurd (idle.symm.trans lookup) (by simp)
    have same : (state.put next).callOf other = state.callOf other := by
      change (next.sessions other).bind _ = _
      rw [sessions, Function.update_of_ne apart]
      rfl
    rw [same]
    exact simulates.calling other phase lookup
  case stray => exact simulates.stray
  case pending =>
    refine ⟨earlier, writes, ?_, pending.written, ?_, ?_⟩
    · rw [frame.clients]
      exact pending.served
    · change state.live = deliver after.heap after.live writes
      rw [frame.live, pending.live]
      exact (deliver_congr fun target member =>
        listed_kept registered coarseStepped (pending.listed target member)).symm
    · rw [frame.clients]
      exact pending.listed

theorem Simulates.calling_move (simulates : Simulates state coarse)
    {phase : Phase Call Local Result} (call : state.callOf session = some phase.call) :
    ∀ other found, (state.mutex.move session (some phase)).phases other = some found →
      state.callOf other = some found.call := by
  intro other found lookup
  rcases moved_cases lookup with ⟨same, now⟩ | ⟨_, before⟩
  · cases now
    rw [same]
    exact call
  · exact simulates.calling other found before

theorem Simulates.stays (simulates : Simulates state coarse)
    (serialised : Serialised code effect emptyTable mutex)
    (served : mutex.served = state.mutex.served)
    (written : mutex.shared.written = state.mutex.shared.written)
    (calling : ∀ session phase, mutex.phases session = some phase →
      state.callOf session = some phase.call) : Simulates { state with mutex } coarse := by
  obtain ⟨earlier, writes, pending⟩ := simulates.pending
  constructor
  case serialised => exact serialised
  case recorded => exact simulates.recorded
  case numbered => exact simulates.numbered
  case registered => exact simulates.registered
  case agree =>
    exact ⟨simulates.agree.sessions, simulates.agree.accepting, simulates.agree.heap,
      simulates.agree.chatlog, simulates.agree.replayed⟩
  case calling => exact calling
  case stray => exact simulates.stray
  case pending =>
    refine ⟨earlier, writes, ?_, written.trans pending.written, pending.live, pending.listed⟩
    rw [served]
    exact pending.served

theorem Pending.progress (pending : Pending state coarse earlier writes)
    (serialised : Serialised code effect emptyTable state.mutex) {call : Call} {here : Local}
    (inside : state.mutex.phases session = some (.inside call here)) :
    Progress ⟨coarse.clients, earlier⟩ call here state.mutex.shared := by
  obtain ⟨before, replays, reaches⟩ := serialised.accounts session _ inside
  rw [replays.unique pending.served] at reaches
  exact reaches.keeps (progress_enter call _) fun _ _ _ _ => progress_goes_on

/-- An access, with what it writes. -/
theorem Simulates.access (simulates : Simulates state coarse) {call : Call} {here : Local}
    {phase : Phase Call Local Result} {shared : Shared} {outcome : Local ⊕ Result}
    (inside : state.mutex.phases session = some (.inside call here))
    (accessed : code.access here state.mutex.shared = (shared, outcome))
    (serialised : Serialised code effect emptyTable
      { state.mutex.move session (some phase) with shared })
    (same : phase.call = call) :
    Simulates (state.wrote { state.mutex.move session (some phase) with shared }) coarse := by
  obtain ⟨earlier, writes, pending⟩ := simulates.pending
  obtain ⟨members, registered⟩ := simulates.registered
  have heap : state.heap = coarse.heap := simulates.agree.heap
  obtain ⟨new, grown, listed⟩ :=
    access_writes (pending.progress simulates.serialised inside) accessed
  have fresh : shared.written.drop state.mutex.shared.written.length = new := by
    rw [grown, List.drop_left]
  unfold State.wrote
  rw [fresh]
  constructor
  case serialised => exact serialised
  case recorded => exact simulates.recorded
  case numbered => exact simulates.numbered
  case registered => exact simulates.registered
  case agree =>
    exact ⟨simulates.agree.sessions, simulates.agree.accepting, simulates.agree.heap,
      simulates.agree.chatlog, simulates.agree.replayed⟩
  case calling =>
    apply simulates.calling_move
    rw [same]
    exact simulates.calling session _ inside
  case stray =>
    have nowhere : ((new.map Prod.fst).filter fun ssl => state.heap ssl = none) = [] := by
      apply List.filter_eq_nil_iff.mpr
      intro ssl member
      obtain ⟨target, targetMember, rfl⟩ := List.mem_map.mp member
      obtain ⟨owner, _, owned, _⟩ := listed_owner registered (listed target targetMember)
      rw [heap, owned]
      simp
    change state.stray ++ _ = []
    rw [nowhere, simulates.stray]
    rfl
  case pending =>
    refine ⟨earlier, writes ++ new, pending.served, ?_, ?_, ?_⟩
    · change shared.written = _
      rw [grown, pending.written, List.append_assoc]
    · change deliver state.heap state.live new = _
      rw [deliver_append, pending.live, heap]
    · intro target member
      rcases List.mem_append.mp member with old | member
      · exact pending.listed target old
      · exact listed target member

/-- The critical section as one step of the chat model. -/
theorem proceed_returns {call : Call} {shared : Shared} {result : Result}
    (lookup : coarse.sessions session = some found) (calls : callOf session found = some call)
    (runs : effect call ⟨coarse.clients, earlier⟩ = (shared, result))
    (written : shared.written = earlier ++ writes) :
    ∃ after, TlsServer.step coarse (.proceed session) = some after ∧
      Agree { coarse with
        sessions := Function.update coarse.sessions session (some (returned session found)) } after ∧
      after.clients = shared.clients ∧ after.live = deliver coarse.heap coarse.live writes := by
  have proceeds : TlsServer.step coarse (.proceed session) =
      TlsServer.proceed coarse session found := by
    simp [TlsServer.step, lookup]
  rw [proceeds]
  unfold callOf at calls
  unfold returned
  split at calls
  case h_1 here =>
    cases calls
    refine ⟨(coarse.addClient session found).move session
      { found with phase := .broadcasting .joined }, by simp [TlsServer.proceed, here], ?_⟩
    have none : writes = [] := by
      simp only [effect] at runs
      split at runs <;> cases runs <;> simpa using written
    rw [none]
    simp only [effect] at runs
    cases added : addClient found.ssl found.username coarse.clients with
    | none =>
        have refused : coarse.addClient session found = coarse.note (.refused session) := by
          rw [TlsServer.State.addClient, added]
        rw [added] at runs
        cases runs
        rw [refused]
        exact ⟨⟨rfl, rfl, rfl, rfl, rfl⟩, rfl, rfl⟩
    | some place =>
        have seated : coarse.addClient session found =
            { coarse.note (.added session) with clients := place.2 } := by
          rw [TlsServer.State.addClient, added]
        rw [added] at runs
        cases runs
        rw [seated]
        exact ⟨⟨rfl, rfl, rfl, rfl, rfl⟩, rfl, rfl⟩
  case h_2 notice here =>
    cases calls
    cases runs
    have sent : writes = (recipients (found.message session notice).sender coarse.clients).map
        fun ssl => (ssl, found.message session notice) :=
      (List.append_cancel_left written).symm
    refine ⟨_, by simp [TlsServer.proceed, here]; rfl, ?_⟩
    refine ⟨⟨rfl, rfl, rfl, rfl, rfl⟩, rfl, ?_⟩
    rw [sent, deliver_message]
    rfl
  case h_3 here =>
    cases calls
    cases runs
    have none : writes = [] := by simpa using written
    refine ⟨(coarse.removeClient session found.ssl).move session { found with phase := .freeing },
      by simp [TlsServer.proceed, here], ?_⟩
    simp only [none]
    exact ⟨⟨rfl, rfl, rfl, rfl, rfl⟩, rfl, rfl⟩
  case h_4 => cases calls

theorem Simulates.unlock (simulates : Simulates state coarse) {call : Call} {result : Result}
    (lookup : state.sessions session = some found)
    (leaves : state.mutex.phases session = some (.leaving call result)) :
    ∃ after, Matched TlsServer.step coarse after ∧
      Simulates (state.back session found { state.mutex.move session none with
        owner := none
        served := state.mutex.served ++ [⟨session, call, result⟩] }) after := by
  obtain ⟨earlier, writes, pending⟩ := simulates.pending
  obtain ⟨members, registered⟩ := simulates.registered
  have agree := simulates.agree
  have calls : callOf session found = some call := by
    rw [← call_of_some lookup]
    exact simulates.calling session _ leaves
  obtain ⟨before, replays, runs⟩ := simulates.serialised.accounts session _ leaves
  rw [replays.unique pending.served] at runs
  have coarseLookup : coarse.sessions session = some found := agree.sessions ▸ lookup
  obtain ⟨after, stepped, agrees, clients, live⟩ :=
    proceed_returns coarseLookup calls runs pending.written
  have sessions : Function.update state.sessions session (some (returned session found)) =
      after.sessions := by
    rw [← agrees.sessions, ← agree.sessions]
    rfl
  refine ⟨after, Or.inr ⟨_, stepped⟩, ?_⟩
  constructor
  case serialised => exact simulates.serialised.unlock leaves
  case recorded => exact recorded_step simulates.recorded stepped
  case numbered => exact numbered_step simulates.numbered stepped
  case registered => exact registered_step simulates.recorded registered stepped
  case agree =>
    exact ⟨sessions, agree.accepting.trans agrees.accepting, agree.heap.trans agrees.heap,
      agree.chatlog.trans agrees.chatlog, agree.replayed.trans agrees.replayed⟩
  case calling =>
    intro other phase lookup
    rcases moved_cases lookup with ⟨_, impossible⟩ | ⟨apart, before⟩
    · cases impossible
    · have calling := simulates.calling other phase before
      change ((Function.update state.sessions session _) other).bind _ = _
      rw [Function.update_of_ne apart]
      exact calling
  case stray => exact simulates.stray
  case pending =>
    refine ⟨state.mutex.shared.written, [], ?_, (List.append_nil _).symm, pending.live.trans live.symm,
      by simp⟩
    rw [clients]
    exact replays_snoc pending.served runs

theorem simulates_step {action : Action} {next : State} (simulates : Simulates state coarse)
    (stepped : step state action = some next) :
    ∃ after, Matched TlsServer.step coarse after ∧ Simulates next after := by
  have serialised := simulates.serialised
  cases step_effect stepped with
  | outside action chat outside chatStep => exact simulates.outside outside chatStep
  | call session found call lookup calls idle =>
      have called : state.callOf session = some call := by
        rw [call_of_some lookup]
        exact calls
      exact ⟨coarse, Or.inl rfl,
        simulates.stays (serialised.call call idle) rfl rfl (simulates.calling_move called)⟩
  | lock session call waits isFree =>
      have calls := simulates.calling session _ waits
      exact ⟨coarse, Or.inl rfl,
        simulates.stays (serialised.lock isFree) rfl rfl (simulates.calling_move calls)⟩
  | goOn session call here moved shared inside accessed =>
      have after := serialised_effect code_implements serialised
        (Serialization.Effect.goOn session call here moved shared inside accessed)
      exact ⟨coarse, Or.inl rfl, simulates.access inside accessed after rfl⟩
  | finish session call here result shared inside accessed =>
      have after := serialised_effect code_implements serialised
        (Serialization.Effect.finish session call here result shared inside accessed)
      exact ⟨coarse, Or.inl rfl, simulates.access inside accessed after rfl⟩
  | unlock session found call result lookup leaves => exact simulates.unlock lookup leaves

theorem Pending.free (pending : Pending state coarse earlier writes)
    (serialised : Serialised code effect emptyTable state.mutex) (isFree : state.mutex.owner = none) :
    state.mutex.shared.clients = coarse.clients ∧ writes = [] := by
  have shared := (serialised.idle isFree).unique pending.served
  have written := pending.written
  rw [shared] at written
  exact ⟨congrArg Shared.clients shared, List.self_eq_append_right.mp written⟩

/-- While nobody is inside, the chat model has the same table and has written the same. -/
theorem Simulates.between_sections (simulates : Simulates state coarse)
    (isFree : state.mutex.owner = none) :
    state.mutex.shared.clients = coarse.clients ∧ state.live = coarse.live := by
  obtain ⟨earlier, writes, pending⟩ := simulates.pending
  obtain ⟨clients, none⟩ := pending.free simulates.serialised isFree
  refine ⟨clients, ?_⟩
  rw [pending.live, none]
  rfl

end Simulation

theorem simulated_run {actions : List Action} {state : State}
    (ran : run step initial actions = some state) :
    ∃ chatActions chat, run TlsServer.step TlsServer.initial chatActions = some chat ∧
      Simulates state chat :=
  run_simulates (fun _ _ _ _ simulates stepped => simulates_step simulates stepped)
    simulates_initial ran

/-- The server whose threads mix access by access is the chat model with its atomic critical
sections: every run is a run of the model, with the same table and the same texts written
whenever nobody holds the mutex, and no `SSL_write` of `broadcast` ever reaches a released
object, although `SSL_free` takes no lock. -/
theorem threads_refine_chat (actions : List Action) (state : State)
    (ran : run step initial actions = some state) :
    state.stray = [] ∧
      ∃ chatActions chat, run TlsServer.step TlsServer.initial chatActions = some chat ∧
        Agree state.view chat ∧
        (state.mutex.owner = none →
          state.mutex.shared.clients = chat.clients ∧ state.live = chat.live) := by
  obtain ⟨chatActions, chat, chatRan, simulates⟩ := simulated_run ran
  exact ⟨simulates.stray, chatActions, chat, chatRan, simulates.agree, simulates.between_sections⟩

/-- One call of a thread that nobody interrupts. -/
def calling (session accesses : Nat) : List Action :=
  [.call session, .lock session] ++ List.replicate accesses (.access session) ++ [.unlock session]

def login (session : Nat) (ssl : Ssl) (username : CString.Bytes) : List Action :=
  [.outside (.accept session ssl), .outside (.handshake session true),
    .outside (.authenticate session (some username))]

/-- Two clients join, and the first broadcasts its join line. -/
def twoClients : List Action :=
  login 0 5 (CString.ascii "al") ++ calling 0 4 ++ login 1 7 (CString.ascii "bo") ++ calling 1 5 ++
    calling 0 103

theorem threads_refine_chat_two_clients :
    ∃ state, ∃ chat : TlsServer.State, run step initial twoClients = some state ∧
      (state.live 1).map Message.text = [CString.ascii "[SERVER]: al joined the chat\n"] ∧
      state.live = chat.live ∧ state.view.clients = chat.clients := by
  have observed : ((run step initial twoClients).map fun state =>
      (state.mutex.owner, (state.live 1).map Message.text)) =
        some (none, [CString.ascii "[SERVER]: al joined the chat\n"]) := by
    decide +kernel
  obtain ⟨state, ran, seen⟩ := Option.map_eq_some_iff.mp observed
  obtain ⟨_, _, chat, _, _, same⟩ := threads_refine_chat twoClients state ran
  obtain ⟨clients, live⟩ := same (congrArg Prod.fst seen)
  exact ⟨state, chat, ran, congrArg Prod.snd seen, live, clients⟩

end LinuxFff.TlsThreads
