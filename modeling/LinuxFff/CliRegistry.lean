import LinuxFff.ClientTables
import LinuxFff.LoggedArray
import LinuxFff.Ownership
import LinuxFff.StepSystem
import Mathlib.Data.List.Nodup

/-!
# The array `clients[]` of `server_tls.c`

`main` writes each new `client_t` to `clients[client_count++]` without a look at the
count, `broadcast` scans the entries, and a thread that ends moves the entries behind its own
one place down. Each of the three runs under `lock` and is one step here. The model keeps
every index that they use; behind the array C leaves open what happens, and
the model goes on as if the memory there were free.

What the threads write to their peers, and when they close and free what they have, is in
`TlsCliServer`, which keeps the part of the array below `client_count` as a list.
-/

namespace LinuxFff.CliRegistry

open LinuxFff.ClientTables LinuxFff.LoggedArray LinuxFff.Ownership LinuxFff.StepSystem

set_option autoImplicit false

/-- `client_t *clients[MAX_CLIENTS]` and `int client_count`. -/
structure Registry where
  clients : Logged Nat
  clientCount : Int

/-- `clients[0..client_count)` -/
def Registry.entries (registry : Registry) : List Nat :=
  window registry.clients.cells 0 registry.clientCount.toNat

/-- `clients[client_count++] = cli` -/
def Registry.register (registry : Registry) (cli : Nat) : Registry where
  clients := registry.clients.write registry.clientCount cli
  clientCount := registry.clientCount + 1

/-- The loop of `broadcast` from `i` on, and the clients that it writes to. A client that is not
the sender is read from the array a second time, for its `ssl`. -/
def broadcastFrom (sender : Nat) (i : Int) : Nat → Logged Nat → Logged Nat × List Nat
  | 0, clients => (clients, [])
  | rounds + 1, clients =>
      let cli := clients.cells i
      if cli ≠ sender then
        let rest := broadcastFrom sender (i + 1) rounds ((clients.read i).read i)
        (rest.1, cli :: rest.2)
      else broadcastFrom sender (i + 1) rounds (clients.read i)

def Registry.broadcast (registry : Registry) (sender : Nat) : Registry × List Nat :=
  let scanned := broadcastFrom sender 0 registry.clientCount.toNat registry.clients
  ({ registry with clients := scanned.1 }, scanned.2)

/-- The removal loop of `handle_client` from `i` on, with the shifting loop inside. -/
def removeFrom (cli : Nat) (i : Int) : Nat → Registry → Registry
  | 0, registry => registry
  | rounds + 1, registry =>
      let seen := registry.clients.read i
      if registry.clients.cells i = cli then
        ⟨seen.shiftLeft i (registry.clientCount - 1 - i).toNat, registry.clientCount - 1⟩
      else removeFrom cli (i + 1) rounds { registry with clients := seen }

def Registry.remove (registry : Registry) (cli : Nat) : Registry :=
  removeFrom cli 0 registry.clientCount.toNat registry

/-- Where `main` or the thread is with a connection. -/
inductive Phase where
  | connecting
  | registering
  | reading
  | broadcasting
  | removing
  | freeing
  | ended
  deriving DecidableEq

structure Session where
  cli : Nat
  phase : Phase
  deriving DecidableEq

inductive Event where
  | registered (session : Nat)
  | removed (session : Nat)
  deriving DecidableEq

def Event.session : Event → Nat
  | .registered session => session
  | .removed session => session

/-- `clis` gives the session that an allocated `client_t` belongs to, `events` lists the
registrations and removals in their order; no step reads that list. -/
structure State where
  sessions : Nat → Option Session
  busy : Option Nat
  clis : Nat → Option Nat
  registry : Registry
  events : List Event

def initial : State where
  sessions := fun _ => none
  busy := none
  clis := fun _ => none
  registry := ⟨⟨fun _ => 0, []⟩, 0⟩
  events := []

inductive Action where
  | accept (session : Nat)
  | refuse (session : Nat)
  | malloc (session cli : Nat)
  | receive (session : Nat) (more : Bool)
  | proceed (session : Nat)
  deriving DecidableEq

def State.move (state : State) (session : Nat) (moved : Session) : State :=
  { state with sessions := Function.update state.sessions session (some moved) }

def State.note (state : State) (event : Event) : State :=
  { state with events := state.events ++ [event] }

/-- The three critical sections, and `free`. -/
def proceed (state : State) (session : Nat) (found : Session) : Option State :=
  match found.phase with
  | .registering => some { (state.note (.registered session)).move session
      { found with phase := .reading } with
        registry := state.registry.register found.cli
        busy := none }
  | .broadcasting => some { state.move session { found with phase := .reading } with
      registry := (state.registry.broadcast found.cli).1 }
  | .removing => some { (state.note (.removed session)).move session
      { found with phase := .freeing } with
        registry := state.registry.remove found.cli }
  | .freeing => some { state.move session { found with phase := .ended } with
      clis := Function.update state.clis found.cli none }
  | _ => none

/-- `main` has one connection at a time until it is registered or `SSL_accept` has failed;
`receive` is an `SSL_read` and says whether there was a record. -/
def step (state : State) : Action → Option State
  | .accept session =>
      if state.sessions session = none ∧ state.busy = none then
        some { state.move session ⟨0, .connecting⟩ with busy := some session }
      else none
  | .refuse session =>
      match state.sessions session with
      | none => none
      | some found =>
          if found.phase = .connecting then
            some { state.move session { found with phase := .ended } with busy := none }
          else none
  | .malloc session cli =>
      match state.sessions session with
      | none => none
      | some found =>
          if found.phase = .connecting ∧ state.clis cli = none then
            some { state.move session ⟨cli, .registering⟩ with
              clis := Function.update state.clis cli (some session) }
          else none
  | .receive session more =>
      match state.sessions session with
      | none => none
      | some found =>
          if found.phase = .reading then
            some (state.move session
              { found with phase := if more then .broadcasting else .removing })
          else none
  | .proceed session =>
      match state.sessions session with
      | none => none
      | some found => proceed state session found

section Loops

theorem broadcast_from_cells (sender : Nat) (i : Int) (rounds : Nat) (clients : Logged Nat) :
    (broadcastFrom sender i rounds clients).1.cells = clients.cells := by
  induction rounds generalizing i clients with
  | zero => rfl
  | succ rounds ih =>
      rw [broadcastFrom]
      split
      · exact ih (i + 1) _
      · exact ih (i + 1) _

theorem broadcast_from_targets (sender : Nat) (i : Int) (rounds : Nat) (clients : Logged Nat) :
    (broadcastFrom sender i rounds clients).2 =
      cliTargets sender (window clients.cells i rounds) := by
  induction rounds generalizing i clients with
  | zero => rfl
  | succ rounds ih =>
      rw [broadcastFrom, window, cliTargets]
      split
      · rename_i other
        rw [List.filter_cons_of_pos (by simpa using other)]
        exact congrArg _ (ih (i + 1) _)
      · rename_i same
        rw [List.filter_cons_of_neg (by simpa using same)]
        exact ih (i + 1) _

theorem broadcast_from_stays (sender : Nat) (i : Int) (rounds : Nat) (clients : Logged Nat) :
    Stays clients (broadcastFrom sender i rounds clients).1 i (i + rounds) := by
  induction rounds generalizing i clients with
  | zero => exact stays_refl _ _ _
  | succ rounds ih =>
      have reading : ∀ array : Logged Nat, Stays array (array.read i) i (i + (rounds + 1 : Nat)) :=
        fun array => stays_of_access (by omega) (by omega) rfl
      have later : ∀ array : Logged Nat,
          Stays array (broadcastFrom sender (i + 1) rounds array).1 i (i + (rounds + 1 : Nat)) :=
        fun array => (ih (i + 1) array).widen (by omega) (by omega)
      rw [broadcastFrom]
      split
      · exact ((reading _).trans (reading _)).trans (later _)
      · exact (reading _).trans (later _)

/-- What the removal loop does from an index on. -/
structure Removes (cli : Nat) (i : Int) (rounds : Nat) (before after : Registry) : Prop where
  rest : ∀ index < i, after.clients.cells index = before.clients.cells index
  count : after.clientCount = i + (removeCli cli (window before.clients.cells i rounds)).length
  entries : window after.clients.cells i
      (removeCli cli (window before.clients.cells i rounds)).length =
    removeCli cli (window before.clients.cells i rounds)
  stays : Stays before.clients after.clients i before.clientCount

theorem remove_from_leaves (cli : Nat) (i : Int) (rounds : Nat) (registry : Registry)
    (upTo : i + rounds = registry.clientCount) :
    Leaves i registry.clientCount (removeCli cli (window registry.clients.cells i rounds))
      registry.clients (removeFrom cli i rounds registry).clients
      (removeFrom cli i rounds registry).clientCount := by
  induction rounds generalizing i registry with
  | zero => exact leaves_nothing (by simpa [removeFrom] using upTo.symm)
  | succ rounds ih =>
      by_cases found : registry.clients.cells i = cli
      · have last : (registry.clientCount - 1 - i).toNat = rounds := by omega
        simp only [removeFrom, found, if_true, last]
        rw [window, removeCli, if_pos found]
        constructor
        case rest =>
          intro index below
          rw [shift_left_cells, if_neg (by omega)]
          rfl
        case count =>
          rw [window_length]
          omega
        case entries =>
          rw [window_length]
          exact window_shift_left (registry.clients.read i) i rounds
        case stays =>
          have reading : Stays registry.clients (registry.clients.read i) i registry.clientCount :=
            stays_of_access (by omega) (by omega) rfl
          exact reading.trans ((shift_left_stays _ _ _).widen (by omega) (by omega))
      · have upToSame : i + 1 + rounds = registry.clientCount := by omega
        have later := ih (i + 1) { registry with clients := registry.clients.read i } upToSame
        have inside : i < registry.clientCount := by omega
        simp only [removeFrom, found, if_false]
        rw [window, removeCli, if_neg found]
        exact later.cons inside

theorem remove_from_removes (cli : Nat) (i : Int) (rounds : Nat) (registry : Registry)
    (upTo : i + rounds = registry.clientCount) :
    Removes cli i rounds registry (removeFrom cli i rounds registry) := by
  have leaves := remove_from_leaves cli i rounds registry upTo
  exact ⟨leaves.rest, leaves.count, leaves.entries, leaves.stays⟩

end Loops

section Operations

variable {registry : Registry}

theorem entries_length (nonneg : 0 ≤ registry.clientCount) :
    (registry.entries.length : Int) = registry.clientCount := by
  rw [Registry.entries, window_length]
  exact Int.toNat_of_nonneg nonneg

theorem register_entries (cli : Nat) (nonneg : 0 ≤ registry.clientCount) :
    (registry.register cli).entries = registry.entries ++ [cli] := by
  have cells : (registry.register cli).clients.cells =
      Function.update registry.clients.cells registry.clientCount cli := rfl
  have grown : (registry.register cli).clientCount = registry.clientCount + 1 := rfl
  have count : (registry.register cli).clientCount.toNat = registry.clientCount.toNat + 1 := by
    omega
  have place : (0 : Int) + (registry.clientCount.toNat : Int) = registry.clientCount := by omega
  have below : window (Function.update registry.clients.cells registry.clientCount cli) 0
      registry.clientCount.toNat = registry.entries := by
    apply window_moved
    intro offset bound
    rw [Function.update_of_ne (by omega)]
  rw [Registry.entries, count, cells, window_snoc, below, place, Function.update_self]

theorem broadcast_entries (cli : Nat) :
    (registry.broadcast cli).1.entries = registry.entries ∧
      (registry.broadcast cli).2 = cliTargets cli registry.entries := by
  constructor
  · rw [Registry.entries, Registry.broadcast, broadcast_from_cells]
    rfl
  · exact broadcast_from_targets cli 0 registry.clientCount.toNat registry.clients

theorem broadcast_stays (cli : Nat) (nonneg : 0 ≤ registry.clientCount) :
    Stays registry.clients (registry.broadcast cli).1.clients 0 registry.clientCount := by
  have scanned := broadcast_from_stays cli 0 registry.clientCount.toNat registry.clients
  exact scanned.widen (Int.le_refl 0) (by omega)

theorem remove_removes (cli : Nat) (nonneg : 0 ≤ registry.clientCount) :
    (registry.remove cli).entries = removeCli cli registry.entries ∧
      (registry.remove cli).clientCount = (removeCli cli registry.entries).length ∧
      Stays registry.clients (registry.remove cli).clients 0 registry.clientCount := by
  have removes := remove_from_removes cli 0 registry.clientCount.toNat registry (by omega)
  have count : (registry.remove cli).clientCount = (removeCli cli registry.entries).length :=
    removes.count.trans (Int.zero_add _)
  have length : (registry.remove cli).clientCount.toNat =
      (removeCli cli registry.entries).length := by omega
  refine ⟨?_, count, removes.stays⟩
  rw [Registry.entries, length]
  exact removes.entries

/-- Within its bounds the array is the list that `TlsCliServer` keeps. -/
theorem registry_is_list (cli : Nat) (nonneg : 0 ≤ registry.clientCount)
    (room : registry.clientCount < maxClients) :
    registerCli cli registry.entries = some (registry.register cli).entries ∧
      (registry.remove cli).entries = removeCli cli registry.entries ∧
      (registry.broadcast cli).2 = cliTargets cli registry.entries := by
  have length := entries_length nonneg
  refine ⟨?_, (remove_removes cli nonneg).1, (broadcast_entries cli).2⟩
  rw [registerCli, if_pos (by omega), register_entries cli nonneg]

end Operations

def present (events : List Event) : List Nat :=
  (events.filterMap fun event => match event with
    | .registered session => some session
    | .removed _ => none).filter fun session => Event.removed session ∉ events

theorem present_registered {events : List Event} {session : Nat}
    (fresh : ∀ event ∈ events, event.session ≠ session) :
    present (events ++ [.registered session]) = present events ++ [session] := by
  have absent : Event.removed session ∉ events := fun member => fresh _ member rfl
  simp [present, List.filterMap_append, List.filter_append, absent]

theorem present_removed {events : List Event} {session : Nat}
    (distinct : (present events).Nodup) :
    present (events ++ [.removed session]) = (present events).erase session := by
  rw [distinct.erase_eq_filter]
  unfold present
  rw [List.filterMap_append, List.filterMap_cons_none rfl, List.filterMap_nil, List.append_nil,
    List.filter_filter]
  apply List.filter_congr
  intro other _
  simp [Bool.and_comm, not_or, bne, Bool.beq_eq_decide_eq]

theorem remove_cli_owned {owner : Nat → Option Nat} {cli session : Nat} {entries members : List Nat}
    (owned : entries.map owner = members.map some)
    (only : ∀ entry, owner entry = some session ↔ entry = cli) :
    (removeCli cli entries).map owner = (members.erase session).map some := by
  induction entries generalizing members with
  | nil =>
      have empty : members = [] := List.map_eq_nil_iff.mp owned.symm
      rw [empty]
      rfl
  | cons entry rest ih =>
      cases members with
      | nil => cases owned
      | cons member members =>
          simp only [List.map_cons, List.cons.injEq] at owned
          by_cases here : entry = cli
          · have same : member = session :=
              Option.some.inj (owned.1.symm.trans ((only entry).mpr here))
            rw [removeCli, if_pos here, same, List.erase_cons_head]
            exact owned.2
          · have apart : member ≠ session := by
              intro same
              exact here ((only entry).mp (same ▸ owned.1))
            rw [removeCli, if_neg here, List.erase_cons_tail (by simpa using apart),
              List.map_cons, List.map_cons, owned.1, ih owned.2]

@[simp]
def Phase.HoldsCli : Phase → Prop
  | .connecting | .ended => False
  | _ => True

@[simp]
def Phase.Listed : Phase → Prop
  | .reading | .broadcasting | .removing => True
  | _ => False

@[simp]
def Phase.Begun : Phase → Prop
  | .connecting | .registering => False
  | _ => True

/-- The moves that touch neither the heap nor the array. -/
inductive Quiet : Option Session → Session → Prop where
  | accepted : Quiet none ⟨0, .connecting⟩
  | refused (cli : Nat) : Quiet (some ⟨cli, .connecting⟩) ⟨cli, .ended⟩
  | heard (cli : Nat) : Quiet (some ⟨cli, .reading⟩) ⟨cli, .broadcasting⟩
  | closed (cli : Nat) : Quiet (some ⟨cli, .reading⟩) ⟨cli, .removing⟩

inductive Effect (state : State) : Action → State → Prop where
  | quiet (action : Action) (session : Nat) (moved : Session) (busy : Option Nat)
      (quiet : Quiet (state.sessions session) moved) :
      Effect state action { state.move session moved with busy }
  | malloc (session cli : Nat) (found : Session) (lookup : state.sessions session = some found)
      (here : found.phase = .connecting) (unused : state.clis cli = none) :
      Effect state (.malloc session cli) { state.move session ⟨cli, .registering⟩ with
        clis := Function.update state.clis cli (some session) }
  | register (session cli : Nat) (lookup : state.sessions session = some ⟨cli, .registering⟩) :
      Effect state (.proceed session) { (state.note (.registered session)).move session
        ⟨cli, .reading⟩ with
          registry := state.registry.register cli
          busy := none }
  | broadcast (session cli : Nat) (lookup : state.sessions session = some ⟨cli, .broadcasting⟩) :
      Effect state (.proceed session) { state.move session ⟨cli, .reading⟩ with
        registry := (state.registry.broadcast cli).1 }
  | remove (session cli : Nat) (lookup : state.sessions session = some ⟨cli, .removing⟩) :
      Effect state (.proceed session) { (state.note (.removed session)).move session
        ⟨cli, .freeing⟩ with
          registry := state.registry.remove cli }
  | free (session cli : Nat) (lookup : state.sessions session = some ⟨cli, .freeing⟩) :
      Effect state (.proceed session) { state.move session ⟨cli, .ended⟩ with
        clis := Function.update state.clis cli none }

theorem proceed_effect {state next : State} {session : Nat} {found : Session}
    (lookup : state.sessions session = some found)
    (stepped : proceed state session found = some next) :
    Effect state (.proceed session) next := by
  obtain ⟨cli, phase⟩ := found
  cases phase with
  | registering =>
      cases stepped
      exact Effect.register session cli lookup
  | broadcasting =>
      cases stepped
      exact Effect.broadcast session cli lookup
  | removing =>
      cases stepped
      exact Effect.remove session cli lookup
  | freeing =>
      cases stepped
      exact Effect.free session cli lookup
  | connecting => cases stepped
  | reading => cases stepped
  | ended => cases stepped

theorem step_effect {state next : State} {action : Action}
    (stepped : step state action = some next) : Effect state action next := by
  cases action with
  | accept session =>
      simp only [step, Option.ite_none_right_eq_some, Option.some.injEq] at stepped
      obtain ⟨⟨unborn, _⟩, same⟩ := stepped
      subst same
      exact Effect.quiet _ session _ _ (unborn ▸ Quiet.accepted)
  | refuse session =>
      simp only [step] at stepped
      split at stepped
      · cases stepped
      · rename_i found lookup
        simp only [Option.ite_none_right_eq_some, Option.some.injEq] at stepped
        obtain ⟨here, same⟩ := stepped
        subst same
        obtain ⟨cli, phase⟩ := found
        cases here
        exact Effect.quiet _ session _ _ (lookup ▸ Quiet.refused cli)
  | malloc session cli =>
      simp only [step] at stepped
      split at stepped
      · cases stepped
      · rename_i found lookup
        simp only [Option.ite_none_right_eq_some, Option.some.injEq] at stepped
        obtain ⟨⟨here, unused⟩, same⟩ := stepped
        subst same
        exact Effect.malloc session cli found lookup here unused
  | receive session more =>
      simp only [step] at stepped
      split at stepped
      · cases stepped
      · rename_i found lookup
        simp only [Option.ite_none_right_eq_some, Option.some.injEq] at stepped
        obtain ⟨here, same⟩ := stepped
        subst same
        obtain ⟨cli, phase⟩ := found
        cases here
        cases more with
        | true => exact Effect.quiet _ session _ state.busy (lookup ▸ Quiet.heard cli)
        | false => exact Effect.quiet _ session _ state.busy (lookup ▸ Quiet.closed cli)
  | proceed session =>
      simp only [step] at stepped
      split at stepped
      · cases stepped
      · rename_i found lookup
        exact proceed_effect lookup stepped

/-- What every run keeps, with or without room in the array. -/
structure Kept (state : State) : Prop where
  owns : Owns state.sessions Session.cli (fun found => found.phase.HoldsCli) state.clis
  accounted : ∀ event ∈ state.events, ∃ found,
    state.sessions event.session = some found ∧ found.phase.Begun
  listed : ∀ session, session ∈ present state.events ↔
    ∃ found, state.sessions session = some found ∧ found.phase.Listed
  distinct : (present state.events).Nodup

theorem kept_initial : Kept initial where
  owns := owns_nothing
  accounted := by
    intro event member
    cases member
  listed := by
    intro session
    simp [present, initial]
  distinct := List.nodup_nil

section Bookkeeping

variable {sessions : Nat → Option Session} {events : List Event} {session : Nat}
  {moved : Session}

theorem accounted_move {later : List Event}
    (accounted : ∀ event ∈ events, ∃ found,
      sessions event.session = some found ∧ found.phase.Begun)
    (grown : ∀ event ∈ later, event ∈ events ∨ event.session = session)
    (begun : (∃ event ∈ later, event.session = session) → moved.phase.Begun) :
    ∀ event ∈ later, ∃ found,
      Function.update sessions session (some moved) event.session = some found ∧
        found.phase.Begun := by
  intro event member
  by_cases same : event.session = session
  · rw [same, Function.update_self]
    exact ⟨moved, rfl, begun ⟨event, member, same⟩⟩
  · rw [Function.update_of_ne same]
    exact accounted event ((grown event member).resolve_right same)

theorem listed_move {later : List Nat}
    (listed : ∀ other, other ∈ present events ↔
      ∃ found, sessions other = some found ∧ found.phase.Listed)
    (others : ∀ other, other ≠ session → (other ∈ later ↔ other ∈ present events))
    (same : session ∈ later ↔ moved.phase.Listed) :
    ∀ other, other ∈ later ↔
      ∃ found, Function.update sessions session (some moved) other = some found ∧
        found.phase.Listed := by
  intro other
  by_cases equal : other = session
  · rw [equal, Function.update_self, same]
    simp
  · rw [Function.update_of_ne equal, others other equal]
    exact listed other

end Bookkeeping

theorem Kept.fresh {state : State} {session cli : Nat} {phase : Phase} (kept : Kept state)
    (lookup : state.sessions session = some ⟨cli, phase⟩) (early : ¬phase.Begun) :
    ∀ event ∈ state.events, event.session ≠ session := by
  intro event member same
  obtain ⟨found, foundLookup, begun⟩ := kept.accounted event member
  rw [same, lookup] at foundLookup
  cases foundLookup
  exact early begun

theorem Kept.listed_iff {state : State} {session cli : Nat} {phase : Phase} (kept : Kept state)
    (lookup : state.sessions session = some ⟨cli, phase⟩) :
    session ∈ present state.events ↔ phase.Listed := by
  rw [kept.listed, lookup]
  simp

theorem Kept.still {state : State} {session : Nat} {moved : Session} {clis : Nat → Option Nat}
    {registry : Registry} {busy : Option Nat} (kept : Kept state)
    (owns : Owns (Function.update state.sessions session (some moved)) Session.cli
      (fun found => found.phase.HoldsCli) clis)
    (begun : (∃ event ∈ state.events, event.session = session) → moved.phase.Begun)
    (same : session ∈ present state.events ↔ moved.phase.Listed) :
    Kept { state.move session moved with clis, registry, busy } where
  owns := owns
  accounted := accounted_move kept.accounted (fun _ member => Or.inl member) begun
  listed := listed_move kept.listed (fun _ _ => Iff.rfl) same
  distinct := kept.distinct

theorem Kept.noted {state : State} {session cli : Nat} {phase later : Phase} {event : Event}
    {registry : Registry} {busy : Option Nat} (kept : Kept state)
    (lookup : state.sessions session = some ⟨cli, phase⟩) (own : event.session = session)
    (holds : later.HoldsCli ↔ phase.HoldsCli) (begun : later.Begun)
    (others : ∀ other, other ≠ session →
      (other ∈ present (state.events ++ [event]) ↔ other ∈ present state.events))
    (same : session ∈ present (state.events ++ [event]) ↔ later.Listed)
    (distinct : (present (state.events ++ [event])).Nodup) :
    Kept { (state.note event).move session ⟨cli, later⟩ with registry, busy } where
  owns := kept.owns.move lookup rfl holds
  accounted := by
    apply accounted_move kept.accounted _ fun _ => begun
    intro other member
    rcases List.mem_append.mp member with old | new
    · exact Or.inl old
    · exact Or.inr (by rw [List.mem_singleton.mp new]; exact own)
  listed := listed_move kept.listed others same
  distinct := distinct

theorem quiet_kept {state : State} {session : Nat} {moved : Session} {busy : Option Nat}
    (kept : Kept state) (quiet : Quiet (state.sessions session) moved) :
    Kept { state.move session moved with busy } := by
  cases lookup : state.sessions session with
  | none =>
      rw [lookup] at quiet
      cases quiet
      have absent : session ∉ present state.events := by
        rw [kept.listed, lookup]
        simp
      apply kept.still
      · apply kept.owns.idle _ (by simp)
        intro found impossible
        rw [lookup] at impossible
        cases impossible
      · intro past
        obtain ⟨event, member, same⟩ := past
        obtain ⟨found, foundLookup, _⟩ := kept.accounted event member
        rw [same, lookup] at foundLookup
        cases foundLookup
      · simp [absent]
  | some found =>
      rw [lookup] at quiet
      obtain ⟨cli, phase⟩ := found
      cases quiet with
      | refused =>
          have absent := kept.listed_iff lookup
          apply kept.still
          · apply kept.owns.idle _ (by simp)
            intro found foundLookup
            rw [lookup] at foundLookup
            cases foundLookup
            simp
          · simp
          · rw [absent]
            simp
      | heard =>
          have inside := kept.listed_iff lookup
          exact kept.still (kept.owns.move lookup rfl (by simp)) (by simp) (by rw [inside]; simp)
      | closed =>
          have inside := kept.listed_iff lookup
          exact kept.still (kept.owns.move lookup rfl (by simp)) (by simp) (by rw [inside]; simp)

theorem kept_step {state next : State} {action : Action} (kept : Kept state)
    (stepped : step state action = some next) : Kept next := by
  cases step_effect stepped with
  | quiet _ session moved busy quiet => exact quiet_kept kept quiet
  | malloc session cli found lookup here unused =>
      obtain ⟨old, phase⟩ := found
      have connecting : phase = .connecting := here
      subst connecting
      have absent := kept.listed_iff lookup
      apply kept.still
      · exact kept.owns.gain lookup (by simp) unused rfl (by simp)
      · intro past
        obtain ⟨event, member, same⟩ := past
        exact absurd same (kept.fresh lookup (by simp) event member)
      · rw [absent]
        simp
  | register session cli lookup =>
      have absent : session ∉ present state.events := by
        rw [kept.listed_iff lookup]
        simp
      have grown := present_registered (kept.fresh lookup (by simp))
      apply kept.noted lookup rfl (by simp) (by simp)
      · intro other apart
        simp [grown, apart]
      · simp [grown]
      · rw [grown]
        exact List.Nodup.append kept.distinct (List.nodup_singleton session) (by simpa using absent)
  | broadcast session cli lookup =>
      have inside := kept.listed_iff lookup
      exact kept.still (kept.owns.move lookup rfl (by simp)) (by simp) (by rw [inside]; simp)
  | remove session cli lookup =>
      have shrunk : present (state.events ++ [.removed session]) =
          (present state.events).erase session := present_removed kept.distinct
      apply kept.noted lookup rfl (by simp) (by simp)
      · intro other apart
        rw [shrunk]
        exact List.mem_erase_of_ne apart
      · simp [shrunk, kept.distinct.mem_erase_iff]
      · rw [shrunk]
        exact kept.distinct.erase session
  | free session cli lookup =>
      have absent := kept.listed_iff lookup
      exact kept.still (kept.owns.release lookup (by simp) (by simp)) (by simp)
        (by rw [absent]; simp)

/-- Every index used lies inside of the array, and the array lists the present
sessions, in order and each once, by the clients that belong to them. -/
structure InOrder (state : State) : Prop where
  bounded : ∀ index ∈ state.registry.clients.accesses, 0 ≤ index ∧ index < maxClients
  count : 0 ≤ state.registry.clientCount ∧ state.registry.clientCount ≤ maxClients
  entries : state.registry.entries.map state.clis = (present state.events).map some
  once : (present state.events).Nodup

def HasRoom (state : State) : Action → Prop
  | .proceed session => ∀ cli, state.sessions session = some ⟨cli, .registering⟩ →
      (present state.events).length < maxClients
  | _ => True

theorem in_order_initial : InOrder initial where
  bounded := by
    intro index member
    cases member
  count := ⟨by decide, by decide⟩
  entries := rfl
  once := List.nodup_nil

section Exactness

variable {state next : State} {action : Action}

theorem InOrder.count_eq (inOrder : InOrder state) :
    state.registry.clientCount = (present state.events).length := by
  have lengths := congrArg List.length inOrder.entries
  rw [List.length_map, List.length_map] at lengths
  rw [← lengths, entries_length inOrder.count.1]

theorem InOrder.heap {cli : Nat} {owner : Option Nat} (inOrder : InOrder state)
    (apart : ∀ session ∈ present state.events, state.clis cli ≠ some session) :
    state.registry.entries.map (Function.update state.clis cli owner) =
      (present state.events).map some := by
  rw [← inOrder.entries]
  apply List.map_congr_left
  intro entry member
  apply Function.update_of_ne
  intro same
  have owned : state.clis entry ∈ (present state.events).map some := by
    rw [← inOrder.entries]
    exact List.mem_map_of_mem member
  obtain ⟨session, inside, owner⟩ := List.mem_map.mp owned
  rw [same] at owner
  exact apart session inside owner.symm

theorem InOrder.register {session cli : Nat} {moved : Session} {busy : Option Nat}
    (inOrder : InOrder state) (owner : state.clis cli = some session)
    (fresh : ∀ event ∈ state.events, event.session ≠ session)
    (few : (present state.events).length < maxClients)
    (once : (present (state.events ++ [.registered session])).Nodup) :
    InOrder { (state.note (.registered session)).move session moved with
      registry := state.registry.register cli
      busy } := by
  have nonneg := inOrder.count.1
  have count := inOrder.count_eq
  have grown := present_registered fresh
  constructor
  case bounded =>
    have access : Stays state.registry.clients (state.registry.register cli).clients 0
        maxClients := stays_of_access nonneg (by omega) rfl
    exact access.bounded inOrder.bounded
  case count =>
    have grownCount : 0 ≤ state.registry.clientCount + 1 ∧
        state.registry.clientCount + 1 ≤ maxClients := by omega
    exact grownCount
  case entries =>
    simp only [State.note, State.move, grown, register_entries cli nonneg, List.map_append,
      inOrder.entries, List.map_cons, List.map_nil, owner]
  case once => exact once

theorem InOrder.broadcast {session cli : Nat} {moved : Session} (inOrder : InOrder state) :
    InOrder { state.move session moved with registry := (state.registry.broadcast cli).1 } := by
  have scanned := broadcast_stays cli inOrder.count.1
  constructor
  case bounded => exact (scanned.widen (Int.le_refl 0) inOrder.count.2).bounded inOrder.bounded
  case count => exact inOrder.count
  case entries =>
    simp only [State.move, (broadcast_entries cli).1]
    exact inOrder.entries
  case once => exact inOrder.once

theorem InOrder.remove {session cli : Nat} {moved : Session} (inOrder : InOrder state)
    (owner : ∀ entry, state.clis entry = some session ↔ entry = cli) :
    InOrder { (state.note (.removed session)).move session moved with
      registry := state.registry.remove cli } := by
  have nonneg := inOrder.count.1
  have most := inOrder.count.2
  have length := entries_length nonneg
  have shrunk : present (state.events ++ [.removed session]) =
      (present state.events).erase session := present_removed inOrder.once
  obtain ⟨entries, count, stays⟩ := remove_removes cli nonneg
  have shorter : (removeCli cli state.registry.entries).length ≤
      state.registry.entries.length := by
    rw [remove_cli_erase]
    exact List.length_erase_le
  constructor
  case bounded => exact (stays.widen (Int.le_refl 0) most).bounded inOrder.bounded
  case count =>
    have bounds : 0 ≤ (state.registry.remove cli).clientCount ∧
        (state.registry.remove cli).clientCount ≤ maxClients := by omega
    exact bounds
  case entries =>
    simp only [State.note, State.move, entries, shrunk]
    exact remove_cli_owned inOrder.entries owner
  case once =>
    simp only [State.note, State.move, shrunk]
    exact inOrder.once.erase session

theorem Kept.owner_iff {session cli : Nat} {phase : Phase} (kept : Kept state)
    (lookup : state.sessions session = some ⟨cli, phase⟩) (holds : phase.HoldsCli) (entry : Nat) :
    state.clis entry = some session ↔ entry = cli := by
  constructor
  · intro owned
    obtain ⟨found, foundLookup, same, _⟩ := kept.owns.owned entry session owned
    rw [lookup] at foundLookup
    cases foundLookup
    exact same.symm
  · intro same
    rw [same]
    exact kept.owns.held session ⟨cli, phase⟩ lookup holds

theorem in_order_step (kept : Kept state) (inOrder : InOrder state) (room : HasRoom state action)
    (stepped : step state action = some next) : InOrder next := by
  have once := (kept_step kept stepped).distinct
  cases step_effect stepped with
  | quiet _ session moved busy quiet =>
      exact ⟨inOrder.bounded, inOrder.count, inOrder.entries, inOrder.once⟩
  | malloc session cli found lookup here unused =>
      refine ⟨inOrder.bounded, inOrder.count, inOrder.heap ?_, inOrder.once⟩
      intro other inside
      rw [unused]
      exact Option.some_ne_none _ ∘ Eq.symm
  | register session cli lookup =>
      have owner := (kept.owner_iff lookup (by simp) cli).mpr rfl
      exact inOrder.register owner (kept.fresh lookup (by simp)) (room cli lookup) once
  | broadcast session cli lookup => exact inOrder.broadcast
  | remove session cli lookup => exact inOrder.remove (kept.owner_iff lookup (by simp))
  | free session cli lookup =>
      refine ⟨inOrder.bounded, inOrder.count, inOrder.heap ?_, inOrder.once⟩
      intro other inside owner
      rw [(kept.owner_iff lookup (by simp) cli).mpr rfl] at owner
      cases owner
      rw [kept.listed_iff lookup] at inside
      simp at inside

theorem has_room_of_in_order (kept : Kept state)
    (after : InOrder next) (stepped : step state action = some next) : HasRoom state action := by
  cases action with
  | proceed session =>
      intro cli lookup
      have grown := present_registered (kept.fresh lookup (by simp))
      have events : next.events = state.events ++ [.registered session] := by
        simp only [step, lookup, proceed, Option.some.injEq] at stepped
        rw [← stepped]
        rfl
      have count := after.count_eq
      have most := after.count.2
      rw [events, grown, List.length_append, List.length_singleton] at count
      omega
  | _ => trivial

end Exactness

/-- The array stays in its bounds and in order, in every state that a run passes through,
exactly when no session is registered with 100 others registered. -/
theorem registry_in_order_iff (actions : List Action) :
    (∀ before after reached, actions = before ++ after →
        run step initial before = some reached → InOrder reached) ↔
      Meets step HasRoom initial actions := by
  apply meets_iff_always_good (fun _ _ _ kept stepped => kept_step kept stepped) _ _ kept_initial
    in_order_initial
  · intro state action next kept inOrder stepped
    constructor
    · intro room
      exact in_order_step kept inOrder room stepped
    · intro after
      exact has_room_of_in_order kept after stepped
  · intro state action disabled
    cases action with
    | proceed session =>
        intro cli lookup
        simp [step, lookup, proceed] at disabled
    | _ => trivial

def enter (session : Nat) : List Action :=
  [.accept session, .malloc session session, .proceed session]

/-- So many connections, and none ends. -/
def crowd (size : Nat) : List Action := (List.range size).flatMap enter

structure Entered (size : Nat) (state : State) : Prop where
  idle : state.busy = none
  unborn : ∀ session, size ≤ session → state.sessions session = none
  unused : ∀ cli, size ≤ cli → state.clis cli = none
  count : state.registry.clientCount = size
  written : ∀ index < size, (index : Int) ∈ state.registry.clients.accesses

theorem enter_runs {size : Nat} {state : State} (entered : Entered size state) :
    ∃ final, run step state (enter size) = some final ∧ Entered (size + 1) final := by
  let before : State := { state with
    sessions := Function.update state.sessions size (some ⟨size, .registering⟩)
    busy := some size
    clis := Function.update state.clis size (some size) }
  have allocated : run step state [.accept size, .malloc size size] = some before := by
    simp [run, step, State.move, entered.unborn size le_rfl, entered.idle,
      entered.unused size le_rfl, before]
  have registered : run step before [.proceed size] =
      some { (before.note (.registered size)).move size ⟨size, .reading⟩ with
        registry := before.registry.register size
        busy := none } := by
    simp [run, step, proceed, before]
  refine ⟨_, (run_append allocated).trans registered, ?_⟩
  constructor
  case idle => rfl
  case unborn =>
    intro session bound
    have apart : session ≠ size := by omega
    simp only [State.note, State.move, before]
    rw [Function.update_of_ne apart, Function.update_of_ne apart]
    exact entered.unborn session (by omega)
  case unused =>
    intro cli bound
    have apart : cli ≠ size := by omega
    simp only [State.note, State.move, before]
    rw [Function.update_of_ne apart]
    exact entered.unused cli (by omega)
  case count =>
    simp only [Registry.register, before, entered.count]
    exact (Int.natCast_succ size).symm
  case written =>
    intro index bound
    simp only [Registry.register, Logged.write, before, entered.count, List.mem_append,
      List.mem_singleton]
    rcases Nat.lt_succ_iff_lt_or_eq.mp bound with earlier | last
    · exact Or.inl (entered.written index earlier)
    · exact Or.inr (congrArg _ last)

theorem crowd_runs (size : Nat) :
    ∃ final, run step initial (crowd size) = some final ∧ Entered size final := by
  have begins : Entered 0 initial := by
    refine ⟨rfl, fun _ _ => rfl, fun _ _ => rfl, rfl, ?_⟩
    intro index bound
    exact absurd bound (Nat.not_lt_zero index)
  exact run_rounds begins (fun _ _ entered => enter_runs entered) size

/-- The registration of the 101st client writes behind the array. -/
theorem crowd_overruns_array :
    ∃ reached, run step initial (crowd 101) = some reached ∧
      (maxClients : Int) ∈ reached.registry.clients.accesses ∧
      reached.registry.clientCount = 101 ∧ ¬InOrder reached := by
  obtain ⟨reached, ran, entered⟩ := crowd_runs 101
  refine ⟨reached, ran, entered.written maxClients (by decide), entered.count, ?_⟩
  intro inOrder
  have most := inOrder.count.2
  rw [entered.count] at most
  exact absurd most (by decide)

end LinuxFff.CliRegistry
