import LinuxFff.DescriptorReuse
import LinuxFff.Serialization

/-!
# The critical sections of `server.c` on `clients[]`

`main` registers a client, `broadcast` sends to the others and `handle_client` removes its own,
each under `clients_mutex`. Here each look at `client_count`, each load of an entry, each store
and each `send` is an access of its own, and the accesses of all threads mix.
-/

namespace LinuxFff.PlainMutex

open LinuxFff.CString LinuxFff.ClientTables LinuxFff.DescriptorReuse LinuxFff.LoggedArray
open LinuxFff.Serialization LinuxFff.StepSystem

set_option autoImplicit false

/-- The descriptor of `broadcast` is the one of the sender. -/
inductive Call where
  | register (cli : Entry)
  | broadcast (sender : Nat) (message : Bytes)
  | remove (sock : Nat)
  deriving DecidableEq

/-- `main` starts a thread for a client that has found room. -/
inductive Result where
  | registered (room : Bool)
  | void
  deriving DecidableEq

/-- The access that is next, with the loop variable. -/
inductive Local where
  | checking (cli : Entry)
  | counting (cli : Entry)
  | storing (cli : Entry) (place : Int)
  | testing (sender : Nat) (message : Bytes) (i : Int)
  | comparing (sender : Nat) (message : Bytes) (i : Int)
  | sending (sender : Nat) (message : Bytes) (i : Int)
  | seeking (sock : Nat) (i : Int)
  | matching (sock : Nat) (i : Int)
  | shrinking (i : Int)
  | loading (i last : Int)
  | moving (i : Int) (last : Entry)

/-- `sent` lists the descriptors that `broadcast` has sent to, with the text. -/
structure Shared where
  registry : Registry
  sent : List (Nat × Bytes)

def empty : Shared := ⟨⟨⟨fun _ => ⟨0, []⟩, []⟩, 0⟩, []⟩

def Shared.put (shared : Shared) (registry : Registry) : Shared := { shared with registry }

def Shared.load (shared : Shared) (i : Int) : Shared :=
  shared.put ⟨shared.registry.clients.read i, shared.registry.clientCount⟩

def Shared.store (shared : Shared) (i : Int) (entry : Entry) : Shared :=
  shared.put ⟨shared.registry.clients.write i entry, shared.registry.clientCount⟩

def Shared.setCount (shared : Shared) (clientCount : Int) : Shared :=
  shared.put ⟨shared.registry.clients, clientCount⟩

/-- `send(clients[i].sock, message, strlen(message), 0)` -/
def Shared.send (shared : Shared) (i : Int) (message : Bytes) : Shared :=
  { shared.load i with
    sent := shared.sent ++ [((shared.registry.clients.cells i).sock, cstr message)] }

def enter : Call → Local
  | .register cli => .checking cli
  | .broadcast sender message => .testing sender message 0
  | .remove sock => .seeking sock 0

def access : Local → Shared → Shared × (Local ⊕ Result)
  | .checking cli, shared =>
      if shared.registry.clientCount < maxClients then (shared, .inl (.counting cli))
      else (shared, .inr (.registered false))
  | .counting cli, shared =>
      (shared.setCount (shared.registry.clientCount + 1),
        .inl (.storing cli shared.registry.clientCount))
  | .storing cli place, shared => (shared.store place cli, .inr (.registered true))
  | .testing sender message i, shared =>
      if i < shared.registry.clientCount then (shared, .inl (.comparing sender message i))
      else (shared, .inr .void)
  | .comparing sender message i, shared =>
      if (shared.registry.clients.cells i).sock ≠ sender then
        (shared.load i, .inl (.sending sender message i))
      else (shared.load i, .inl (.testing sender message (i + 1)))
  | .sending sender message i, shared =>
      (shared.send i message, .inl (.testing sender message (i + 1)))
  | .seeking sock i, shared =>
      if i < shared.registry.clientCount then (shared, .inl (.matching sock i))
      else (shared, .inr .void)
  | .matching sock i, shared =>
      if (shared.registry.clients.cells i).sock = sock then (shared.load i, .inl (.shrinking i))
      else (shared.load i, .inl (.seeking sock (i + 1)))
  | .shrinking i, shared =>
      (shared.setCount (shared.registry.clientCount - 1),
        .inl (.loading i (shared.registry.clientCount - 1)))
  | .loading i last, shared =>
      (shared.load last, .inl (.moving i (shared.registry.clients.cells last)))
  | .moving i last, shared => (shared.store i last, .inr .void)

def code : Code Call Local Shared Result := ⟨enter, access⟩

/-- The loop of `broadcast` from `i` on. -/
def broadcastFrom (sender : Nat) (message : Bytes) (i : Int) : Nat → Shared → Shared
  | 0, shared => shared
  | rounds + 1, shared =>
      if (shared.registry.clients.cells i).sock ≠ sender then
        broadcastFrom sender message (i + 1) rounds ((shared.load i).send i message)
      else broadcastFrom sender message (i + 1) rounds (shared.load i)

def effect : Call → Shared → Shared × Result
  | .register cli, shared =>
      (shared.put (shared.registry.register cli),
        .registered (decide (shared.registry.clientCount < maxClients)))
  | .broadcast sender message, shared =>
      (broadcastFrom sender message 0 shared.registry.clientCount.toNat shared, .void)
  | .remove sock, shared => (shared.put (shared.registry.remove sock), .void)

def rest : Local → Shared → Shared × Result
  | .checking cli, shared => effect (.register cli) shared
  | .counting cli, shared =>
      ((shared.setCount (shared.registry.clientCount + 1)).store shared.registry.clientCount cli,
        .registered true)
  | .storing cli place, shared => (shared.store place cli, .registered true)
  | .testing sender message i, shared =>
      (broadcastFrom sender message i (shared.registry.clientCount - i).toNat shared, .void)
  | .comparing sender message i, shared =>
      (broadcastFrom sender message i
        ((shared.registry.clientCount - (i + 1)).toNat + 1) shared, .void)
  | .sending sender message i, shared =>
      (broadcastFrom sender message (i + 1) (shared.registry.clientCount - (i + 1)).toNat
        (shared.send i message), .void)
  | .seeking sock i, shared =>
      (shared.put (removeFrom sock i (shared.registry.clientCount - i).toNat shared.registry), .void)
  | .matching sock i, shared =>
      (shared.put (removeFrom sock i ((shared.registry.clientCount - (i + 1)).toNat + 1)
        shared.registry), .void)
  | .shrinking i, shared =>
      (((shared.setCount (shared.registry.clientCount - 1)).load
        (shared.registry.clientCount - 1)).store i
          (shared.registry.clients.cells (shared.registry.clientCount - 1)), .void)
  | .loading i last, shared =>
      ((shared.load last).store i (shared.registry.clients.cells last), .void)
  | .moving i last, shared => (shared.store i last, .void)

section Calls

variable {shared after : Shared} {here moved : Local} {result : Result}

theorem rest_enter (call : Call) (before : Shared) : rest (enter call) before = effect call before := by
  cases call with
  | register cli => rfl
  | broadcast sender message => simp only [enter, rest, effect, Int.sub_zero]
  | remove sock => simp only [enter, rest, effect, Registry.remove, Int.sub_zero]

theorem rounds_left {i count : Int} (inside : i < count) :
    (count - i).toNat = (count - (i + 1)).toNat + 1 := by omega

theorem rounds_over {i count : Int} (beyond : ¬i < count) : (count - i).toNat = 0 := by omega

theorem rest_goes_on (accessed : access here shared = (after, .inl moved)) :
    rest moved after = rest here shared := by
  cases here with
  | checking cli =>
      simp only [access] at accessed
      split at accessed
      case isTrue room =>
        cases accessed
        simp only [rest, effect, Registry.register, room, decide_true]
        rfl
      case isFalse full => cases accessed
  | counting cli =>
      cases accessed
      rfl
  | storing cli place => cases accessed
  | testing sender message i =>
      simp only [access] at accessed
      split at accessed
      case isTrue inside =>
        cases accessed
        simp only [rest, rounds_left inside]
      case isFalse beyond => cases accessed
  | comparing sender message i =>
      simp only [access] at accessed
      split at accessed
      case isTrue other =>
        cases accessed
        simp only [rest, broadcastFrom, if_pos other]
        rfl
      case isFalse own =>
        cases accessed
        simp only [rest, broadcastFrom, if_neg own]
        rfl
  | sending sender message i =>
      cases accessed
      rfl
  | seeking sock i =>
      simp only [access] at accessed
      split at accessed
      case isTrue inside =>
        cases accessed
        simp only [rest, rounds_left inside]
      case isFalse beyond => cases accessed
  | matching sock i =>
      simp only [access] at accessed
      split at accessed
      case isTrue found =>
        cases accessed
        simp only [rest, removeFrom, if_pos found]
        rfl
      case isFalse other =>
        cases accessed
        simp only [rest, removeFrom, if_neg other]
        rfl
  | shrinking i =>
      cases accessed
      rfl
  | loading i last =>
      cases accessed
      rfl
  | moving i last => cases accessed

theorem rest_ends (accessed : access here shared = (after, .inr result)) :
    rest here shared = (after, result) := by
  cases here with
  | checking cli =>
      simp only [access] at accessed
      split at accessed
      case isTrue room => cases accessed
      case isFalse full =>
        cases accessed
        simp only [rest, effect, Registry.register, full, decide_false]
        rfl
  | storing cli place =>
      cases accessed
      rfl
  | testing sender message i =>
      simp only [access] at accessed
      split at accessed
      case isTrue inside => cases accessed
      case isFalse beyond =>
        cases accessed
        simp only [rest, rounds_over beyond]
        rfl
  | comparing sender message i =>
      simp only [access] at accessed
      split at accessed
      · cases accessed
      · cases accessed
  | seeking sock i =>
      simp only [access] at accessed
      split at accessed
      case isTrue inside => cases accessed
      case isFalse beyond =>
        cases accessed
        simp only [rest, rounds_over beyond]
        rfl
  | matching sock i =>
      simp only [access] at accessed
      split at accessed
      · cases accessed
      · cases accessed
  | moving i last =>
      cases accessed
      rfl
  | counting cli => cases accessed
  | sending sender message i => cases accessed
  | shrinking i => cases accessed
  | loading i last => cases accessed

theorem code_implements : Implements code effect :=
  implements_of_rest rest rest_enter (fun _ _ _ _ => rest_goes_on) fun _ _ _ _ => rest_ends

end Calls

/-- The entries below `client_count` as a list, as the chat keeps them, and what has been sent. -/
structure Roster where
  entries : List Entry
  sent : List (Nat × Bytes)

def Shared.roster (shared : Shared) : Roster := ⟨shared.registry.entries, shared.sent⟩

def onRoster : Call → Roster → Roster × Result
  | .register cli, roster =>
      if roster.entries.length < maxClients then
        ({ roster with entries := roster.entries ++ [cli] }, .registered true)
      else (roster, .registered false)
  | .broadcast sender message, roster =>
      ({ roster with
        sent := roster.sent ++
          (sendTargets sender roster.entries).map fun sock => (sock, cstr message) }, .void)
  | .remove sock, roster => ({ roster with entries := removeEntry sock roster.entries }, .void)

/-- The array is used from 0 up to below `MAX_CLIENTS` only. -/
structure InArray (shared : Shared) : Prop where
  nonneg : 0 ≤ shared.registry.clientCount
  room : shared.registry.clientCount ≤ maxClients
  inside : ∀ index ∈ shared.registry.clients.accesses, 0 ≤ index ∧ index < maxClients

section Array

variable {shared after : Shared} {here moved : Local}

theorem InArray.access (inArray : InArray shared) {index : Int} (lower : 0 ≤ index)
    (upper : index < maxClients)
    (logged : after.registry.clients.accesses = shared.registry.clients.accesses ++ [index])
    (count : after.registry.clientCount = shared.registry.clientCount) : InArray after where
  nonneg := count ▸ inArray.nonneg
  room := count ▸ inArray.room
  inside := (stays_of_access lower upper logged).bounded inArray.inside

theorem broadcast_from_count (sender : Nat) (message : Bytes) (i : Int) (rounds : Nat)
    (shared : Shared) :
    (broadcastFrom sender message i rounds shared).registry.clientCount =
        shared.registry.clientCount ∧
      (broadcastFrom sender message i rounds shared).registry.clients.cells =
        shared.registry.clients.cells := by
  induction rounds generalizing i shared with
  | zero => exact ⟨rfl, rfl⟩
  | succ rounds ih =>
      rw [broadcastFrom]
      split
      · exact ih (i + 1) _
      · exact ih (i + 1) _

theorem broadcast_from_sent (sender : Nat) (message : Bytes) (i : Int) (rounds : Nat)
    (shared : Shared) :
    (broadcastFrom sender message i rounds shared).sent =
      shared.sent ++ (sendTargets sender (window shared.registry.clients.cells i rounds)).map
        fun sock => (sock, cstr message) := by
  induction rounds generalizing i shared with
  | zero => exact (List.append_nil _).symm
  | succ rounds ih =>
      rw [broadcastFrom, window, sendTargets, socks, List.map_cons]
      split
      case isTrue other =>
        rw [List.filter_cons_of_pos (by simpa using other), List.map_cons, ih (i + 1)]
        exact List.append_assoc _ _ _
      case isFalse own =>
        rw [List.filter_cons_of_neg (by simpa using own), ih (i + 1)]
        rfl

theorem broadcast_from_inside (sender : Nat) (message : Bytes) (i : Int) (rounds : Nat)
    (inArray : InArray shared) (lower : 0 ≤ i) (upper : i + rounds ≤ maxClients) :
    InArray (broadcastFrom sender message i rounds shared) := by
  induction rounds generalizing i shared with
  | zero => exact inArray
  | succ rounds ih =>
      have loaded : InArray (shared.load i) := inArray.access lower (by omega) rfl rfl
      rw [broadcastFrom]
      split
      · have sent : InArray ((shared.load i).send i message) :=
          loaded.access lower (by omega) rfl rfl
        exact ih (i + 1) sent (by omega) (by omega)
      · exact ih (i + 1) loaded (by omega) (by omega)

theorem in_array_effect (call : Call) (inArray : InArray shared) :
    InArray (effect call shared).1 := by
  have nonneg := inArray.nonneg
  have room := inArray.room
  cases call with
  | register cli =>
      by_cases below : shared.registry.clientCount < maxClients
      · have written : (effect (.register cli) shared).1 =
            shared.put ⟨shared.registry.clients.write shared.registry.clientCount cli,
              shared.registry.clientCount + 1⟩ := by
          simp only [effect, Registry.register, if_pos below]
        rw [written]
        constructor
        case nonneg => exact Int.le_add_one nonneg
        case room => exact below
        case inside => exact (stays_of_access nonneg below rfl).bounded inArray.inside
      · simp only [effect, Registry.register, if_neg below]
        exact inArray
  | broadcast sender message =>
      exact broadcast_from_inside sender message 0 _ inArray (Int.le_refl 0) (by omega)
  | remove sock =>
      have leaves := remove_leaves sock nonneg
      have count := leaves.count
      have shorter := remove_entry_length_le sock shared.registry.entries
      have length := entries_length nonneg
      constructor
      case nonneg =>
        change 0 ≤ (shared.registry.remove sock).clientCount
        omega
      case room =>
        change (shared.registry.remove sock).clientCount ≤ maxClients
        omega
      case inside => exact (leaves.stays.widen (Int.le_refl 0) room).bounded inArray.inside

theorem roster_effect (call : Call) (inArray : InArray shared) :
    onRoster call shared.roster = ((effect call shared).1.roster, (effect call shared).2) := by
  have nonneg := inArray.nonneg
  have length := entries_length nonneg
  cases call with
  | register cli =>
      by_cases room : shared.registry.clientCount < maxClients
      · have below : shared.registry.entries.length < maxClients := by omega
        have entries := register_entries cli nonneg room
        simp only [onRoster, Shared.roster, effect, Shared.put, entries, below, if_true, room,
          decide_true]
      · have full : ¬shared.registry.entries.length < maxClients := by omega
        have entries : shared.registry.register cli = shared.registry := if_neg room
        simp only [onRoster, Shared.roster, effect, Shared.put, entries, full, if_false, room,
          decide_false]
  | broadcast sender message =>
      obtain ⟨count, cells⟩ :=
        broadcast_from_count sender message 0 shared.registry.clientCount.toNat shared
      have sent := broadcast_from_sent sender message 0 shared.registry.clientCount.toNat shared
      simp only [onRoster, Shared.roster, effect, Registry.entries, count, cells, sent]
  | remove sock =>
      have entries := remove_entries sock nonneg
      simp only [onRoster, Shared.roster, effect, Shared.put, entries]

def Local.InArray (here : Local) (shared : Shared) : Prop :=
  match here with
  | .counting _ => shared.registry.clientCount < maxClients
  | .storing _ place => 0 ≤ place ∧ place < maxClients
  | .testing _ _ i | .seeking _ i => 0 ≤ i
  | .comparing _ _ i | .sending _ _ i | .matching _ i | .shrinking i =>
      0 ≤ i ∧ i < shared.registry.clientCount
  | .loading i last => 0 ≤ i ∧ i ≤ last ∧ last < maxClients
  | .moving i _ => 0 ≤ i ∧ i < maxClients
  | .checking _ => True

theorem in_array_enter (call : Call) : (enter call).InArray shared := by
  cases call with
  | register cli => trivial
  | broadcast sender message => exact Int.le_refl 0
  | remove sock => exact Int.le_refl 0

theorem in_array_goes_on (inArray : InArray shared) (next : here.InArray shared)
    (accessed : access here shared = (after, .inl moved)) :
    InArray after ∧ moved.InArray after := by
  have nonneg := inArray.nonneg
  have room := inArray.room
  cases here with
  | checking cli =>
      simp only [access] at accessed
      split at accessed
      case isTrue below =>
        cases accessed
        exact ⟨inArray, below⟩
      case isFalse full => cases accessed
  | counting cli =>
      cases accessed
      refine ⟨⟨Int.le_add_one nonneg, next, inArray.inside⟩, nonneg, next⟩
  | storing cli place => cases accessed
  | testing sender message i =>
      simp only [access] at accessed
      split at accessed
      case isTrue inside =>
        cases accessed
        exact ⟨inArray, next, inside⟩
      case isFalse beyond => cases accessed
  | comparing sender message i =>
      have loaded : InArray (shared.load i) :=
        inArray.access next.1 (Int.lt_of_lt_of_le next.2 room) rfl rfl
      simp only [access] at accessed
      split at accessed
      · cases accessed
        exact ⟨loaded, next⟩
      · cases accessed
        exact ⟨loaded, Int.le_add_one next.1⟩
  | sending sender message i =>
      cases accessed
      exact ⟨inArray.access next.1 (Int.lt_of_lt_of_le next.2 room) rfl rfl,
        Int.le_add_one next.1⟩
  | seeking sock i =>
      simp only [access] at accessed
      split at accessed
      case isTrue inside =>
        cases accessed
        exact ⟨inArray, next, inside⟩
      case isFalse beyond => cases accessed
  | matching sock i =>
      have loaded : InArray (shared.load i) :=
        inArray.access next.1 (Int.lt_of_lt_of_le next.2 room) rfl rfl
      simp only [access] at accessed
      split at accessed
      · cases accessed
        exact ⟨loaded, next⟩
      · cases accessed
        exact ⟨loaded, Int.le_add_one next.1⟩
  | shrinking i =>
      cases accessed
      obtain ⟨lower, upper⟩ := next
      refine ⟨⟨?_, ?_, inArray.inside⟩, lower, ?_, ?_⟩
      · change 0 ≤ shared.registry.clientCount - 1
        omega
      · change shared.registry.clientCount - 1 ≤ maxClients
        omega
      · omega
      · omega
  | loading i last =>
      cases accessed
      obtain ⟨lower, upper, below⟩ := next
      exact ⟨inArray.access (Int.le_trans lower upper) below rfl rfl, lower,
        Int.lt_of_le_of_lt upper below⟩
  | moving i last => cases accessed

end Array

theorem in_array_empty : InArray empty where
  nonneg := Int.le_refl 0
  room := by decide
  inside := by
    intro index impossible
    cases impossible

/-- However the accesses of the threads mix: while nobody holds the mutex, the entries below
`client_count`, what has been sent and the values returned are those of the calls run one after
another on a list, in the order in which they had the mutex; the array is used inside its bounds
at any time, and a thread that has called never waits for ever, as it or another thread
can go on. -/
theorem registry_is_roster (actions : List (Action Call)) (state : State Call Local Shared Result)
    (ran : run (step code) (begin empty) actions = some state) :
    (state.owner = none → Replays effect empty state.served state.shared ∧
        Replays onRoster ⟨[], []⟩ state.served state.shared.roster) ∧
      InArray state.shared ∧
      ∀ thread phase, state.phases thread = some phase →
        ∃ action next, (∀ other call, action ≠ Action.call other call) ∧
          step code state action = some next := by
  have serialised := serialised_run code_implements ran
  refine ⟨?_, ?_, fun _ _ called => serialised.progress called⟩
  · intro free
    have replays := serialised.idle free
    refine ⟨replays, ?_⟩
    exact replays.view Shared.roster in_array_empty (fun call _ => in_array_effect call)
      fun call _ => roster_effect call
  · exact serialised.keeps in_array_empty (fun call _ => in_array_effect call)
      (fun call _ inArray => ⟨inArray, in_array_enter call⟩)
      (fun _ _ _ _ holds accessed => in_array_goes_on holds.1 holds.2 accessed)
      fun _ _ holds => holds.1

/-- `main` waits with the third client while the thread of the first one removes its entry, and
the second one sends to the third. -/
def leaveAndJoin : List (Action Call) :=
  [.call 0 (.register ⟨4, ascii "al"⟩), .lock 0, .access 0, .access 0, .access 0, .unlock 0,
    .call 0 (.register ⟨5, ascii "bo"⟩), .lock 0, .access 0, .access 0, .access 0, .unlock 0,
    .call 1 (.remove 4), .lock 1, .access 1, .call 0 (.register ⟨4, ascii "cy"⟩), .access 1,
    .access 1, .access 1, .access 1, .unlock 1, .lock 0, .access 0, .access 0,
    .call 2 (.broadcast 5 (ascii "hi")), .access 0, .unlock 0, .lock 2, .access 2, .access 2,
    .access 2, .access 2, .access 2, .access 2, .unlock 2]

theorem registry_is_roster_leave_and_join :
    ∃ state, run (step code) (begin empty) leaveAndJoin = some state ∧
      state.shared.registry.entries = [⟨5, ascii "bo"⟩, ⟨4, ascii "cy"⟩] ∧
      state.shared.sent = [(4, ascii "hi")] ∧
      Replays onRoster ⟨[], []⟩ state.served state.shared.roster := by
  have observed : ((run (step code) (begin empty) leaveAndJoin).map fun state =>
      (state.owner, state.shared.registry.entries, state.shared.sent)) =
        some (none, [⟨5, ascii "bo"⟩, ⟨4, ascii "cy"⟩], [(4, ascii "hi")]) := by
    decide +kernel
  obtain ⟨state, ran, seen⟩ := Option.map_eq_some_iff.mp observed
  simp only [Prod.mk.injEq] at seen
  obtain ⟨free, entries, sent⟩ := seen
  obtain ⟨served, _, _⟩ := registry_is_roster leaveAndJoin state ran
  exact ⟨state, ran, entries, sent, (served free).2⟩

end LinuxFff.PlainMutex
