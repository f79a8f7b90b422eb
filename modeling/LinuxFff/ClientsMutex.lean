import LinuxFff.Serialization
import LinuxFff.TlsServer

/-!
# The critical sections of `server_tls_final.c`

`add_client`, `remove_client` and `broadcast` run under `clients_mutex`. Here each test of a
slot, each store into one and each `SSL_write` of the loop of `broadcast` is an access of its
own, and the accesses of all threads mix. The calls come out as the functions on the whole
table that the chat is modelled with.
-/

namespace LinuxFff.ClientsMutex

open LinuxFff.CString LinuxFff.ClientTables LinuxFff.Serialization LinuxFff.StepSystem
open LinuxFff.TlsServer (Message)

set_option autoImplicit false

/-- `broadcast` gets the text and the sender of the message. -/
inductive Call where
  | addClient (ssl : Ssl) (username : Bytes)
  | removeClient (ssl : Ssl)
  | broadcast (message : Message)
  deriving DecidableEq

/-- What a call returns: the slot or -1 from `add_client`, nothing from the others. -/
inductive Result where
  | int (value : Int)
  | void
  deriving DecidableEq

/-- The access that is next, with the loop variable. -/
inductive Local where
  | adding (ssl : Ssl) (username : Bytes) (i : Nat)
  | storingSsl (ssl : Ssl) (username : Bytes) (i : Nat)
  | storingActive (username : Bytes) (i : Nat)
  | storingUsername (username : Bytes) (i : Nat)
  | removing (ssl : Ssl) (i : Nat)
  | clearingActive (i : Nat)
  | clearingSsl (i : Nat)
  | sending (message : Message) (i : Nat)
  | writing (message : Message) (i : Nat)
  deriving DecidableEq

/-- `written` lists what `broadcast` has written, with the object it was written to. -/
structure Shared where
  clients : List Client
  written : List (Ssl × Message)
  deriving DecidableEq

def Shared.store (shared : Shared) (i : Nat) (change : Client → Client) : Shared :=
  { shared with clients := shared.clients.modify i change }

def enter : Call → Local
  | .addClient ssl username => .adding ssl username 0
  | .removeClient ssl => .removing ssl 0
  | .broadcast message => .sending message 0

/-- The table has `MAX_CLIENTS` slots, and a loop is over when its index is behind them. -/
def access : Local → Shared → Shared × (Local ⊕ Result)
  | .adding ssl username i, shared =>
      match shared.clients[i]? with
      | some client =>
          if client.active then (shared, .inl (.adding ssl username (i + 1)))
          else (shared, .inl (.storingSsl ssl username i))
      | none => (shared, .inr (.int (-1)))
  | .storingSsl ssl username i, shared =>
      (shared.store i fun client => { client with ssl }, .inl (.storingActive username i))
  | .storingActive username i, shared =>
      (shared.store i fun client => { client with active := true },
        .inl (.storingUsername username i))
  | .storingUsername username i, shared =>
      (shared.store i fun client => { client with username := username.take 50 }, .inr (.int i))
  | .removing ssl i, shared =>
      match shared.clients[i]? with
      | some client =>
          if client.active ∧ client.ssl = ssl then (shared, .inl (.clearingActive i))
          else (shared, .inl (.removing ssl (i + 1)))
      | none => (shared, .inr .void)
  | .clearingActive i, shared =>
      (shared.store i fun client => { client with active := false }, .inl (.clearingSsl i))
  | .clearingSsl i, shared =>
      (shared.store i fun client => { client with ssl := null }, .inr .void)
  | .sending message i, shared =>
      match shared.clients[i]? with
      | some client =>
          if client.active ∧ client.ssl ≠ message.sender then (shared, .inl (.writing message i))
          else (shared, .inl (.sending message (i + 1)))
      | none => (shared, .inr .void)
  | .writing message i, shared =>
      match shared.clients[i]? with
      | some client =>
          ({ shared with written := shared.written ++ [(client.ssl, message)] },
            .inl (.sending message (i + 1)))
      | none => (shared, .inl (.sending message (i + 1)))

def code : Code Call Local Shared Result := ⟨enter, access⟩

inductive Touched (here : Local) (shared : Shared) : Shared → Prop where
  | nothing : Touched here shared shared
  | stored (i : Nat) (change : Client → Client) : Touched here shared (shared.store i change)
  | wrote (message : Message) (i : Nat) (client : Client) (at_write : here = .writing message i)
      (lookup : shared.clients[i]? = some client) :
      Touched here shared
        { shared with written := shared.written ++ [(client.ssl, message)] }

theorem access_touched {here : Local} {shared after : Shared} {outcome : Local ⊕ Result}
    (accessed : access here shared = (after, outcome)) : Touched here shared after := by
  cases here <;> simp only [access] at accessed
  case adding ssl username i =>
    split at accessed
    · split at accessed <;> cases accessed <;> exact Touched.nothing
    · cases accessed
      exact Touched.nothing
  case removing ssl i =>
    split at accessed
    · split at accessed <;> cases accessed <;> exact Touched.nothing
    · cases accessed
      exact Touched.nothing
  case sending message i =>
    split at accessed
    · split at accessed <;> cases accessed <;> exact Touched.nothing
    · cases accessed
      exact Touched.nothing
  case writing message i =>
    split at accessed
    case h_1 client lookup =>
      cases accessed
      exact Touched.wrote message i client rfl lookup
    case h_2 =>
      cases accessed
      exact Touched.nothing
  all_goals
    cases accessed
    exact Touched.stored _ _

def effect : Call → Shared → Shared × Result
  | .addClient ssl username, shared =>
      match ClientTables.addClient ssl username shared.clients with
      | some (i, clients) => ({ shared with clients }, .int i)
      | none => (shared, .int (-1))
  | .removeClient ssl, shared =>
      ({ shared with clients := ClientTables.removeClient ssl shared.clients }, .void)
  | .broadcast message, shared =>
      ({ shared with
        written := shared.written ++
          (recipients message.sender shared.clients).map fun ssl => (ssl, message) }, .void)

/-- What a call has done before its next access, given the data it started from. -/
inductive Progress (before : Shared) : Call → Local → Shared → Prop where
  | adding (ssl : Ssl) (username : Bytes) (i : Nat)
      (scanned : ClientTables.addClient ssl username before.clients =
        (ClientTables.addClient ssl username (before.clients.drop i)).map fun found =>
          (found.1 + i, before.clients.take i ++ found.2)) :
      Progress before (.addClient ssl username) (.adding ssl username i) before
  | storingSsl (ssl : Ssl) (username : Bytes) (i : Nat)
      (found : ClientTables.addClient ssl username before.clients =
        some (i, before.clients.set i ⟨ssl, true, username.take 50⟩)) :
      Progress before (.addClient ssl username) (.storingSsl ssl username i) before
  | storingActive (ssl : Ssl) (username : Bytes) (i : Nat)
      (found : ClientTables.addClient ssl username before.clients =
        some (i, before.clients.set i ⟨ssl, true, username.take 50⟩)) :
      Progress before (.addClient ssl username) (.storingActive username i)
        (before.store i fun client => { client with ssl })
  | storingUsername (ssl : Ssl) (username : Bytes) (i : Nat)
      (found : ClientTables.addClient ssl username before.clients =
        some (i, before.clients.set i ⟨ssl, true, username.take 50⟩)) :
      Progress before (.addClient ssl username) (.storingUsername username i)
        ((before.store i fun client => { client with ssl }).store i fun client =>
          { client with active := true })
  | removing (ssl : Ssl) (i : Nat)
      (scanned : ClientTables.removeClient ssl before.clients =
        before.clients.take i ++ ClientTables.removeClient ssl (before.clients.drop i)) :
      Progress before (.removeClient ssl) (.removing ssl i) before
  | clearingActive (ssl : Ssl) (i : Nat)
      (found : ClientTables.removeClient ssl before.clients =
        before.clients.modify i fun client => { client with active := false, ssl := null }) :
      Progress before (.removeClient ssl) (.clearingActive i) before
  | clearingSsl (ssl : Ssl) (i : Nat)
      (found : ClientTables.removeClient ssl before.clients =
        before.clients.modify i fun client => { client with active := false, ssl := null }) :
      Progress before (.removeClient ssl) (.clearingSsl i)
        (before.store i fun client => { client with active := false })
  | sending (message : Message) (i : Nat) :
      Progress before (.broadcast message) (.sending message i)
        { before with written := before.written ++
          (recipients message.sender (before.clients.take i)).map fun ssl => (ssl, message) }
  | writing (message : Message) (i : Nat) (client : Client)
      (here : before.clients[i]? = some client) (active : client.active = true)
      (other : client.ssl ≠ message.sender) :
      Progress before (.broadcast message) (.writing message i)
        { before with written := before.written ++
          (recipients message.sender (before.clients.take i)).map fun ssl => (ssl, message) }

section Loops

variable {before after : Shared} {call : Call} {here moved : Local} {result : Result}

theorem drop_of_lookup {clients : List Client} {i : Nat} {client : Client}
    (lookup : clients[i]? = some client) : clients.drop i = client :: clients.drop (i + 1) := by
  obtain ⟨inside, same⟩ := List.getElem?_eq_some_iff.mp lookup
  rw [List.drop_eq_getElem_cons inside, same]

theorem take_of_lookup {clients : List Client} {i : Nat} {client : Client}
    (lookup : clients[i]? = some client) : clients.take (i + 1) = clients.take i ++ [client] := by
  rw [List.take_add_one, lookup]
  rfl

theorem recipients_take {clients : List Client} {i : Nat} {client : Client} {sender : Ssl}
    (lookup : clients[i]? = some client) :
    recipients sender (clients.take (i + 1)) = recipients sender (clients.take i) ++
      if client.active ∧ client.ssl ≠ sender then [client.ssl] else [] := by
  unfold recipients
  rw [take_of_lookup lookup, List.filter_append, List.map_append, List.filter_singleton]
  apply congrArg (_ ++ ·)
  by_cases written : client.active ∧ client.ssl ≠ sender
  · simp [written]
  · simp [written]

theorem stored_client {clients : List Client} {i : Nat} (ssl : Ssl) (username : Bytes) :
    ((clients.modify i fun client => { client with ssl }).modify i fun client =>
      { client with active := true }).modify i (fun client => { client with username }) =
        clients.set i ⟨ssl, true, username⟩ := by
  rw [List.modify_modify_eq, List.modify_modify_eq]
  apply List.ext_getElem?
  intro j
  rw [List.getElem?_modify, List.getElem?_set]
  by_cases same : i = j
  · rw [if_pos same, ← same]
    cases lookup : clients[i]? with
    | none => simp [List.getElem?_eq_none_iff.mp lookup]
    | some client =>
        have inside := (List.getElem?_eq_some_iff.mp lookup).1
        simp [inside]
  · simp [same]

theorem progress_enter (call : Call) (before : Shared) : Progress before call (enter call) before := by
  cases call with
  | addClient ssl username =>
      apply Progress.adding
      simp
  | removeClient ssl =>
      apply Progress.removing
      simp
  | broadcast message =>
      have sending := @Progress.sending before message 0
      rw [List.take_zero, recipients, List.filter_nil, List.map_nil, List.map_nil,
        List.append_nil] at sending
      exact sending

theorem progress_goes_on {shared : Shared} (progress : Progress before call here shared)
    (accessed : access here shared = (after, .inl moved)) : Progress before call moved after := by
  cases progress with
  | adding ssl username i scanned =>
      simp only [access] at accessed
      split at accessed
      case h_1 client lookup =>
        rw [drop_of_lookup lookup] at scanned
        split at accessed
        case isTrue taken =>
          cases accessed
          apply Progress.adding
          rw [scanned, ClientTables.addClient, if_pos taken, Option.map_map, take_of_lookup lookup]
          apply congrArg (Option.map · _)
          funext found
          simp only [Function.comp_apply, List.append_assoc, List.singleton_append]
          rw [Nat.add_right_comm, Nat.add_assoc]
        case isFalse isFree =>
          cases accessed
          apply Progress.storingSsl
          have inside := (List.getElem?_eq_some_iff.mp lookup).1
          rw [scanned, ClientTables.addClient, if_neg isFree, Option.map_some, Nat.zero_add,
            List.set_eq_take_append_cons_drop, if_pos inside]
      case h_2 => cases accessed
  | storingSsl ssl username i found =>
      cases accessed
      exact Progress.storingActive ssl username i found
  | storingActive ssl username i found =>
      cases accessed
      exact Progress.storingUsername ssl username i found
  | storingUsername ssl username i found => cases accessed
  | removing ssl i scanned =>
      simp only [access] at accessed
      split at accessed
      case h_1 client lookup =>
        rw [drop_of_lookup lookup, ClientTables.removeClient] at scanned
        split at accessed
        case isTrue held =>
          cases accessed
          apply Progress.clearingActive
          have inside := (List.getElem?_eq_some_iff.mp lookup).1
          have same : before.clients[i] = client := (List.getElem?_eq_some_iff.mp lookup).2
          rw [scanned, if_pos held, List.modify_eq_take_cons_drop inside, same]
        case isFalse other =>
          cases accessed
          apply Progress.removing
          rw [scanned, if_neg other, take_of_lookup lookup, List.append_assoc,
            List.singleton_append]
      case h_2 => cases accessed
  | clearingActive ssl i found =>
      cases accessed
      exact Progress.clearingSsl ssl i found
  | clearingSsl ssl i found => cases accessed
  | sending message i =>
      simp only [access] at accessed
      split at accessed
      case h_1 client lookup =>
        split at accessed
        case isTrue listening =>
          cases accessed
          exact Progress.writing message i client lookup listening.1 listening.2
        case isFalse skipped =>
          cases accessed
          have sending := @Progress.sending before message (i + 1)
          rw [recipients_take lookup, if_neg skipped, List.append_nil] at sending
          exact sending
      case h_2 => cases accessed
  | writing message i client lookup active other =>
      simp only [access, lookup] at accessed
      cases accessed
      have sending := @Progress.sending before message (i + 1)
      rw [recipients_take lookup, if_pos ⟨active, other⟩, List.map_append, List.map_singleton,
        ← List.append_assoc] at sending
      exact sending

theorem progress_ends {shared : Shared} (progress : Progress before call here shared)
    (accessed : access here shared = (after, .inr result)) :
    effect call before = (after, result) := by
  cases progress with
  | adding ssl username i scanned =>
      simp only [access] at accessed
      split at accessed
      case h_1 client lookup =>
        split at accessed
        case isTrue taken => cases accessed
        case isFalse isFree => cases accessed
      case h_2 past =>
        cases accessed
        have behind := List.getElem?_eq_none_iff.mp past
        rw [List.drop_eq_nil_of_le behind] at scanned
        rw [effect, scanned]
        rfl
  | storingSsl ssl username i found => cases accessed
  | storingActive ssl username i found => cases accessed
  | storingUsername ssl username i found =>
      cases accessed
      rw [effect, found]
      simp only [Shared.store, stored_client]
  | removing ssl i scanned =>
      simp only [access] at accessed
      split at accessed
      case h_1 client lookup =>
        split at accessed
        case isTrue held => cases accessed
        case isFalse other => cases accessed
      case h_2 past =>
        cases accessed
        have behind := List.getElem?_eq_none_iff.mp past
        rw [List.drop_eq_nil_of_le behind, ClientTables.removeClient, List.append_nil,
          List.take_of_length_le behind] at scanned
        rw [effect, scanned]
  | clearingActive ssl i found => cases accessed
  | clearingSsl ssl i found =>
      cases accessed
      rw [effect, found]
      simp only [Shared.store, List.modify_modify_eq]
      rfl
  | sending message i =>
      simp only [access] at accessed
      split at accessed
      case h_1 client lookup =>
        split at accessed
        case isTrue listening => cases accessed
        case isFalse skipped => cases accessed
      case h_2 past =>
        cases accessed
        rw [effect, List.take_of_length_le (List.getElem?_eq_none_iff.mp past)]
  | writing message i client lookup active other =>
      simp only [access, lookup] at accessed
      cases accessed

theorem code_implements : Implements code effect :=
  implements_of_invariant (fun call before here shared => Progress before call here shared)
    progress_enter (fun _ _ _ _ _ _ => progress_goes_on) (fun _ _ _ _ _ _ => progress_ends)

end Loops

/-- However the accesses of the threads mix: while nobody holds the mutex, the table, the texts
written and the values returned are those of the calls run one after another on the whole table,
in the order in which they had the mutex, and a thread that has called never waits for ever, as
it or another thread can go on. -/
theorem calls_are_atomic (start : Shared) (actions : List (Action Call))
    (state : State Call Local Shared Result)
    (ran : run (step code) (begin start) actions = some state) :
    (state.owner = none → Replays effect start state.served state.shared) ∧
      ∀ thread phase, state.phases thread = some phase →
        ∃ action next, (∀ other call, action ≠ Action.call other call) ∧
          step code state action = some next := by
  have serialised := serialised_run code_implements ran
  exact ⟨serialised.idle, fun _ _ called => serialised.progress called⟩

def freeSlots : Shared := ⟨[⟨null, false, []⟩, ⟨null, false, []⟩], []⟩

/-- Two clients are added at a time: the second scans after the first has stored its slot. -/
def twoJoins : List (Action Call) :=
  [.call 0 (.addClient 5 (ascii "al")), .call 1 (.addClient 7 (ascii "bo")), .lock 1, .access 1,
    .access 1, .access 1, .access 1, .unlock 1, .lock 0, .access 0, .access 0, .access 0, .access 0,
    .access 0, .unlock 0]

theorem calls_are_atomic_two_joins :
    ∃ state, run (step code) (begin freeSlots) twoJoins = some state ∧
      state.shared.clients = [⟨7, true, ascii "bo"⟩, ⟨5, true, ascii "al"⟩] ∧
      Replays effect freeSlots state.served state.shared := by
  refine ⟨_, rfl, by decide, ?_⟩
  exact (calls_are_atomic freeSlots twoJoins _ rfl).1 rfl

end LinuxFff.ClientsMutex
