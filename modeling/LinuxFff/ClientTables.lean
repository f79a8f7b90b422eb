import LinuxFff.CString
import Mathlib.Data.List.Perm.Basic

/-!
# The `clients[]` arrays of the chat servers

`server_tls_final.c` keeps 100 slots with an `active` flag: a client takes the
first slot that is not active, and leaving clears the slot. `server.c` keeps a
dense array with a count: a client is put at the end, and leaving overwrites
the first entry with the client's descriptor by the last entry. `server_tls.c` keeps a
dense array of `client_t` addresses, and leaving shifts the entries behind the
client's to the left. All are given as lists; a dense array is the part below
`client_count`.
-/

namespace LinuxFff.ClientTables

open LinuxFff.CString

set_option autoImplicit false

def maxClients : Nat := 100

abbrev Ssl := Nat

def null : Ssl := 0

structure Client where
  ssl : Ssl
  active : Bool
  username : Bytes
  deriving DecidableEq

/-- `Client clients[MAX_CLIENTS]`, zero at the start. -/
def emptyClients : List Client := List.replicate maxClients ⟨null, false, []⟩

/-- `add_client`: the slot taken and the table, or `none` for the return value -1. -/
def addClient (ssl : Ssl) (username : Bytes) : List Client → Option (Nat × List Client)
  | [] => none
  | client :: rest =>
      if client.active then
        (addClient ssl username rest).map fun found => (found.1 + 1, client :: found.2)
      else some (0, ⟨ssl, true, username.take 50⟩ :: rest)

def removeClient (ssl : Ssl) : List Client → List Client
  | [] => []
  | client :: rest =>
      if client.active ∧ client.ssl = ssl then
        { client with active := false, ssl := null } :: rest
      else client :: removeClient ssl rest

/-- The loop of `broadcast`: the objects it writes to, in order. -/
def recipients (sender : Ssl) (clients : List Client) : List Ssl :=
  (clients.filter fun client => client.active ∧ client.ssl ≠ sender).map Client.ssl

def activeSsls (clients : List Client) : List Ssl :=
  (clients.filter Client.active).map Client.ssl

theorem active_ssls_cons (client : Client) (rest : List Client) :
    activeSsls (client :: rest) =
      if client.active then client.ssl :: activeSsls rest else activeSsls rest := by
  unfold activeSsls
  rw [List.filter_cons]
  split
  · rfl
  · rfl

theorem active_ssls_empty : activeSsls emptyClients = [] := by decide

theorem add_client_some {ssl : Ssl} {username : Bytes} {clients table : List Client} {slot : Nat}
    (added : addClient ssl username clients = some (slot, table)) :
    (activeSsls table).Perm (ssl :: activeSsls clients) ∧ table.length = clients.length := by
  induction clients generalizing slot table with
  | nil => cases added
  | cons client rest ih =>
      rw [addClient] at added
      split at added
      · rename_i taken
        obtain ⟨⟨place, tail⟩, found, same⟩ := Option.map_eq_some_iff.mp added
        obtain ⟨perm, length⟩ := ih found
        cases same
        rw [active_ssls_cons, active_ssls_cons, if_pos taken, if_pos taken, List.length_cons, length]
        exact ⟨(perm.cons client.ssl).trans (List.Perm.swap ssl client.ssl _), rfl⟩
      · rename_i isFree
        cases added
        rw [active_ssls_cons, active_ssls_cons, if_neg isFree]
        exact ⟨List.Perm.refl _, rfl⟩

theorem add_client_none {ssl : Ssl} {username : Bytes} {clients : List Client}
    (full : addClient ssl username clients = none) :
    (activeSsls clients).length = clients.length := by
  induction clients with
  | nil => rfl
  | cons client rest ih =>
      rw [addClient] at full
      split at full
      · rename_i taken
        rw [active_ssls_cons, if_pos taken, List.length_cons, List.length_cons,
          ih (Option.map_eq_none_iff.mp full)]
      · cases full

theorem add_client_set {ssl : Ssl} {username : Bytes} {clients table : List Client} {slot : Nat}
    (added : addClient ssl username clients = some (slot, table)) :
    (∃ client, clients[slot]? = some client ∧ client.active = false) ∧
      table = clients.set slot ⟨ssl, true, username.take 50⟩ := by
  induction clients generalizing slot table with
  | nil => cases added
  | cons client rest ih =>
      rw [addClient] at added
      split at added
      · obtain ⟨⟨place, tail⟩, found, same⟩ := Option.map_eq_some_iff.mp added
        obtain ⟨isFree, written⟩ := ih found
        cases same
        rw [List.getElem?_cons_succ, List.set_cons_succ, ← written]
        exact ⟨isFree, rfl⟩
      · rename_i isFree
        cases added
        exact ⟨⟨client, rfl, by simpa using isFree⟩, rfl⟩

theorem remove_client_set {ssl : Ssl} {clients : List Client} {slot : Nat} {client : Client}
    (held : clients[slot]? = some client) (active : client.active = true) (own : client.ssl = ssl)
    (only : ∀ other found, clients[other]? = some found → found.active = true →
      found.ssl = ssl → other = slot) :
    removeClient ssl clients = clients.set slot { client with active := false, ssl := null } := by
  induction clients generalizing slot with
  | nil => cases held
  | cons first rest ih =>
      rw [removeClient]
      split
      · rename_i found
        have here : 0 = slot := only 0 first rfl found.1 found.2
        subst here
        cases held
        rfl
      · rename_i other
        cases slot with
        | zero =>
            cases held
            exact absurd ⟨active, own⟩ other
        | succ slot =>
            rw [List.set_cons_succ, ih held]
            intro place found lookup foundActive foundOwn
            exact Nat.succ.inj (only (place + 1) found lookup foundActive foundOwn)

theorem remove_client_active (ssl : Ssl) (clients : List Client) :
    activeSsls (removeClient ssl clients) = (activeSsls clients).erase ssl := by
  induction clients with
  | nil => rfl
  | cons client rest ih =>
      rw [removeClient]
      split
      · rename_i found
        rw [active_ssls_cons, active_ssls_cons, if_pos found.1, found.2, List.erase_cons_head]
        rfl
      · rename_i other
        rw [active_ssls_cons, active_ssls_cons, ih]
        by_cases taken : client.active = true
        · have differs : client.ssl ≠ ssl := fun same => other ⟨taken, same⟩
          rw [if_pos taken, if_pos taken, List.erase_cons_tail]
          simpa using differs
        · rw [if_neg taken, if_neg taken]

theorem remove_client_length (ssl : Ssl) (clients : List Client) :
    (removeClient ssl clients).length = clients.length := by
  induction clients with
  | nil => rfl
  | cons client rest ih =>
      rw [removeClient]
      split
      · rfl
      · rw [List.length_cons, ih, List.length_cons]

theorem recipients_filter (sender : Ssl) (clients : List Client) :
    recipients sender clients = (activeSsls clients).filter fun ssl => ssl ≠ sender := by
  unfold recipients activeSsls
  rw [List.filter_map, List.filter_filter]
  congr 2
  funext client
  simp [Bool.and_comm]

/-- `client_t`, a table entry of `server.c`. -/
structure Entry where
  sock : Nat
  username : Bytes
  deriving DecidableEq

/-- The removal loop of `handle_client`: the first entry with the descriptor
is overwritten by the last entry, and the count goes down. -/
def removeEntry (sock : Nat) : List Entry → List Entry
  | [] => []
  | entry :: rest =>
      if entry.sock = sock then
        match rest.getLast? with
        | none => []
        | some last => last :: rest.dropLast
      else entry :: removeEntry sock rest

def socks (entries : List Entry) : List Nat := entries.map Entry.sock

theorem last_first_perm (entries : List Entry) :
    (match entries.getLast? with
      | none => []
      | some last => last :: entries.dropLast).Perm entries := by
  cases last : entries.getLast? with
  | none =>
      rw [List.getLast?_eq_none_iff.mp last]
  | some final =>
      obtain ⟨front, split⟩ := List.getLast?_eq_some_iff.mp last
      subst split
      rw [List.dropLast_concat]
      exact (List.perm_append_singleton final front).symm

theorem remove_entry_socks (sock : Nat) (entries : List Entry) :
    (socks (removeEntry sock entries)).Perm ((socks entries).erase sock) := by
  induction entries with
  | nil => exact List.Perm.nil
  | cons entry rest ih =>
      rw [removeEntry]
      split
      · rename_i found
        have perm := (last_first_perm rest).map Entry.sock
        have head : (socks (entry :: rest)).erase sock = rest.map Entry.sock := by
          rw [socks, List.map_cons, found, List.erase_cons_head]
        rw [head]
        exact perm
      · rename_i differs
        have head : (socks (entry :: rest)).erase sock = entry.sock :: (socks rest).erase sock := by
          rw [socks, List.map_cons, List.erase_cons_tail]
          · rfl
          · simpa using differs
        rw [head]
        exact ih.cons entry.sock

/-- The loop of `broadcast` in `server.c`: the descriptors it sends to. -/
def sendTargets (sender : Nat) (entries : List Entry) : List Nat :=
  (socks entries).filter fun sock => sock ≠ sender

/-- `clients[client_count++] = cli` of `server_tls.c`, which tests nothing:
`none` when the index is behind the array. -/
def registerCli (cli : Nat) (clients : List Nat) : Option (List Nat) :=
  if clients.length < maxClients then some (clients ++ [cli]) else none

/-- The removal loop of `server_tls.c`: the entries behind the client's move one
place to the left, and the count goes down. -/
def removeCli (cli : Nat) : List Nat → List Nat
  | [] => []
  | entry :: rest => if entry = cli then rest else entry :: removeCli cli rest

theorem remove_cli_erase (cli : Nat) (clients : List Nat) :
    removeCli cli clients = clients.erase cli := by
  induction clients with
  | nil => rfl
  | cons entry rest ih =>
      rw [removeCli]
      split
      · rename_i found
        rw [found, List.erase_cons_head]
      · rename_i differs
        rw [ih, List.erase_cons_tail]
        simpa using differs

/-- The loop of `broadcast` in `server_tls.c`: the clients it writes to. -/
def cliTargets (sender : Nat) (clients : List Nat) : List Nat :=
  clients.filter fun cli => cli ≠ sender

end LinuxFff.ClientTables
