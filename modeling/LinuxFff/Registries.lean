import LinuxFff.ClientTables
import LinuxFff.Roster
import LinuxFff.StepSystem
import Mathlib.Data.List.Pairwise

/-!
# The three client registries side by side

The servers keep their clients in a table with holes, in a dense array that
moves its last entry, and in a dense array that shifts. The same joins and
leaves are applied to the three, each as one step. A session is known by its
`SSL` object in the first, its descriptor in the second and the address of its
`client_t` in the third.
-/

namespace LinuxFff.Registries

open LinuxFff.CString LinuxFff.ClientTables LinuxFff.Roster LinuxFff.StepSystem

set_option autoImplicit false

structure Member where
  ssl : Ssl
  sock : Nat
  cli : Nat
  username : Bytes
  deriving DecidableEq

/-- `live` is what the registries are for; the tables are the arrays of
`server_tls_final.c`, `server.c` and `server_tls.c`. -/
structure State where
  live : List Member
  slots : List Client
  dense : List Entry
  shifted : List Nat

def initial : State := ⟨[], emptyClients, [], []⟩

inductive Operation where
  | join (member : Member)
  | leave (member : Member)
  | broadcast (sender : Option Member)

def Apart (left right : Member) : Prop :=
  left.ssl ≠ right.ssl ∧ left.sock ≠ right.sock ∧ left.cli ≠ right.cli

instance (left right : Member) : Decidable (Apart left right) :=
  inferInstanceAs (Decidable (_ ∧ _))

/-- The new session's identities are not in use, and there is room for it. -/
structure MayJoin (live : List Member) (member : Member) : Prop where
  nonNull : member.ssl ≠ null
  apart : ∀ other ∈ live, Apart member other
  room : live.length < maxClients

instance (live : List Member) (member : Member) : Decidable (MayJoin live member) :=
  decidable_of_iff (member.ssl ≠ null ∧ (∀ other ∈ live, Apart member other) ∧
      live.length < maxClients)
    ⟨fun all => ⟨all.1, all.2.1, all.2.2⟩, fun may => ⟨may.nonNull, may.apart, may.room⟩⟩

/-- The append in `main` of `server.c`. -/
def registerEntry (entry : Entry) (clients : List Entry) : Option (List Entry) :=
  if clients.length < maxClients then some (clients ++ [entry]) else none

/-- A registry that refuses the session stays as it is. -/
def State.join (state : State) (member : Member) : State where
  live := member :: state.live
  slots := ((addClient member.ssl member.username state.slots).map Prod.snd).getD state.slots
  dense := (registerEntry ⟨member.sock, member.username⟩ state.dense).getD state.dense
  shifted := (registerCli member.cli state.shifted).getD state.shifted

def State.leave (state : State) (member : Member) : State where
  live := state.live.erase member
  slots := removeClient member.ssl state.slots
  dense := removeEntry member.sock state.dense
  shifted := removeCli member.cli state.shifted

def step (state : State) : Operation → Option State
  | .join member => if MayJoin state.live member then some (state.join member) else none
  | .leave member => if member ∈ state.live then some (state.leave member) else none
  | .broadcast none => some state
  | .broadcast (some sender) => if sender ∈ state.live then some state else none

structure JoinSucceeds (state : State) (member : Member) : Prop where
  slots : ∃ slot table, addClient member.ssl member.username state.slots = some (slot, table)
  dense : ∃ table, registerEntry ⟨member.sock, member.username⟩ state.dense = some table
  shifted : ∃ table, registerCli member.cli state.shifted = some table

/-- The three arrays hold the live sessions, one entry each. -/
structure Agree (state : State) : Prop where
  apart : state.live.Pairwise Apart
  size : state.slots.length = maxClients
  slots : Lists Member.ssl (activeSsls state.slots) state.live
  dense : Lists Member.sock (socks state.dense) state.live
  shifted : Lists Member.cli state.shifted state.live
  nonNull : ∀ member ∈ state.live, member.ssl ≠ null

theorem agree_initial : Agree initial where
  apart := List.Pairwise.nil
  size := rfl
  slots := by
    have empty : activeSsls initial.slots = [] := active_ssls_empty
    rw [empty]
    exact lists_nil
  dense := lists_nil
  shifted := lists_nil
  nonNull := by
    intro member present
    cases present

instance : Std.Symm Apart where
  symm _ _ apart := ⟨Ne.symm apart.1, Ne.symm apart.2.1, Ne.symm apart.2.2⟩

theorem Apart.ne {left right : Member} (apart : Apart left right) : left ≠ right := by
  intro same
  exact apart.1 (congrArg Member.ssl same)

theorem Agree.dense_length {state : State} (agree : Agree state) :
    state.dense.length = state.live.length := by
  have length := agree.dense.length_eq
  rwa [socks, List.length_map] at length

section Steps

variable {state : State} {member : Member}

theorem Agree.dense_room (agree : Agree state) (may : MayJoin state.live member) (entry : Entry) :
    registerEntry entry state.dense = some (state.dense ++ [entry]) :=
  if_pos (agree.dense_length ▸ may.room)

theorem Agree.shifted_room (agree : Agree state) (may : MayJoin state.live member) (cli : Nat) :
    registerCli cli state.shifted = some (state.shifted ++ [cli]) :=
  if_pos (agree.shifted.length_eq ▸ may.room)

theorem join_succeeds (agree : Agree state) (may : MayJoin state.live member) :
    JoinSucceeds state member where
  slots := by
    cases added : addClient member.ssl member.username state.slots with
    | none =>
        have full := add_client_none added
        have room := may.room
        rw [agree.slots.length_eq, agree.size] at full
        omega
    | some found => exact ⟨found.1, found.2, rfl⟩
  dense := ⟨_, agree.dense_room may _⟩
  shifted := ⟨_, agree.shifted_room may _⟩

theorem agree_join (agree : Agree state) (may : MayJoin state.live member) :
    Agree (state.join member) := by
  have fresh : member ∉ state.live := fun present => (may.apart member present).ne rfl
  obtain ⟨slot, table, added⟩ := (join_succeeds agree may).slots
  obtain ⟨grown, length⟩ := add_client_some added
  have joined : state.join member =
      ⟨member :: state.live, table, state.dense ++ [⟨member.sock, member.username⟩],
        state.shifted ++ [member.cli]⟩ := by
    unfold State.join
    rw [added, agree.dense_room may, agree.shifted_room may]
    rfl
  rw [joined]
  constructor
  case apart => exact List.Pairwise.cons may.apart agree.apart
  case size => exact length.trans agree.size
  case slots => exact agree.slots.add fresh grown
  case dense =>
    apply agree.dense.add fresh
    rw [socks, List.map_append]
    exact List.perm_append_singleton _ _
  case shifted =>
    apply agree.shifted.add fresh
    exact List.perm_append_singleton _ _
  case nonNull =>
    intro other present
    rcases List.mem_cons.mp present with same | old
    · rw [same]
      exact may.nonNull
    · exact agree.nonNull other old

theorem agree_leave (agree : Agree state) (present : member ∈ state.live) :
    Agree (state.leave member) where
  apart := agree.apart.sublist List.erase_sublist
  size := (remove_client_length member.ssl state.slots).trans agree.size
  slots := by
    apply agree.slots.remove present
    rw [State.leave, remove_client_active]
  dense := agree.dense.remove present (remove_entry_socks member.sock state.dense)
  shifted := by
    apply agree.shifted.remove present
    rw [State.leave, remove_cli_erase]
  nonNull := fun other old => agree.nonNull other (List.mem_of_mem_erase old)

theorem agree_step {next : State} {operation : Operation} (agree : Agree state)
    (stepped : step state operation = some next) : Agree next := by
  cases operation with
  | join member =>
      simp only [step] at stepped
      split at stepped
      · rename_i may
        cases stepped
        exact agree_join agree may
      · cases stepped
  | leave member =>
      simp only [step] at stepped
      split at stepped
      · rename_i present
        cases stepped
        exact agree_leave agree present
      · cases stepped
  | broadcast sender =>
      cases sender with
      | none =>
          cases stepped
          exact agree
      | some member =>
          simp only [step] at stepped
          split at stepped
          · cases stepped
            exact agree
          · cases stepped

theorem Agree.only (agree : Agree state) {left right : Member} (leftLive : left ∈ state.live)
    (rightLive : right ∈ state.live) (same : ¬Apart left right) : left = right := by
  by_contra differ
  exact same (agree.apart.forall leftLive rightLive differ)

end Steps

/-- Whom a broadcast of a session, or of the server, writes to. -/
structure SameRecipients (state : State) : Prop where
  slots : ∀ sender ∈ state.live, (recipients sender.ssl state.slots).Perm
    ((state.live.filter fun member => member ≠ sender).map Member.ssl)
  dense : ∀ sender ∈ state.live, (sendTargets sender.sock state.dense).Perm
    ((state.live.filter fun member => member ≠ sender).map Member.sock)
  shifted : ∀ sender ∈ state.live, (cliTargets sender.cli state.shifted).Perm
    ((state.live.filter fun member => member ≠ sender).map Member.cli)
  server : (recipients null state.slots).Perm (state.live.map Member.ssl)

theorem same_recipients {state : State} (agree : Agree state) : SameRecipients state where
  slots := by
    intro sender present
    rw [recipients_filter]
    apply agree.slots.others
    intro member live same
    exact agree.only live present fun apart => apart.1 same
  dense := by
    intro sender present
    apply agree.dense.others
    intro member live same
    exact agree.only live present fun apart => apart.2.1 same
  shifted := by
    intro sender present
    apply agree.shifted.others
    intro member live same
    exact agree.only live present fun apart => apart.2.2 same
  server := by
    have all : recipients null state.slots = activeSsls state.slots := by
      rw [recipients_filter]
      apply List.filter_eq_self.mpr
      intro ssl listed
      obtain ⟨member, live, same⟩ := List.mem_map.mp (agree.slots.listed.mem_iff.mp listed)
      simpa [← same] using agree.nonNull member live
    rw [all]
    exact agree.slots.listed

/-- After any sequence of joins, leaves and broadcasts the three registries
hold exactly the live sessions, once each; a broadcast writes to the same
sessions in all of them, and each of them takes the next session. -/
theorem registries_equivalent (operations : List Operation) (state : State)
    (ran : run step initial operations = some state) :
    Lists Member.ssl (activeSsls state.slots) state.live ∧
      Lists Member.sock (socks state.dense) state.live ∧
      Lists Member.cli state.shifted state.live ∧
      state.dense.length = state.live.length ∧ state.shifted.length = state.live.length ∧
      SameRecipients state ∧
      ∀ member, MayJoin state.live member → JoinSucceeds state member := by
  have agree : Agree state :=
    run_keeps_always (fun _ _ _ holds stepped => agree_step holds stepped) agree_initial ran
  exact ⟨agree.slots, agree.dense, agree.shifted, agree.dense_length, agree.shifted.length_eq,
    same_recipients agree, fun _ may => join_succeeds agree may⟩

def lan : Member := ⟨7, 4, 40, ascii "lan"⟩
def minh : Member := ⟨8, 5, 41, ascii "minh"⟩
def hoa : Member := ⟨7, 4, 40, ascii "hoa"⟩

/-- The first session leaves, and a third one takes over its identities. -/
def reusedIdentities : List Operation :=
  [.join lan, .join minh, .broadcast (some lan), .leave lan, .join hoa, .broadcast none]

theorem registries_equivalent_reused_identities :
    ∃ state, run step initial reusedIdentities = some state ∧ state.live = [hoa, minh] ∧
      (socks state.dense).Perm [4, 5] ∧ SameRecipients state := by
  have equivalent := registries_equivalent reusedIdentities _ rfl
  exact ⟨_, rfl, rfl, equivalent.2.1.listed.trans (List.Perm.refl _), equivalent.2.2.2.2.2.1⟩

end LinuxFff.Registries
