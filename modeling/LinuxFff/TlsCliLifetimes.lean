import LinuxFff.TlsCliServer

/-!
# Uses of released connections in `server_tls.c`

While a thread tears its connection down, its `client_t` is still listed, so
the broadcasts of the other threads reach an object that is closed or freed.
Which steps do so can be told from the phases of the sessions alone.
-/

namespace LinuxFff.TlsCliLifetimes

open LinuxFff.ClientTables LinuxFff.CString LinuxFff.Ownership
open LinuxFff.StepSystem LinuxFff.TlsCliServer

set_option autoImplicit false

@[simp]
def Phase.HoldsSock : Phase → Prop
  | .discarding | .shuttingDown | .freeingSsl | .removing | .freeing | .ended => False
  | _ => True

@[simp]
def Phase.HoldsSsl : Phase → Prop
  | .accepted | .removing | .freeing | .ended => False
  | _ => True

@[simp]
def Phase.HoldsCli : Phase → Prop
  | .accepted | .handshake | .refusing | .discarding | .credentials | .allocating | .ended => False
  | _ => True

@[simp]
def Phase.Listed : Phase → Prop
  | .replaying | .reading | .saving _ | .broadcasting _ | .closing | .shuttingDown | .freeingSsl
  | .removing => True
  | _ => False

/-- The descriptor is closed and the `client_t` still listed. -/
@[simp]
def Phase.Closed : Phase → Prop
  | .shuttingDown | .freeingSsl | .removing => True
  | _ => False

structure Tabled (state : State) : Prop where
  distinct : state.clients.Nodup
  entries : ∀ cli ∈ state.clients, ∃ session found, state.sessions session = some found ∧
    Phase.Listed found.phase ∧ found.cli = cli
  listed : ∀ session found, state.sessions session = some found → Phase.Listed found.phase →
    found.cli ∈ state.clients

/-- Each number belongs to the session that holds it. -/
structure Wired (state : State) : Prop where
  socks : Owns state.sessions Session.sock (fun found => Phase.HoldsSock found.phase) state.socks
  ssls : Owns state.sessions Session.ssl (fun found => Phase.HoldsSsl found.phase) state.ssls
  clis : Owns state.sessions Session.cli (fun found => Phase.HoldsCli found.phase) state.clis
  tabled : Tabled state

theorem wired_initial : Wired initial where
  socks := owns_nothing
  ssls := owns_nothing
  clis := owns_nothing
  tabled := by
    constructor
    case distinct => exact List.nodup_nil
    case entries =>
      intro cli member
      cases member
    case listed =>
      intro session found impossible
      cases impossible

section Faults

def sslFaults (state : State) (session : Nat) : List Fault :=
  match state.sessions session with
  | none => []
  | some found =>
      if state.ssls found.ssl ≠ some session then [.freedSsl found.ssl]
      else if state.socks found.sock ≠ some session then [.closedSock found.sock]
      else []

def cliFaults (state : State) (cli : Nat) : List Fault :=
  match state.clis cli with
  | none => [.freedCli cli]
  | some session => sslFaults state session

variable {state : State} {session : Nat}

theorem ssl_write_frame (state : State) (session : Nat) (text : Bytes) :
    ∃ written, state.sslWrite session text =
      { state with written, faults := state.faults ++ sslFaults state session } := by
  cases lookup : state.sessions session with
  | none => exact ⟨state.written, by simp [State.sslWrite, sslFaults, lookup]⟩
  | some found =>
      by_cases alive : state.ssls found.ssl = some session
      · by_cases isOpen : state.socks found.sock = some session
        · exact ⟨Function.update state.written session (state.written session ++ [text]),
            by simp [State.sslWrite, sslFaults, lookup, alive, isOpen]⟩
        · exact ⟨state.written, by
            simp [State.sslWrite, sslFaults, State.fault, lookup, alive, isOpen]⟩
      · exact ⟨state.written, by simp [State.sslWrite, sslFaults, State.fault, lookup, alive]⟩

theorem write_cli_frame (text : Bytes) (state : State) (cli : Nat) :
    ∃ written, state.writeCli text cli =
      { state with written, faults := state.faults ++ cliFaults state cli } := by
  cases owner : state.clis cli with
  | none => exact ⟨state.written, by simp [State.writeCli, cliFaults, State.fault, owner]⟩
  | some session =>
      obtain ⟨written, writes⟩ := ssl_write_frame state session text
      exact ⟨written, by simp only [State.writeCli, cliFaults, owner, writes]⟩

/-- Writes change neither the sessions nor the tables, so the next write does
right or wrong as the first. -/
theorem writes_frame {Target : Type} (write : State → Target → State)
    (faulty : State → Target → List Fault)
    (once : ∀ state target, ∃ written,
      write state target = { state with written, faults := state.faults ++ faulty state target })
    (steady : ∀ state written faults target,
      faulty { state with written, faults } target = faulty state target)
    (targets : List Target) (state : State) :
    ∃ written, targets.foldl write state =
      { state with written, faults := state.faults ++ targets.flatMap (faulty state) } := by
  induction targets generalizing state with
  | nil => exact ⟨state.written, by simp⟩
  | cons target rest ih =>
      obtain ⟨written, first⟩ := once state target
      obtain ⟨last, others⟩ := ih (write state target)
      have same : faulty (write state target) = faulty state := by
        funext other
        rw [first, steady]
      refine ⟨last, ?_⟩
      rw [List.foldl_cons, others, same, first, List.flatMap_cons, List.append_assoc]

theorem broadcast_frame (state : State) (found : Session) (buffer : Bytes) :
    ∃ written, state.broadcast found buffer =
      { state with written, faults := state.faults ++
          (cliTargets found.cli state.clients).flatMap (cliFaults state) } :=
  writes_frame _ cliFaults (write_cli_frame _) (fun _ _ _ _ => rfl) _ state

theorem replay_frame (state : State) (session : Nat) :
    ∃ written, state.replay session =
      { state with written, faults := state.faults ++
          (replayWrites state.chatlog).flatMap fun _ => sslFaults state session } :=
  writes_frame _ (fun state _ => sslFaults state session)
    (fun state text => ssl_write_frame state session text) (fun _ _ _ _ => rfl) _ state

variable {found : Session}

theorem Wired.ssl_faults_iff (wired : Wired state) (lookup : state.sessions session = some found) :
    sslFaults state session = [] ↔
      Phase.HoldsSsl found.phase ∧ Phase.HoldsSock found.phase := by
  have ssl : state.ssls found.ssl = some session ↔ Phase.HoldsSsl found.phase := by
    constructor
    · intro owned
      obtain ⟨result, started, _, holds⟩ := wired.ssls.owned found.ssl session owned
      rw [lookup] at started
      cases started
      exact holds
    · exact wired.ssls.held session found lookup
  have sock : state.socks found.sock = some session ↔ Phase.HoldsSock found.phase := by
    constructor
    · intro owned
      obtain ⟨result, started, _, holds⟩ := wired.socks.owned found.sock session owned
      rw [lookup] at started
      cases started
      exact holds
    · exact wired.socks.held session found lookup
  simp only [sslFaults, lookup]
  rw [← ssl, ← sock]
  split <;> simp_all

theorem Wired.use_cli (wired : Wired state) (lookup : state.sessions session = some found)
    (holds : Phase.HoldsCli found.phase) : state.useCli session found = state := by
  rw [State.useCli, if_pos (wired.clis.held session found lookup holds)]

theorem listed_holds {phase : Phase} (listed : Phase.Listed phase) :
    Phase.HoldsCli phase ∧
      (Phase.Closed phase ↔ ¬(Phase.HoldsSsl phase ∧ Phase.HoldsSock phase)) := by
  cases phase <;>
    simp_all

theorem closed_listed {phase : Phase} (closed : Phase.Closed phase) : Phase.Listed phase := by
  cases phase <;> trivial

theorem Wired.cli_faults (wired : Wired state) (lookup : state.sessions session = some found)
    (listed : Phase.Listed found.phase) :
    cliFaults state found.cli = [] ↔ ¬Phase.Closed found.phase := by
  have owner := wired.clis.held session found lookup (listed_holds listed).1
  simp only [cliFaults, owner]
  rw [wired.ssl_faults_iff lookup, (listed_holds listed).2, not_not]

/-- A broadcast is in order when no other listed session has been closed. -/
theorem Wired.broadcast_faults_iff (wired : Wired state)
    (lookup : state.sessions session = some found) (listed : Phase.Listed found.phase) :
    (cliTargets found.cli state.clients).flatMap (cliFaults state) = [] ↔
      ∀ other peer, other ≠ session → state.sessions other = some peer →
        ¬Phase.Closed peer.phase := by
  have mine := wired.clis.held session found lookup (listed_holds listed).1
  rw [List.flatMap_eq_nil_iff]
  constructor
  · intro right other peer apart peerLookup closed
    have peerListed := closed_listed closed
    have its := wired.clis.held other peer peerLookup (listed_holds peerListed).1
    have differs : peer.cli ≠ found.cli := by
      intro same
      rw [same, mine] at its
      exact apart (Option.some.inj its).symm
    have target : peer.cli ∈ cliTargets found.cli state.clients := by
      apply List.mem_filter.mpr
      exact ⟨wired.tabled.listed other peer peerLookup peerListed, by simpa using differs⟩
    exact (wired.cli_faults peerLookup peerListed).mp (right peer.cli target) closed
  · intro alone cli target
    obtain ⟨member, differs⟩ := List.mem_filter.mp target
    obtain ⟨other, peer, peerLookup, peerListed, same⟩ := wired.tabled.entries cli member
    have apart : other ≠ session := by
      intro equal
      rw [equal, lookup] at peerLookup
      cases peerLookup
      simp [same] at differs
    rw [← same]
    exact (wired.cli_faults peerLookup peerListed).mpr (alone other peer apart peerLookup)

end Faults

section Table

variable {state after : State} {session : Nat} {found moved : Session} {before : Option Session}

theorem lookup_update {sessions : Nat → Option Session} {other : Nat} {result : Session}
    (lookup : Function.update sessions session (some moved) other = some result) :
    other = session ∧ result = moved ∨ other ≠ session ∧ sessions other = some result := by
  by_cases same : other = session
  · rw [same, Function.update_self] at lookup
    exact Or.inl ⟨same, (Option.some.inj lookup).symm⟩
  · rw [Function.update_of_ne same] at lookup
    exact Or.inr ⟨same, lookup⟩

theorem Tabled.update (tabled : Tabled state)
    (sessions : after.sessions = Function.update state.sessions session (some moved))
    (clients : after.clients = state.clients)
    (stays : ∀ found, state.sessions session = some found → Phase.Listed found.phase →
      Phase.Listed moved.phase ∧ moved.cli = found.cli)
    (stood : Phase.Listed moved.phase → ∃ found, state.sessions session = some found ∧
      Phase.Listed found.phase ∧ found.cli = moved.cli) : Tabled after where
  distinct := by
    rw [clients]
    exact tabled.distinct
  entries := by
    intro cli member
    rw [clients] at member
    obtain ⟨other, peer, peerLookup, listed, same⟩ := tabled.entries cli member
    rw [sessions]
    by_cases equal : other = session
    · rw [equal] at peerLookup
      obtain ⟨still, sameCli⟩ := stays peer peerLookup listed
      exact ⟨session, moved, Function.update_self _ _ _, still, sameCli.trans same⟩
    · exact ⟨other, peer, (Function.update_of_ne equal _ _).trans peerLookup, listed, same⟩
  listed := by
    intro other peer peerLookup listed
    rw [sessions] at peerLookup
    rw [clients]
    rcases lookup_update peerLookup with here | elsewhere
    · rw [here.2] at listed ⊢
      obtain ⟨found, lookup, before, sameCli⟩ := stood listed
      rw [← sameCli]
      exact tabled.listed session found lookup before
    · exact tabled.listed other peer elsewhere.2 listed

theorem Tabled.keep (tabled : Tabled state) (lookup : state.sessions session = some found)
    (sessions : after.sessions = Function.update state.sessions session (some moved))
    (clients : after.clients = state.clients) (sameCli : moved.cli = found.cli)
    (stays : Phase.Listed moved.phase ↔ Phase.Listed found.phase) : Tabled after := by
  apply tabled.update sessions clients
  · intro other started listed
    rw [lookup] at started
    cases started
    exact ⟨stays.mpr listed, sameCli⟩
  · intro listed
    exact ⟨found, lookup, stays.mp listed, sameCli.symm⟩

theorem Tabled.idle (tabled : Tabled state) (lookup : state.sessions session = before)
    (sessions : after.sessions = Function.update state.sessions session (some moved))
    (clients : after.clients = state.clients)
    (free : ∀ found, before = some found → ¬Phase.Listed found.phase)
    (unlisted : ¬Phase.Listed moved.phase) : Tabled after := by
  apply tabled.update sessions clients
  · intro found started listed
    exact absurd listed (free found (lookup.symm.trans started))
  · intro listed
    exact absurd listed unlisted

theorem Wired.register (wired : Wired state) (lookup : state.sessions session = some found)
    (sessions : after.sessions = Function.update state.sessions session (some moved))
    (clients : after.clients = state.clients ++ [found.cli]) (sameCli : moved.cli = found.cli)
    (holds : Phase.HoldsCli found.phase) (unlisted : ¬Phase.Listed found.phase)
    (listed : Phase.Listed moved.phase) : Tabled after where
  distinct := by
    rw [clients]
    apply List.nodup_append.mpr
    refine ⟨wired.tabled.distinct, by simp, ?_⟩
    intro cli member other same
    rw [List.mem_singleton.mp same]
    intro equal
    obtain ⟨owner, peer, peerLookup, peerListed, isCli⟩ := wired.tabled.entries cli member
    have its := wired.clis.held owner peer peerLookup (listed_holds peerListed).1
    rw [isCli, equal, wired.clis.held session found lookup holds] at its
    rw [← Option.some.inj its, lookup] at peerLookup
    cases peerLookup
    exact unlisted peerListed
  entries := by
    intro cli member
    rw [clients] at member
    rw [sessions]
    rcases List.mem_append.mp member with old | new
    · obtain ⟨other, peer, peerLookup, peerListed, same⟩ := wired.tabled.entries cli old
      have apart : other ≠ session := by
        intro equal
        rw [equal, lookup] at peerLookup
        cases peerLookup
        exact unlisted peerListed
      exact ⟨other, peer, (Function.update_of_ne apart _ _).trans peerLookup, peerListed, same⟩
    · rw [List.mem_singleton.mp new]
      exact ⟨session, moved, Function.update_self _ _ _, listed, sameCli⟩
  listed := by
    intro other peer peerLookup peerListed
    rw [sessions] at peerLookup
    rw [clients, List.mem_append]
    rcases lookup_update peerLookup with here | elsewhere
    · right
      rw [here.2, sameCli]
      exact List.mem_singleton_self _
    · left
      exact wired.tabled.listed other peer elsewhere.2 peerListed

theorem Wired.remove (wired : Wired state) (lookup : state.sessions session = some found)
    (sessions : after.sessions = Function.update state.sessions session (some moved))
    (clients : after.clients = state.clients.erase found.cli)
    (listed : Phase.Listed found.phase) (unlisted : ¬Phase.Listed moved.phase) :
    Tabled after where
  distinct := by
    rw [clients]
    exact wired.tabled.distinct.erase _
  entries := by
    intro cli member
    rw [clients, wired.tabled.distinct.mem_erase_iff] at member
    obtain ⟨other, peer, peerLookup, peerListed, same⟩ := wired.tabled.entries cli member.2
    have apart : other ≠ session := by
      intro equal
      rw [equal, lookup] at peerLookup
      cases peerLookup
      exact member.1 same.symm
    rw [sessions]
    exact ⟨other, peer, (Function.update_of_ne apart _ _).trans peerLookup, peerListed, same⟩
  listed := by
    intro other peer peerLookup peerListed
    rw [sessions] at peerLookup
    rcases lookup_update peerLookup with here | elsewhere
    · rw [here.2] at peerListed
      exact absurd peerListed unlisted
    · rw [clients, wired.tabled.distinct.mem_erase_iff]
      refine ⟨?_, wired.tabled.listed other peer elsewhere.2 peerListed⟩
      intro same
      have its := wired.clis.held other peer elsewhere.2 (listed_holds peerListed).1
      rw [same, wired.clis.held session found lookup (listed_holds listed).1] at its
      exact elsewhere.1 (Option.some.inj its).symm

end Table

/-- Neither a shutdown, whose descriptor is closed already, nor a broadcast that
reaches a closed session. -/
def InOrder (state : State) : Action → Prop
  | .proceed session => ∀ found, state.sessions session = some found →
      found.phase ≠ .shuttingDown ∧
        ∀ buffer, found.phase = .broadcasting buffer →
          ∀ other peer, other ≠ session → state.sessions other = some peer →
            ¬Phase.Closed peer.phase
  | _ => True

section Step

variable {state base next : State} {session : Nat} {found moved : Session}

theorem Wired.writes (wired : Wired state) (busy : Option Nat) (chatlog : Bytes)
    (written : Nat → List Bytes) (faults : List Fault) :
    Wired { state with busy, chatlog, written, faults } where
  socks := wired.socks
  ssls := wired.ssls
  clis := wired.clis
  tabled := ⟨wired.tabled.distinct, wired.tabled.entries, wired.tabled.listed⟩

theorem Wired.stay (wired : Wired base) (lookup : base.sessions session = some found)
    (sock : moved.sock = found.sock) (ssl : moved.ssl = found.ssl) (cli : moved.cli = found.cli)
    (holdsSock : Phase.HoldsSock moved.phase ↔ Phase.HoldsSock found.phase)
    (holdsSsl : Phase.HoldsSsl moved.phase ↔ Phase.HoldsSsl found.phase)
    (holdsCli : Phase.HoldsCli moved.phase ↔ Phase.HoldsCli found.phase)
    (listed : Phase.Listed moved.phase ↔ Phase.Listed found.phase) :
    Wired (base.move session moved) where
  socks := wired.socks.move lookup sock holdsSock
  ssls := wired.ssls.move lookup ssl holdsSsl
  clis := wired.clis.move lookup cli holdsCli
  tabled := wired.tabled.keep lookup rfl rfl cli listed

theorem Wired.close (wired : Wired base) (lookup : base.sessions session = some found)
    (ssl : moved.ssl = found.ssl) (cli : moved.cli = found.cli)
    (wasOpen : Phase.HoldsSock found.phase) (closed : ¬Phase.HoldsSock moved.phase)
    (holdsSsl : Phase.HoldsSsl moved.phase ↔ Phase.HoldsSsl found.phase)
    (holdsCli : Phase.HoldsCli moved.phase ↔ Phase.HoldsCli found.phase)
    (listed : Phase.Listed moved.phase ↔ Phase.Listed found.phase) :
    Wired ((base.close found.sock).move session moved) where
  socks := wired.socks.release lookup wasOpen closed
  ssls := wired.ssls.move lookup ssl holdsSsl
  clis := wired.clis.move lookup cli holdsCli
  tabled := wired.tabled.keep lookup rfl rfl cli listed

theorem Wired.ssl_free (wired : Wired base) (lookup : base.sessions session = some found)
    (sock : moved.sock = found.sock) (cli : moved.cli = found.cli)
    (wasAlive : Phase.HoldsSsl found.phase) (freed : ¬Phase.HoldsSsl moved.phase)
    (holdsSock : Phase.HoldsSock moved.phase ↔ Phase.HoldsSock found.phase)
    (holdsCli : Phase.HoldsCli moved.phase ↔ Phase.HoldsCli found.phase)
    (listed : Phase.Listed moved.phase ↔ Phase.Listed found.phase) :
    Wired ((base.sslFree found.ssl).move session moved) where
  socks := wired.socks.move lookup sock holdsSock
  ssls := wired.ssls.release lookup wasAlive freed
  clis := wired.clis.move lookup cli holdsCli
  tabled := wired.tabled.keep lookup rfl rfl cli listed

theorem in_order_elsewhere (lookup : state.sessions session = some found)
    (noShutdown : found.phase ≠ .shuttingDown)
    (noBroadcast : ∀ buffer, found.phase ≠ .broadcasting buffer) :
    InOrder state (.proceed session) := by
  intro other same
  rw [lookup] at same
  cases same
  exact ⟨noShutdown, fun buffer here => absurd here (noBroadcast buffer)⟩

theorem harmless (lookup : state.sessions session = some found)
    (noShutdown : found.phase ≠ .shuttingDown)
    (noBroadcast : ∀ buffer, found.phase ≠ .broadcasting buffer)
    (faults : next.faults = state.faults) :
    next.faults = [] ↔ state.faults = [] ∧ InOrder state (.proceed session) := by
  rw [faults]
  exact ⟨fun none => ⟨none, in_order_elsewhere lookup noShutdown noBroadcast⟩, fun both => both.1⟩

theorem replay_harmless (wired : Wired state) (lookup : state.sessions session = some found)
    (holdsSsl : Phase.HoldsSsl found.phase) (holdsSock : Phase.HoldsSock found.phase) :
    ∃ written, state.replay session = { state with written } := by
  obtain ⟨written, replays⟩ := replay_frame state session
  rw [(wired.ssl_faults_iff lookup).mpr ⟨holdsSsl, holdsSock⟩] at replays
  refine ⟨written, ?_⟩
  rw [replays]
  simp

/-- The only write that is wrong for some states and right for others. -/
theorem broadcast_sound {buffer : Bytes} (wired : Wired state)
    (lookup : state.sessions session = some found) (here : found.phase = .broadcasting buffer)
    (stepped : some ((state.broadcast found buffer).move session
      { found with phase := .reading }) = some next) :
    Wired next ∧ (next.faults = [] ↔ state.faults = [] ∧ InOrder state (.proceed session)) := by
  obtain ⟨written, broadcasts⟩ := broadcast_frame state found buffer
  rw [broadcasts] at stepped
  cases stepped
  constructor
  · apply (wired.writes state.busy state.chatlog written _).stay lookup <;> simp [here]
  · simp only [State.move, List.append_eq_nil_iff,
      wired.broadcast_faults_iff lookup (by simp [here])]
    apply and_congr_right
    intro _
    constructor
    · intro alone other same
      rw [lookup] at same
      cases same
      exact ⟨by simp [here], fun _ _ => alone⟩
    · intro inOrder
      exact (inOrder found lookup).2 buffer here

theorem shutdown_sound (wired : Wired state) (lookup : state.sessions session = some found)
    (here : found.phase = .shuttingDown)
    (stepped : some ((state.sslWrite session []).move session
      { found with phase := .freeingSsl }) = some next) :
    Wired next ∧ (next.faults = [] ↔ state.faults = [] ∧ InOrder state (.proceed session)) := by
  obtain ⟨written, writes⟩ := ssl_write_frame state session []
  have faulty : sslFaults state session ≠ [] := by
    rw [ne_eq, wired.ssl_faults_iff lookup]
    simp [here]
  rw [writes] at stepped
  cases stepped
  constructor
  · apply (wired.writes state.busy state.chatlog written _).stay lookup <;> simp [here]
  · simp only [State.move, List.append_eq_nil_iff, faulty, and_false, false_iff, not_and]
    intro _ inOrder
    exact (inOrder found lookup).1 here

theorem proceed_sound (wired : Wired state) (lookup : state.sessions session = some found)
    (stepped : proceed state session found = some next) :
    Wired next ∧ (next.faults = [] ↔ state.faults = [] ∧ InOrder state (.proceed session)) := by
  unfold proceed at stepped
  split at stepped
  case h_1 here =>
    cases stepped
    refine ⟨?_, harmless lookup (by simp [here]) (by simp [here]) rfl⟩
    apply wired.close lookup <;> simp [here]
  case h_2 here =>
    cases stepped
    refine ⟨?_, harmless lookup (by simp [here]) (by simp [here]) rfl⟩
    have freed : Wired ((state.sslFree found.ssl).move session { found with phase := .ended }) := by
      apply wired.ssl_free lookup <;> simp [here]
    exact freed.writes none state.chatlog state.written state.faults
  case h_3 here =>
    obtain ⟨clients, registered, same⟩ := Option.map_eq_some_iff.mp stepped
    cases same
    refine ⟨?_, harmless lookup (by simp [here]) (by simp [here]) rfl⟩
    have table : clients = state.clients ++ [found.cli] := by
      simp only [registerCli, Option.ite_none_right_eq_some, Option.some.injEq] at registered
      exact registered.2.symm
    constructor
    case socks => exact wired.socks.move lookup rfl (by simp [here])
    case ssls => exact wired.ssls.move lookup rfl (by simp [here])
    case clis => exact wired.clis.move lookup rfl (by simp [here])
    case tabled =>
      exact wired.register lookup rfl table rfl (by simp [here]) (by simp [here]) trivial
  case h_4 here =>
    rw [wired.use_cli lookup (by simp [here])] at stepped
    obtain ⟨written, replays⟩ := replay_harmless wired lookup (by simp [here]) (by simp [here])
    rw [replays] at stepped
    cases stepped
    refine ⟨?_, harmless lookup (by simp [here]) (by simp [here]) rfl⟩
    apply (wired.writes state.busy state.chatlog written state.faults).stay lookup <;> simp [here]
  case h_5 buffer here =>
    rw [wired.use_cli lookup (by simp [here])] at stepped
    cases stepped
    refine ⟨?_, harmless lookup (by simp [here]) (by simp [here]) rfl⟩
    have saved := wired.writes state.busy (state.chatlog ++ savedText found.username buffer)
      state.written state.faults
    apply saved.stay lookup <;> simp [here]
  case h_6 buffer here =>
    rw [wired.use_cli lookup (by simp [here])] at stepped
    exact broadcast_sound wired lookup here stepped
  case h_7 here =>
    rw [wired.use_cli lookup (by simp [here])] at stepped
    cases stepped
    refine ⟨?_, harmless lookup (by simp [here]) (by simp [here]) rfl⟩
    apply wired.close lookup <;> simp [here]
  case h_8 here =>
    rw [wired.use_cli lookup (by simp [here])] at stepped
    exact shutdown_sound wired lookup here stepped
  case h_9 here =>
    rw [wired.use_cli lookup (by simp [here])] at stepped
    cases stepped
    refine ⟨?_, harmless lookup (by simp [here]) (by simp [here]) rfl⟩
    apply wired.ssl_free lookup <;> simp [here]
  case h_10 here =>
    cases stepped
    refine ⟨?_, harmless lookup (by simp [here]) (by simp [here]) rfl⟩
    constructor
    case socks => exact wired.socks.move lookup rfl (by simp [here])
    case ssls => exact wired.ssls.move lookup rfl (by simp [here])
    case clis => exact wired.clis.move lookup rfl (by simp [here])
    case tabled => exact wired.remove lookup rfl (remove_cli_erase _ _) (by simp [here]) id
  case h_11 here =>
    cases stepped
    refine ⟨?_, harmless lookup (by simp [here]) (by simp [here]) rfl⟩
    constructor
    case socks => exact wired.socks.move lookup rfl (by simp [here])
    case ssls => exact wired.ssls.move lookup rfl (by simp [here])
    case clis => exact wired.clis.release lookup (by simp [here]) id
    case tabled => exact wired.tabled.keep lookup rfl rfl rfl (by simp [here])
  case h_12 => cases stepped

theorem quiet_sound {action : Action} (proceeds : ∀ session, action ≠ .proceed session)
    (faults : next.faults = state.faults) :
    next.faults = [] ↔ state.faults = [] ∧ InOrder state action := by
  rw [faults]
  cases action with
  | proceed session => exact absurd rfl (proceeds session)
  | _ => simp [InOrder]

theorem ssl_write_live (wired : Wired state) (lookup : state.sessions session = some found)
    (holdsSsl : Phase.HoldsSsl found.phase) (holdsSock : Phase.HoldsSock found.phase)
    (text : Bytes) : ∃ written, state.sslWrite session text = { state with written } := by
  obtain ⟨written, writes⟩ := ssl_write_frame state session text
  rw [(wired.ssl_faults_iff lookup).mpr ⟨holdsSsl, holdsSock⟩, List.append_nil] at writes
  exact ⟨written, writes⟩

theorem written_sound (wired : Wired state) (lookup : state.sessions session = some found)
    (text : Bytes) (live : Phase.HoldsSsl found.phase ∧ Phase.HoldsSock found.phase)
    (kept : ∀ written, Wired ({ state with written }.move session moved)) :
    Wired ((state.sslWrite session text).move session moved) ∧
      ((state.sslWrite session text).move session moved).faults = state.faults := by
  obtain ⟨written, writes⟩ := ssl_write_live wired lookup live.1 live.2 text
  rw [writes]
  exact ⟨kept written, rfl⟩

theorem accept_sound {sock : Nat} (wired : Wired state)
    (stepped : step state (.accept session sock) = some next) :
    Wired next ∧ next.faults = state.faults := by
  simp only [step, Option.ite_none_right_eq_some, Option.some.injEq] at stepped
  obtain ⟨⟨unborn, _, unused⟩, same⟩ := stepped
  subst same
  have nobody : ∀ found, state.sessions session = some found → False := by
    intro found started
    rw [unborn] at started
    cases started
  refine ⟨?_, rfl⟩
  constructor
  case socks => exact wired.socks.acquire unborn unused rfl trivial
  case ssls => exact wired.ssls.idle (fun found started => (nobody found started).elim) id
  case clis => exact wired.clis.idle (fun found started => (nobody found started).elim) id
  case tabled => exact wired.tabled.idle unborn rfl rfl (by simp) id

theorem ssl_new_sound {ssl : Nat} (wired : Wired state)
    (stepped : step state (.sslNew session ssl) = some next) :
    Wired next ∧ next.faults = state.faults := by
  simp only [step] at stepped
  split at stepped
  · cases stepped
  case h_2 found lookup =>
    simp only [Option.ite_none_right_eq_some, Option.some.injEq] at stepped
    obtain ⟨⟨here, _, unused⟩, same⟩ := stepped
    subst same
    refine ⟨?_, rfl⟩
    constructor
    case socks => exact wired.socks.move lookup rfl (by simp [here])
    case ssls => exact wired.ssls.gain lookup (by simp [here]) unused rfl trivial
    case clis => exact wired.clis.move lookup rfl (by simp [here])
    case tabled => exact wired.tabled.keep lookup rfl rfl rfl (by simp [here])

theorem malloc_sound {cli : Nat} (wired : Wired state)
    (stepped : step state (.malloc session cli) = some next) :
    Wired next ∧ next.faults = state.faults := by
  simp only [step] at stepped
  split at stepped
  · cases stepped
  case h_2 found lookup =>
    simp only [Option.ite_none_right_eq_some, Option.some.injEq] at stepped
    obtain ⟨⟨here, unused⟩, same⟩ := stepped
    subst same
    refine ⟨?_, rfl⟩
    constructor
    case socks => exact wired.socks.move lookup rfl (by simp [here])
    case ssls => exact wired.ssls.move lookup rfl (by simp [here])
    case clis => exact wired.clis.gain lookup (by simp [here]) unused rfl trivial
    case tabled =>
      refine wired.tabled.idle lookup rfl rfl ?_ id
      intro peer started
      cases started
      simp [here]

theorem handshake_sound {success : Bool} (wired : Wired state)
    (stepped : step state (.handshake session success) = some next) :
    Wired next ∧ next.faults = state.faults := by
  simp only [step] at stepped
  split at stepped
  · cases stepped
  case h_2 found lookup =>
    simp only [Option.ite_none_right_eq_some, Option.some.injEq] at stepped
    obtain ⟨here, same⟩ := stepped
    subst same
    apply written_sound wired lookup [] (by simp [here])
    intro written
    have afterWrite := wired.writes state.busy state.chatlog written state.faults
    cases success <;> apply afterWrite.stay lookup <;> simp [here]

theorem credentials_sound {username : Bytes} (wired : Wired state)
    (stepped : step state (.credentials session username) = some next) :
    Wired next ∧ next.faults = state.faults := by
  simp only [step] at stepped
  split at stepped
  · cases stepped
  case h_2 found lookup =>
    simp only [Option.ite_none_right_eq_some, Option.some.injEq] at stepped
    obtain ⟨here, same⟩ := stepped
    subst same
    apply written_sound wired lookup [1, 0, 0, 0] (by simp [here])
    intro written
    have afterWrite := wired.writes state.busy state.chatlog written state.faults
    apply afterWrite.stay lookup <;> simp [here]

theorem receive_sound {record : Option Bytes} (wired : Wired state)
    (stepped : step state (.receive session record) = some next) :
    Wired next ∧ next.faults = state.faults := by
  simp only [step] at stepped
  split at stepped
  · cases stepped
  case h_2 found lookup =>
    simp only [Option.ite_none_right_eq_some, Option.some.injEq] at stepped
    obtain ⟨here, same⟩ := stepped
    rw [wired.use_cli lookup (by simp [here])] at same
    subst same
    refine ⟨?_, rfl⟩
    cases record <;> apply wired.stay lookup <;> simp [here]

theorem step_sound {action : Action} (wired : Wired state)
    (stepped : step state action = some next) :
    Wired next ∧ (next.faults = [] ↔ state.faults = [] ∧ InOrder state action) := by
  cases action with
  | accept session sock =>
      obtain ⟨kept, faults⟩ := accept_sound wired stepped
      exact ⟨kept, quiet_sound (by simp) faults⟩
  | sslNew session ssl =>
      obtain ⟨kept, faults⟩ := ssl_new_sound wired stepped
      exact ⟨kept, quiet_sound (by simp) faults⟩
  | handshake session success =>
      obtain ⟨kept, faults⟩ := handshake_sound wired stepped
      exact ⟨kept, quiet_sound (by simp) faults⟩
  | credentials session username =>
      obtain ⟨kept, faults⟩ := credentials_sound wired stepped
      exact ⟨kept, quiet_sound (by simp) faults⟩
  | malloc session cli =>
      obtain ⟨kept, faults⟩ := malloc_sound wired stepped
      exact ⟨kept, quiet_sound (by simp) faults⟩
  | receive session record =>
      obtain ⟨kept, faults⟩ := receive_sound wired stepped
      exact ⟨kept, quiet_sound (by simp) faults⟩
  | proceed session =>
      simp only [step] at stepped
      split at stepped
      · cases stepped
      case h_2 found lookup => exact proceed_sound wired lookup stepped

end Step

theorem disabled_in_order {state : State} {action : Action} (disabled : step state action = none) :
    InOrder state action := by
  cases action with
  | proceed session =>
      intro found lookup
      simp only [step, lookup] at disabled
      constructor
      · intro here
        simp [proceed, here] at disabled
      · intro buffer here
        simp [proceed, here] at disabled
  | _ => trivial

/-- Nothing that has been released is used in any state of a run exactly when
every step of the run is in order. -/
theorem no_released_use_iff (actions : List Action) :
    (∀ before after reached, actions = before ++ after →
        run step initial before = some reached → reached.faults = []) ↔
      Meets step InOrder initial actions := by
  have kept : ∀ state action next, Wired state → step state action = some next → Wired next :=
    fun state action next wired stepped => (step_sound wired stepped).1
  have exactly : ∀ state action next, Wired state → state.faults = [] →
      step state action = some next → (InOrder state action ↔ next.faults = []) := by
    intro state action next wired fine stepped
    rw [(step_sound wired stepped).2]
    simp [fine]
  exact meets_iff_always_good kept exactly (fun _ _ disabled => disabled_in_order disabled)
    wired_initial rfl actions

/-- From `accept` to the replay of an empty log. -/
def connect (session sock ssl cli : Nat) : List Action :=
  [.accept session sock, .sslNew session ssl, .handshake session true,
    .credentials session (ascii "al"), .malloc session cli, .proceed session, .proceed session]

def talk (session : Nat) : List Action :=
  [.receive session (some (ascii "hi")), .proceed session, .proceed session]

/-- One client leaves while another one talks. The descriptor that it had is
given to a third client, which then gets the next message and the shutdown
alert; the message after that goes through the freed object. -/
theorem released_use_while_leaving :
    ∃ state, run step initial (connect 0 4 64 128 ++ connect 1 5 72 136 ++
        [.receive 0 none, .proceed 0, .accept 2 4] ++ talk 1 ++ [.proceed 0, .proceed 0] ++
        talk 1) = some state ∧
      state.socks 4 = some 2 ∧
      state.faults = [.closedSock 4, .closedSock 4, .freedSsl 64] :=
  ⟨_, rfl, rfl, rfl⟩

end LinuxFff.TlsCliLifetimes
