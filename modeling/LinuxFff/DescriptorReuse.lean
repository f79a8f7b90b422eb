import LinuxFff.LoggedArray
import LinuxFff.PlainNoLoss

/-!
# The array `clients[]` of `server.c` while descriptors are reused

`main` appends to the array below the limit and closes the connection at the limit. A thread
closes its descriptor first and removes the entry in a later critical section, so a number
can stand in the array twice, for a session that is leaving and for a new one. The loop
overwrites the first entry with the number by the last entry, whichever session's that is.

The array runs beside the chat of `PlainServer`, which keeps the entries below `client_count`
as a list.
-/

namespace LinuxFff.DescriptorReuse

open LinuxFff.CString LinuxFff.ClientTables LinuxFff.LoggedArray LinuxFff.Ownership
open LinuxFff.Roster LinuxFff.StepSystem LinuxFff.PlainServer LinuxFff.PlainDelivery
open LinuxFff.PlainNoLoss

set_option autoImplicit false

/-- `client_t clients[MAX_CLIENTS]` and `int client_count`. -/
structure Registry where
  clients : Logged Entry
  clientCount : Int

/-- `clients[0..client_count)` -/
def Registry.entries (registry : Registry) : List Entry :=
  window registry.clients.cells 0 registry.clientCount.toNat

/-- `clients[client_count++] = *cli`, below the limit. -/
def Registry.register (registry : Registry) (entry : Entry) : Registry :=
  if registry.clientCount < maxClients then
    ⟨registry.clients.write registry.clientCount entry, registry.clientCount + 1⟩
  else registry

/-- The removal loop of `handle_client` from `i` on. -/
def removeFrom (sock : Nat) (i : Int) : Nat → Registry → Registry
  | 0, registry => registry
  | rounds + 1, registry =>
      let seen := registry.clients.read i
      if (registry.clients.cells i).sock = sock then
        let last := registry.clientCount - 1
        ⟨(seen.read last).write i (registry.clients.cells last), last⟩
      else removeFrom sock (i + 1) rounds { registry with clients := seen }

def Registry.remove (registry : Registry) (sock : Nat) : Registry :=
  removeFrom sock 0 registry.clientCount.toNat registry

structure Server where
  chat : State
  registry : Registry

def start : Server := ⟨initial, ⟨fun _ => ⟨0, []⟩, []⟩, 0⟩

/-- What a step writes to the array. -/
def Server.follow (server : Server) (action : Action) : Registry :=
  match server.chat.conns action.conn with
  | none => server.registry
  | some found =>
      match action, found.phase with
      | .register _, .registering => server.registry.register ⟨found.sock, found.username⟩
      | .proceed _, .removing => server.registry.remove found.sock
      | _, _ => server.registry

def step (server : Server) (action : Action) : Option Server :=
  (PlainServer.step server.chat action).map fun next => ⟨next, server.follow action⟩

def registrations (history : List Event) : List Nat :=
  history.filterMap fun event => match event with
    | .registered conn => some conn
    | _ => none

def standing (history : List Event) : List Nat :=
  (registrations history).filter fun conn => Event.removed conn ∉ history

section Loops

/-- The entry at the front of a window is overwritten by the last one. -/
theorem remove_entry_window (cells : Int → Entry) (i : Int) (rounds : Nat) {sock : Nat}
    (found : (cells i).sock = sock) :
    removeEntry sock (window cells i (rounds + 1)) =
      window (Function.update cells i (cells (i + rounds))) i rounds := by
  rw [window, removeEntry, if_pos found]
  cases rounds with
  | zero => rfl
  | succ rounds =>
      have last : i + 1 + (rounds : Int) = i + (rounds + 1 : Nat) := index_succ i rounds
      have kept : window (Function.update cells i (cells (i + (rounds + 1 : Nat)))) (i + 1) rounds =
          window cells (i + 1) rounds := by
        apply window_moved
        intro offset bound
        exact Function.update_of_ne (by omega) _ _
      rw [window_snoc, List.getLast?_concat, List.dropLast_concat, window, Function.update_self,
        kept, last]

theorem remove_from_leaves (sock : Nat) (i : Int) (rounds : Nat) (registry : Registry)
    (upTo : i + rounds = registry.clientCount) :
    Leaves i registry.clientCount (removeEntry sock (window registry.clients.cells i rounds))
      registry.clients (removeFrom sock i rounds registry).clients
      (removeFrom sock i rounds registry).clientCount := by
  induction rounds generalizing i registry with
  | zero => exact leaves_nothing (by simpa [removeFrom] using upTo.symm)
  | succ rounds ih =>
      by_cases found : (registry.clients.cells i).sock = sock
      · have last : registry.clientCount - 1 = i + rounds := by omega
        simp only [removeFrom, found, if_true, last]
        rw [remove_entry_window registry.clients.cells i rounds found]
        constructor
        case rest =>
          intro index below
          exact Function.update_of_ne (by omega) _ _
        case count => rw [window_length]
        case entries =>
          rw [window_length]
          rfl
        case stays =>
          have entryRead : Stays registry.clients (registry.clients.read i) i registry.clientCount :=
            stays_of_access (by omega) (by omega) rfl
          have lastRead : Stays (registry.clients.read i)
              ((registry.clients.read i).read (i + rounds)) i registry.clientCount :=
            stays_of_access (by omega) (by omega) rfl
          have written : Stays ((registry.clients.read i).read (i + rounds))
              (((registry.clients.read i).read (i + rounds)).write i
                (registry.clients.cells (i + rounds))) i registry.clientCount :=
            stays_of_access (by omega) (by omega) rfl
          exact (entryRead.trans lastRead).trans written
      · have upToSame : i + 1 + rounds = registry.clientCount := by omega
        have later := ih (i + 1) { registry with clients := registry.clients.read i } upToSame
        simp only [removeFrom, found, if_false]
        rw [window, removeEntry, if_neg found]
        have inside : i < registry.clientCount := by omega
        exact later.cons inside

end Loops

section Operations

variable {registry : Registry}

theorem entries_length (nonneg : 0 ≤ registry.clientCount) :
    (registry.entries.length : Int) = registry.clientCount := by
  rw [Registry.entries, window_length]
  exact Int.toNat_of_nonneg nonneg

theorem register_entries (entry : Entry) (nonneg : 0 ≤ registry.clientCount)
    (room : registry.clientCount < maxClients) :
    (registry.register entry).entries = registry.entries ++ [entry] := by
  have written : registry.register entry =
      ⟨registry.clients.write registry.clientCount entry, registry.clientCount + 1⟩ := if_pos room
  have count : (registry.clientCount + 1).toNat = registry.clientCount.toNat + 1 := by omega
  have place : (0 : Int) + (registry.clientCount.toNat : Int) = registry.clientCount := by omega
  have below : window (Function.update registry.clients.cells registry.clientCount entry) 0
      registry.clientCount.toNat = registry.entries := by
    apply window_moved
    intro offset bound
    exact Function.update_of_ne (by omega) _ _
  rw [written, Registry.entries, count]
  change window (Function.update registry.clients.cells registry.clientCount entry) 0
    (registry.clientCount.toNat + 1) = _
  rw [window_snoc, below, place, Function.update_self]

theorem remove_leaves (sock : Nat) (nonneg : 0 ≤ registry.clientCount) :
    Leaves 0 registry.clientCount (removeEntry sock registry.entries) registry.clients
      (registry.remove sock).clients (registry.remove sock).clientCount :=
  remove_from_leaves sock 0 registry.clientCount.toNat registry (by omega)

theorem remove_entries (sock : Nat) (nonneg : 0 ≤ registry.clientCount) :
    (registry.remove sock).entries = removeEntry sock registry.entries := by
  have leaves := remove_leaves sock nonneg
  have count := leaves.count
  have length : (registry.remove sock).clientCount.toNat =
      (removeEntry sock registry.entries).length := by omega
  rw [Registry.entries, length]
  exact leaves.entries

end Operations

/-- The array holds the list of the chat and is used below its limit only. -/
structure Mirrors (server : Server) : Prop where
  entries : server.registry.entries = server.chat.clients
  nonneg : 0 ≤ server.registry.clientCount
  room : server.registry.clientCount ≤ maxClients
  inside : ∀ index ∈ server.registry.clients.accesses, 0 ≤ index ∧ index < maxClients

theorem mirrors_start : Mirrors start where
  entries := rfl
  nonneg := Int.le_refl 0
  room := by decide
  inside := by
    intro index impossible
    cases impossible

theorem Mirrors.count {server : Server} (mirrors : Mirrors server) :
    server.registry.clientCount = server.chat.clients.length := by
  rw [← mirrors.entries]
  exact (entries_length mirrors.nonneg).symm

theorem remove_entry_length_le (sock : Nat) (entries : List Entry) :
    (removeEntry sock entries).length ≤ entries.length := by
  have shorter := (remove_entry_socks sock entries).length_eq
  rw [socks, List.length_map] at shorter
  rw [shorter, ← @List.length_map _ _ entries Entry.sock]
  exact List.length_erase_le

/-- What a step does to the list, and what it writes to the array. -/
inductive Writes (server : Server) (next : State) : Registry → Prop where
  | nothing (kept : next.clients = server.chat.clients) : Writes server next server.registry
  | append (entry : Entry) (room : server.chat.clients.length < maxClients)
      (grown : next.clients = server.chat.clients ++ [entry]) :
      Writes server next (server.registry.register entry)
  | refuse (entry : Entry) (full : ¬server.chat.clients.length < maxClients)
      (kept : next.clients = server.chat.clients) :
      Writes server next (server.registry.register entry)
  | remove (sock : Nat) (shrunk : next.clients = removeEntry sock server.chat.clients) :
      Writes server next (server.registry.remove sock)

theorem proceed_writes {server : Server} {next : State} {conn : Nat} {found : Conn}
    (lookup : server.chat.conns conn = some found)
    (stepped : proceed server.chat conn found = some next) :
    Writes server next (server.follow (.proceed conn)) := by
  by_cases leaving : found.phase = .removing
  · have follow : server.follow (.proceed conn) = server.registry.remove found.sock := by
      simp [Server.follow, Action.conn, lookup, leaving]
    rw [follow]
    simp only [proceed, leaving, Option.some.injEq] at stepped
    exact Writes.remove found.sock (by rw [← stepped])
  · have follow : server.follow (.proceed conn) = server.registry := by
      simp [Server.follow, Action.conn, lookup, leaving]
    have kept : next.clients = server.chat.clients := by
      unfold proceed at stepped
      split at stepped
      case h_5 here => exact absurd here leaving
      case h_6 => cases stepped
      all_goals
        cases stepped
        rfl
    rw [follow]
    exact Writes.nothing kept

theorem step_writes {server : Server} {next : State} {action : Action}
    (stepped : PlainServer.step server.chat action = some next) :
    Writes server next (server.follow action) := by
  cases action with
  | accept conn number =>
      simp only [PlainServer.step] at stepped
      split at stepped
      · rename_i guards
        cases stepped
        have follow : server.follow (.accept conn number) = server.registry := by
          simp [Server.follow, Action.conn, guards.1]
        rw [follow]
        exact Writes.nothing rfl
      · cases stepped
  | login conn result =>
      cases lookup : server.chat.conns conn with
      | none => simp [PlainServer.step, lookup] at stepped
      | some found =>
          have follow : server.follow (.login conn result) = server.registry := by
            simp [Server.follow, Action.conn, lookup]
          simp only [PlainServer.step, lookup] at stepped
          rw [follow]
          split at stepped
          · cases result with
            | none =>
                cases stepped
                exact Writes.nothing rfl
            | some username =>
                cases stepped
                exact Writes.nothing rfl
          · cases stepped
  | register conn =>
      cases lookup : server.chat.conns conn with
      | none => simp [PlainServer.step, lookup] at stepped
      | some found =>
          simp only [PlainServer.step, lookup] at stepped
          split at stepped
          · rename_i here
            have follow : server.follow (.register conn) =
                server.registry.register ⟨found.sock, found.username⟩ := by
              simp [Server.follow, Action.conn, lookup, here]
            rw [follow]
            split at stepped
            · rename_i room
              cases stepped
              exact Writes.append _ room rfl
            · rename_i full
              cases stepped
              exact Writes.refuse _ full rfl
          · cases stepped
  | receive conn chunk =>
      cases lookup : server.chat.conns conn with
      | none => simp [PlainServer.step, lookup] at stepped
      | some found =>
          have follow : server.follow (.receive conn chunk) = server.registry := by
            simp [Server.follow, Action.conn, lookup]
          simp only [PlainServer.step, lookup] at stepped
          rw [follow]
          split at stepped
          · cases chunk with
            | none =>
                cases stepped
                exact Writes.nothing rfl
            | some buffer =>
                cases stepped
                exact Writes.nothing rfl
          · cases stepped
  | proceed conn =>
      cases lookup : server.chat.conns conn with
      | none => simp [PlainServer.step, lookup] at stepped
      | some found =>
          simp only [PlainServer.step, lookup] at stepped
          exact proceed_writes lookup stepped

theorem mirrors_step {server : Server} {next : State} {registry : Registry}
    (mirrors : Mirrors server) (writes : Writes server next registry) :
    Mirrors ⟨next, registry⟩ := by
  have count := mirrors.count
  have nonneg := mirrors.nonneg
  cases writes with
  | nothing kept => exact ⟨mirrors.entries.trans kept.symm, nonneg, mirrors.room, mirrors.inside⟩
  | append entry room grown =>
      have room : server.registry.clientCount < maxClients := by omega
      have written : server.registry.register entry =
          ⟨server.registry.clients.write server.registry.clientCount entry,
            server.registry.clientCount + 1⟩ := if_pos room
      have stays : Stays server.registry.clients
          (server.registry.clients.write server.registry.clientCount entry) 0 maxClients :=
        stays_of_access nonneg room rfl
      constructor
      case entries => rw [register_entries entry nonneg room, mirrors.entries, grown]
      case nonneg =>
        rw [written]
        exact Int.le_add_one nonneg
      case room =>
        rw [written]
        exact room
      case inside =>
        rw [written]
        exact stays.bounded mirrors.inside
  | refuse entry full kept =>
      have full : ¬server.registry.clientCount < maxClients := by omega
      have same : server.registry.register entry = server.registry := if_neg full
      rw [same]
      exact ⟨mirrors.entries.trans kept.symm, nonneg, mirrors.room, mirrors.inside⟩
  | remove sock shrunk =>
      have leaves := remove_leaves sock nonneg
      have left := leaves.count
      have shorter := remove_entry_length_le sock server.registry.entries
      have before := entries_length nonneg
      have room := mirrors.room
      constructor
      case entries => rw [remove_entries sock nonneg, mirrors.entries, shrunk]
      case nonneg =>
        change 0 ≤ (server.registry.remove sock).clientCount
        omega
      case room =>
        change (server.registry.remove sock).clientCount ≤ maxClients
        omega
      case inside => exact (leaves.stays.widen (Int.le_refl 0) room).bounded mirrors.inside

/-- A session is registered once, and has ended once it has been removed. -/
structure Recorded (state : State) : Prop where
  once : (registrations state.history).Nodup
  gone : ∀ conn found, state.conns conn = some found → found.phase = .ended →
    Event.registered conn ∈ state.history → Event.removed conn ∈ state.history

theorem mem_registrations {history : List Event} {conn : Nat} :
    conn ∈ registrations history ↔ Event.registered conn ∈ history := by
  rw [registrations, List.mem_filterMap]
  constructor
  · rintro ⟨event, member, same⟩
    cases event with
    | registered other =>
        cases same
        exact member
    | replayed other => cases same
    | saved message => cases same
    | broadcast message => cases same
    | closed other => cases same
    | removed other => cases same
  · intro member
    exact ⟨_, member, rfl⟩

theorem recorded_initial : Recorded initial where
  once := List.nodup_nil
  gone := by
    intro conn found impossible
    cases impossible

section Recording

variable {state next : State} {conn : Nat} {found moved : Conn}

theorem recorded_update {extra : List Event} (holds : Recorded state)
    (conns : next.conns = Function.update state.conns conn (some moved))
    (history : next.history = state.history ++ extra)
    (own : registrations extra = [] ∨
      registrations extra = [conn] ∧ Event.registered conn ∉ state.history)
    (gone : moved.phase = .ended → Event.registered conn ∈ state.history ++ extra →
      Event.removed conn ∈ state.history ++ extra) : Recorded next where
  once := by
    rw [history, registrations, List.filterMap_append, ← registrations, ← registrations]
    rcases own with nothing | ⟨itself, fresh⟩
    · rw [nothing, List.append_nil]
      exact holds.once
    · rw [itself, List.nodup_append_comm, List.singleton_append, List.nodup_cons,
        mem_registrations]
      exact ⟨fresh, holds.once⟩
  gone := by
    intro other result lookup ended registered
    rw [conns] at lookup
    rw [history] at registered ⊢
    by_cases same : other = conn
    · rw [same, Function.update_self] at lookup
      cases lookup
      rw [same] at registered ⊢
      exact gone ended registered
    · rw [Function.update_of_ne same] at lookup
      rcases List.mem_append.mp registered with old | new
      · exact List.mem_append_left _ (holds.gone other result lookup ended old)
      · rw [← mem_registrations] at new
        rcases own with nothing | ⟨itself, _⟩
        · rw [nothing] at new
          cases new
        · rw [itself, List.mem_singleton] at new
          exact absurd new same

theorem unregistered_of_low (kept : Kept state) (lookup : state.conns conn = some found)
    (low : found.phase.rank ≤ 1) : Event.registered conn ∉ state.history := by
  intro registered
  obtain ⟨owner, ownerLookup, reached⟩ := kept.past _ registered
  have same : owner = found := Option.some.inj (ownerLookup.symm.trans lookup)
  have two : 2 ≤ found.phase.rank := same ▸ reached
  omega

theorem recorded_step {action : Action} (kept : Kept state) (holds : Recorded state)
    (stepped : PlainServer.step state action = some next) : Recorded next := by
  have unchanged : state.history = state.history ++ [] := (List.append_nil _).symm
  cases step_effect stepped with
  | accept number unborn unused => exact recorded_update holds rfl unchanged (Or.inl rfl) (by simp)
  | quiet found username phase lookup moved named =>
      refine recorded_update holds rfl unchanged (Or.inl rfl) ?_
      intro ended
      have seven : 7 ≤ phase.rank := by simp [show phase = .ended from ended, Phase.rank]
      exact absurd seven (quiet_low moved).1
  | turnAway found lookup here =>
      have low : found.phase.rank ≤ 1 := by
        rcases here with here | here <;> simp [here, Phase.rank]
      refine recorded_update holds rfl unchanged (Or.inl rfl) ?_
      intro _ registered
      rw [List.append_nil] at registered
      exact absurd registered (unregistered_of_low kept lookup low)
  | register found lookup here room =>
      have low : found.phase.rank ≤ 1 := by simp [here, Phase.rank]
      have fresh := unregistered_of_low kept lookup low
      exact recorded_update holds rfl rfl (Or.inr ⟨rfl, fresh⟩) (by simp)
  | replay found lookup here => exact recorded_update holds rfl rfl (Or.inl rfl) (by simp)
  | broadcast found notice lookup here =>
      refine recorded_update holds rfl rfl (Or.inl rfl) ?_
      cases notice <;> simp [Notice.next]
  | save found buffer lookup here => exact recorded_update holds rfl rfl (Or.inl rfl) (by simp)
  | close found lookup here => exact recorded_update holds rfl rfl (Or.inl rfl) (by simp)
  | remove found lookup here =>
      refine recorded_update holds rfl rfl (Or.inl rfl) ?_
      intro _ _
      exact List.mem_append_right _ (List.mem_singleton.mpr rfl)

theorem mem_standing_iff (kept : Kept state) (holds : Recorded state) :
    conn ∈ standing state.history ↔
      ∃ found, state.conns conn = some found ∧ found.phase.Listed := by
  rw [standing, List.mem_filter, mem_registrations, decide_eq_true_eq]
  constructor
  case mp =>
    rintro ⟨registered, stays⟩
    obtain ⟨found, lookup, reached⟩ := kept.past _ registered
    refine ⟨found, lookup, reached, ?_⟩
    by_contra beyond
    apply stays
    apply holds.gone conn found lookup _ registered
    cases phase : found.phase with
    | ended => rfl
    | broadcasting notice => cases notice <;> simp [phase, Phase.rank] at beyond
    | _ => simp [phase, Phase.rank] at beyond
  case mpr =>
    rintro ⟨found, lookup, listed⟩
    refine ⟨kept.enrolled conn found lookup listed, ?_⟩
    intro removed
    obtain ⟨owner, ownerLookup, reached⟩ := kept.past _ removed
    have same : owner = found := Option.some.inj (ownerLookup.symm.trans lookup)
    have eight : 8 ≤ found.phase.rank := same ▸ reached
    have seven := listed.2
    omega

end Recording

/-- What holds in every state of a run. -/
structure Sound (server : Server) : Prop where
  mirrors : Mirrors server
  wired : ∃ members, Wired members server.chat
  kept : Kept server.chat
  recorded : Recorded server.chat

theorem sound_start : Sound start :=
  ⟨mirrors_start, ⟨[], wired_initial⟩, kept_initial, recorded_initial⟩

theorem sound_step {server next : Server} {action : Action} (sound : Sound server)
    (stepped : step server action = some next) : Sound next := by
  obtain ⟨chat, moved, same⟩ := Option.map_eq_some_iff.mp stepped
  obtain ⟨members, wired⟩ := sound.wired
  subst same
  exact ⟨mirrors_step sound.mirrors (step_writes moved), wired_step wired moved,
    kept_step wired sound.kept moved, recorded_step sound.kept sound.recorded moved⟩

theorem sound_run {actions : List Action} {server : Server}
    (ran : run step start actions = some server) : Sound server :=
  run_keeps_always (fun _ _ _ sound stepped => sound_step sound stepped) sound_start ran

/-- The array holds one number for each session between its registration and
its removal, in some order. -/
theorem Sound.perm {server : Server} (sound : Sound server) :
    (socks server.registry.entries).Perm
      ((standing server.chat.history).map (sockOf server.chat.conns)) := by
  obtain ⟨members, wired⟩ := sound.wired
  have lists := wired.tabled.lists
  have distinct : (standing server.chat.history).Nodup := sound.recorded.once.filter _
  have same : members.Perm (standing server.chat.history) := by
    rw [List.perm_ext_iff_of_nodup lists.distinct distinct]
    intro conn
    rw [wired.tabled.listed, mem_standing_iff sound.kept sound.recorded]
  rw [sound.mirrors.entries]
  exact lists.listed.trans (same.map _)

theorem Sound.finds {server : Server} (sound : Sound server) {conn : Nat} {found : Conn}
    (lookup : server.chat.conns conn = some found) (leaving : found.phase = .removing) :
    found.sock ∈ socks server.registry.entries := by
  have listed : found.phase.Listed := by simp [leaving, Phase.Listed, Phase.rank]
  have present : conn ∈ standing server.chat.history :=
    (mem_standing_iff sound.kept sound.recorded).mpr ⟨found, lookup, listed⟩
  rw [sound.perm.mem_iff, List.mem_map]
  exact ⟨conn, present, key_of_some lookup⟩

theorem Sound.removes {server next : Server} (sound : Sound server) {conn : Nat} {found : Conn}
    (lookup : server.chat.conns conn = some found) (leaving : found.phase = .removing)
    (stepped : step server (.proceed conn) = some next) :
    (socks next.registry.entries).Perm ((socks server.registry.entries).erase found.sock) ∧
      next.registry.clientCount = server.registry.clientCount - 1 := by
  have nonneg := sound.mirrors.nonneg
  obtain ⟨chat, _, same⟩ := Option.map_eq_some_iff.mp stepped
  have registry : next.registry = server.registry.remove found.sock := by
    rw [← same]
    simp [Server.follow, Action.conn, lookup, leaving]
  have perm := remove_entry_socks found.sock server.registry.entries
  have leaves := remove_leaves found.sock nonneg
  constructor
  · rw [registry, remove_entries found.sock nonneg]
    exact perm
  · have shorter := perm.length_eq
    have present := sound.finds lookup leaving
    have positive := List.length_pos_of_mem present
    have before := entries_length nonneg
    rw [List.length_erase_of_mem present, socks, List.length_map, socks, List.length_map] at shorter
    rw [socks, List.length_map] at positive
    have count := leaves.count
    rw [registry]
    omega

/-- Whatever the chat does, the array goes along. -/
theorem follows_chat {actions : List Action} {server : Server} {state : State}
    (ran : run PlainServer.step server.chat actions = some state) :
    ∃ registry, run step server actions = some ⟨state, registry⟩ := by
  induction actions generalizing server with
  | nil =>
      cases ran
      exact ⟨server.registry, rfl⟩
  | cons action rest ih =>
      obtain ⟨next, stepped, restRun⟩ := run_cons_some.mp ran
      have followed : step server action = some ⟨next, server.follow action⟩ := by
        rw [step, stepped]
        rfl
      obtain ⟨registry, later⟩ := @ih ⟨next, server.follow action⟩ restRun
      exact ⟨registry, run_cons_some.mpr ⟨_, followed, later⟩⟩

theorem registry_accesses_inside {actions : List Action} {server : Server}
    (ran : run step start actions = some server) :
    ∀ index ∈ server.registry.clients.accesses, 0 ≤ index ∧ index < maxClients :=
  (sound_run ran).mirrors.inside

/-- In every state of every run the count is within its limits, the array holds the numbers of
the sessions that stand, as often as they have them, and a session that is about to remove its
entry finds one; its step takes one entry with its number away and no more. -/
theorem registry_holds_sessions (actions : List Action) (server : Server)
    (ran : run step start actions = some server) :
    (0 ≤ server.registry.clientCount ∧ server.registry.clientCount ≤ maxClients) ∧
      (socks server.registry.entries).Perm
        ((standing server.chat.history).map (sockOf server.chat.conns)) ∧
      ∀ conn found, server.chat.conns conn = some found → found.phase = .removing →
        found.sock ∈ socks server.registry.entries ∧
          ∀ next, step server (.proceed conn) = some next →
            (socks next.registry.entries).Perm ((socks server.registry.entries).erase found.sock) ∧
              next.registry.clientCount = server.registry.clientCount - 1 := by
  have sound := sound_run ran
  refine ⟨⟨sound.mirrors.nonneg, sound.mirrors.room⟩, sound.perm, ?_⟩
  intro conn found lookup leaving
  exact ⟨sound.finds lookup leaving, fun _ stepped => sound.removes lookup leaving stepped⟩

/-- Connection 2 registers the number 4 that connection 0 has closed but not yet removed. -/
def sharedNumber : List Action :=
  reusedNumber ++ [.login 2 (some (ascii "cy")), .register 2]

theorem shared_number_held :
    ∃ server next, run step start sharedNumber = some server ∧
      socks server.registry.entries = [4, 5, 4] ∧
      (socks server.registry.entries).Perm
        ((standing server.chat.history).map (sockOf server.chat.conns)) ∧
      step server (.proceed 0) = some next ∧
      (socks next.registry.entries).Perm [5, 4] ∧ next.registry.clientCount = 2 := by
  obtain ⟨_, perm, removals⟩ := registry_holds_sessions sharedNumber _ rfl
  obtain ⟨shrunk, count⟩ := (removals 0 _ rfl rfl).2 _ rfl
  exact ⟨_, _, rfl, rfl, perm, rfl, shrunk, count⟩

end LinuxFff.DescriptorReuse
