import LinuxFff.TlsExactlyOnce

/-!
# Sessions and slots in `server_tls_final.c`

`handle_client` does not look at what `add_client` returns. While fewer than 100
sessions are in the chat, each of them has one slot of `clients[]` and is sent what the
others broadcast. With 100 sessions in it, the next one is told that its login was
successful and joins without a slot.
-/

namespace LinuxFff.TlsSlots

open LinuxFff.CString LinuxFff.ClientTables LinuxFff.EventOrder LinuxFff.Ownership
open LinuxFff.Roster LinuxFff.StepSystem LinuxFff.TlsServer LinuxFff.TlsHistory
open LinuxFff.TlsDelivery

set_option autoImplicit false

/-- A session past `add_client` that has not reached the end of `remove_client`,
with its object and its username. -/
def Present (sessions : Nat → Option Session) (session : Nat) (ssl : Ssl) (username : Bytes) :
    Prop :=
  ∃ found, sessions session = some found ∧ found.phase.Active ∧ found.ssl = ssl ∧
    found.username = username

/-- Sessions and active slots belong to each other one to one. -/
structure Slotted (sessions : Nat → Option Session) (clients : List Client) : Prop where
  seats : ∀ session ssl username, Present sessions session ssl username →
    ∃ slot : Nat, clients[slot]? = some ⟨ssl, true, username⟩ ∧
      ∀ (other : Nat) client, clients[other]? = some client → client.active = true →
        client.ssl = ssl → other = slot
  taken : ∀ (slot : Nat) client, clients[slot]? = some client → client.active = true →
    ∃ session, Present sessions session client.ssl client.username ∧
      ∀ other username, Present sessions other client.ssl username → other = session

/-- The next broadcast of another session is written once to a session that is present. -/
def Hears (state : State) : Prop :=
  ∀ session ssl username author speaking notice next, Present state.sessions session ssl username →
    author ≠ session → state.sessions author = some speaking →
    speaking.phase = .broadcasting notice → step state (.proceed author) = some next →
    next.live session = state.live session ++ [speaking.message author notice]

structure Seated (state : State) : Prop where
  slotted : Slotted state.sessions state.clients
  hears : Hears state

/-- At an `add_client`, fewer than 100 sessions are present. -/
def FindsRoom (state : State) : Action → Prop
  | .proceed session => ∀ found, state.sessions session = some found → found.phase = .adding →
      ∀ sessions : List Nat, sessions.Nodup →
        (∀ other ∈ sessions, ∃ ssl username, Present state.sessions other ssl username) →
        sessions.length < maxClients
  | _ => True

section Sessions

variable {sessions : Nat → Option Session} {session other : Nat} {found moved : Session}
  {ssl : Ssl} {username : Bytes}

theorem present_of_lookup (lookup : sessions session = some found) :
    Present sessions session ssl username ↔
      found.phase.Active ∧ found.ssl = ssl ∧ found.username = username := by
  constructor
  · intro present
    obtain ⟨result, resultLookup, facts⟩ := present
    rw [lookup] at resultLookup
    cases resultLookup
    exact facts
  · intro facts
    exact ⟨found, lookup, facts⟩

theorem present_ssl {otherSsl : Ssl} {otherName : Bytes}
    (first : Present sessions session ssl username)
    (second : Present sessions session otherSsl otherName) : otherSsl = ssl := by
  obtain ⟨result, lookup, _, own, _⟩ := first
  rw [← own]
  exact ((present_of_lookup lookup).mp second).2.1.symm

theorem present_elsewhere (apart : other ≠ session) :
    Present (Function.update sessions session (some moved)) other ssl username ↔
      Present sessions other ssl username := by
  unfold Present
  rw [Function.update_of_ne apart]

theorem present_moved :
    Present (Function.update sessions session (some moved)) session ssl username ↔
      moved.phase.Active ∧ moved.ssl = ssl ∧ moved.username = username :=
  present_of_lookup (Function.update_self _ _ _)

theorem present_kept {phase : Phase} {sent : Nat} (lookup : sessions session = some found)
    (same : phase.Active ↔ found.phase.Active) :
    Present (Function.update sessions session (some ⟨found.ssl, found.username, phase, sent⟩))
        other ssl username ↔
      Present sessions other ssl username := by
  by_cases equal : other = session
  · subst equal
    rw [present_moved, present_of_lookup lookup, same]
  · exact present_elsewhere equal

theorem present_outside (outside : ∀ found, sessions session = some found → ¬found.phase.Active)
    (away : ¬moved.phase.Active) :
    Present (Function.update sessions session (some moved)) other ssl username ↔
      Present sessions other ssl username := by
  by_cases equal : other = session
  · subst equal
    rw [present_moved]
    constructor
    · intro facts
      exact absurd facts.1 away
    · intro present
      obtain ⟨found, lookup, active, _⟩ := present
      exact absurd active (outside found lookup)
  · exact present_elsewhere equal

theorem present_entered (lookup : sessions session = some found) (outside : ¬found.phase.Active)
    (inside : moved.phase.Active) (ssls : moved.ssl = found.ssl)
    (names : moved.username = found.username) :
    Present (Function.update sessions session (some moved)) other ssl username ↔
      Present sessions other ssl username ∨
        other = session ∧ ssl = found.ssl ∧ username = found.username := by
  by_cases equal : other = session
  · subst equal
    rw [present_moved, present_of_lookup lookup, ssls, names]
    simp [outside, inside, eq_comm]
  · rw [present_elsewhere equal]
    simp [equal]

theorem present_left (away : ¬moved.phase.Active) :
    Present (Function.update sessions session (some moved)) other ssl username ↔
      other ≠ session ∧ Present sessions other ssl username := by
  by_cases equal : other = session
  · subst equal
    rw [present_moved]
    simp [away]
  · rw [present_elsewhere equal]
    simp [equal]

end Sessions

section Slots

variable {before after : Nat → Option Session} {clients : List Client} {session slot : Nat}
  {ssl : Ssl} {username : Bytes} {client : Client}

theorem lookup_set {old : Client} (held : clients[slot]? = some old) (other : Nat) :
    (clients.set slot client)[other]? = if other = slot then some client else clients[other]? := by
  have inside : slot < clients.length := (List.getElem?_eq_some_iff.mp held).1
  rw [List.getElem?_set]
  by_cases equal : other = slot
  · rw [if_pos equal.symm, if_pos equal, if_pos inside]
  · rw [if_neg (Ne.symm equal), if_neg equal]

theorem Slotted.congr (slotted : Slotted before clients)
    (same : ∀ other ssl username, Present after other ssl username ↔
      Present before other ssl username) : Slotted after clients := by
  constructor
  case seats =>
    intro session ssl username present
    exact slotted.seats session ssl username ((same _ _ _).mp present)
  case taken =>
    intro slot client lookup active
    obtain ⟨owner, present, only⟩ := slotted.taken slot client lookup active
    refine ⟨owner, (same _ _ _).mpr present, ?_⟩
    intro other username otherPresent
    exact only other username ((same _ _ _).mp otherPresent)

theorem Slotted.add (slotted : Slotted before clients) (free : clients[slot]? = some client)
    (inactive : client.active = false) (fresh : ∀ other name, ¬Present before other ssl name)
    (joined : ∀ other otherSsl name, Present after other otherSsl name ↔
      Present before other otherSsl name ∨ other = session ∧ otherSsl = ssl ∧ name = username) :
    Slotted after (clients.set slot ⟨ssl, true, username⟩) := by
  constructor
  case seats =>
    intro other otherSsl name present
    rcases (joined _ _ _).mp present with old | ⟨_, sameSsl, sameName⟩
    · obtain ⟨place, held, only⟩ := slotted.seats other otherSsl name old
      have apart : place ≠ slot := by
        intro equal
        rw [equal, free] at held
        cases held
        cases inactive
      refine ⟨place, by rw [lookup_set free, if_neg apart, held], ?_⟩
      intro elsewhere found lookup active own
      rw [lookup_set free] at lookup
      split at lookup
      · cases lookup
        have sameSsl : ssl = otherSsl := own
        rw [← sameSsl] at old
        exact absurd old (fresh other name)
      · exact only elsewhere found lookup active own
    · subst sameSsl sameName
      refine ⟨slot, by rw [lookup_set free, if_pos rfl], ?_⟩
      intro elsewhere found lookup active own
      rw [lookup_set free] at lookup
      split at lookup
      · assumption
      · obtain ⟨owner, ownerPresent, _⟩ := slotted.taken elsewhere found lookup active
        exact absurd (own ▸ ownerPresent) (fresh owner found.username)
  case taken =>
    intro place found lookup active
    rw [lookup_set free] at lookup
    split at lookup
    · cases lookup
      refine ⟨session, (joined _ _ _).mpr (Or.inr ⟨rfl, rfl, rfl⟩), ?_⟩
      intro other name present
      rcases (joined _ _ _).mp present with old | ⟨same, _, _⟩
      · exact absurd old (fresh other name)
      · exact same
    · obtain ⟨owner, ownerPresent, only⟩ := slotted.taken place found lookup active
      refine ⟨owner, (joined _ _ _).mpr (Or.inl ownerPresent), ?_⟩
      intro other name present
      rcases (joined _ _ _).mp present with old | ⟨_, same, _⟩
      · exact only other name old
      · exact absurd (same ▸ ownerPresent) (fresh owner found.username)

theorem Slotted.remove (slotted : Slotted before clients)
    (present : Present before session ssl username)
    (left : ∀ other otherSsl name, Present after other otherSsl name ↔
      other ≠ session ∧ Present before other otherSsl name) :
    Slotted after (removeClient ssl clients) := by
  obtain ⟨slot, held, own⟩ := slotted.seats session ssl username present
  rw [remove_client_set held rfl rfl own]
  obtain ⟨owner, _, only⟩ := slotted.taken slot _ held rfl
  have sameOwner : session = owner := only session username present
  subst sameOwner
  constructor
  case seats =>
    intro other otherSsl name stays
    obtain ⟨apart, old⟩ := (left _ _ _).mp stays
    obtain ⟨place, placeHeld, placeOnly⟩ := slotted.seats other otherSsl name old
    have elsewhere : place ≠ slot := by
      intro equal
      rw [equal, held] at placeHeld
      cases placeHeld
      exact apart (only other _ old)
    refine ⟨place, by rw [lookup_set held, if_neg elsewhere, placeHeld], ?_⟩
    intro further found lookup active sameSsl
    rw [lookup_set held] at lookup
    split at lookup
    · cases lookup
      cases active
    · exact placeOnly further found lookup active sameSsl
  case taken =>
    intro place found lookup active
    rw [lookup_set held] at lookup
    split at lookup
    · cases lookup
      cases active
    · rename_i elsewhere
      obtain ⟨keeper, keeperPresent, keeperOnly⟩ := slotted.taken place found lookup active
      have apart : keeper ≠ session := by
        intro equal
        have same := present_ssl present (equal ▸ keeperPresent)
        exact elsewhere (own place found lookup active same)
      refine ⟨keeper, (left _ _ _).mpr ⟨apart, keeperPresent⟩, ?_⟩
      intro other name stays
      exact keeperOnly other name ((left _ _ _).mp stays).2

theorem Slotted.length_le {sessions : List Nat} (slotted : Slotted before clients)
    (distinct : sessions.Nodup)
    (present : ∀ other ∈ sessions, ∃ ssl username, Present before other ssl username) :
    sessions.length ≤ clients.length := by
  let sits : Nat → Nat → Prop := fun slot session => ∃ client name,
    clients[slot]? = some client ∧ client.active = true ∧ Present before session client.ssl name
  have placed : ∀ other ∈ sessions, ∃ slot < clients.length, sits slot other := by
    intro other member
    obtain ⟨ssl, username, here⟩ := present other member
    obtain ⟨slot, held, _⟩ := slotted.seats other ssl username here
    exact ⟨slot, (List.getElem?_eq_some_iff.mp held).1, _, username, held, rfl, here⟩
  have alone : ∀ slot first second, sits slot first → sits slot second → first = second := by
    intro slot first second firstSits secondSits
    obtain ⟨client, name, lookup, active, firstPresent⟩ := firstSits
    obtain ⟨other, otherName, otherLookup, _, secondPresent⟩ := secondSits
    rw [lookup] at otherLookup
    cases otherLookup
    obtain ⟨owner, _, only⟩ := slotted.taken slot client lookup active
    exact (only first name firstPresent).trans (only second otherName secondPresent).symm
  exact length_le_of_places distinct placed alone

end Slots

theorem add_client_sessions (state : State) (session : Nat) (found : Session) :
    (state.addClient session found).sessions = state.sessions := by
  obtain ⟨clients, event, _, same⟩ := add_client_cases state session found
  rw [same]
  rfl

/-- What a session holds is proper: an object and a username that fits its slot. -/
def Fits (state : State) : Prop :=
  ∀ session found, state.sessions session = some found →
    found.ssl ≠ null ∧ found.username.length ≤ 50

theorem fits_step {state next : State} {action : Action} (fits : Fits state)
    (stepped : step state action = some next) : Fits next := by
  have moved : ∀ {found : Session} {phase : Phase} {sent : Nat},
      state.sessions action.session = some found →
      next.sessions = Function.update state.sessions action.session
        (some ⟨found.ssl, found.username, phase, sent⟩) → Fits next := by
    intro found phase sent lookup sessions
    exact forall_update fits sessions (fits action.session found lookup)
  cases step_effect stepped with
  | accept ssl unborn nonNull unused =>
      exact forall_update fits rfl ⟨nonNull, by simp⟩
  | quiet found username phase accepting lookup quiet named =>
      have here := fits action.session found lookup
      apply forall_update fits rfl
      refine ⟨here.1, ?_⟩
      rcases named with same | ⟨name, same⟩
      · rw [same]
        exact here.2
      · rw [same]
        exact List.length_take_le 50 _
  | add found lookup here =>
      apply moved lookup
      rw [State.move, add_client_sessions]
  | broadcast found notice lookup here => exact moved lookup rfl
  | save found message lookup here => exact moved lookup rfl
  | replay found lookup here => exact moved lookup rfl
  | remove found lookup here => exact moved lookup rfl
  | free found accepting lookup here => exact moved lookup rfl

/-- What one step does to the sessions that are present and to the slots. -/
inductive Seating (state next : State) (action : Action) : Prop where
  | nothing (clients : next.clients = state.clients)
      (present : ∀ other ssl username, Present next.sessions other ssl username ↔
        Present state.sessions other ssl username)
  | adds (session : Nat) (found : Session) (acts : action = .proceed session)
      (lookup : state.sessions session = some found) (here : found.phase = .adding)
      (clients : next.clients = (state.addClient session found).clients)
      (present : ∀ other ssl username, Present next.sessions other ssl username ↔
        Present state.sessions other ssl username ∨
          other = session ∧ ssl = found.ssl ∧ username = found.username)
  | removes (session : Nat) (found : Session) (lookup : state.sessions session = some found)
      (here : found.phase = .removing)
      (clients : next.clients = ClientTables.removeClient found.ssl state.clients)
      (present : ∀ other ssl username, Present next.sessions other ssl username ↔
        other ≠ session ∧ Present state.sessions other ssl username)

theorem proceed_seating {state next : State} {session : Nat} {found : Session}
    (lookup : state.sessions session = some found)
    (stepped : proceed state session found = some next) :
    Seating state next (.proceed session) := by
  unfold proceed at stepped
  split at stepped
  case h_1 here =>
    cases stepped
    refine Seating.adds session found rfl lookup here rfl ?_
    intro other ssl username
    rw [State.move, add_client_sessions]
    exact present_entered lookup (by simp [here, Phase.Active, Phase.rank])
      (by simp [Phase.Active, Phase.rank]) rfl rfl
  case h_2 notice here =>
    cases stepped
    refine Seating.nothing rfl ?_
    intro other ssl username
    apply present_kept lookup
    cases notice <;> simp [here, Phase.Active, Phase.rank, Session.message]
  case h_3 message here =>
    cases stepped
    refine Seating.nothing rfl ?_
    intro other ssl username
    apply present_kept lookup
    obtain ⟨author, seq, notice, text, sender⟩ := message
    cases notice <;> simp [here, Phase.Active, Phase.rank, Notice.next]
  case h_4 here =>
    cases stepped
    refine Seating.nothing rfl ?_
    intro other ssl username
    exact present_kept lookup (by simp [here, Phase.Active, Phase.rank])
  case h_5 here =>
    cases stepped
    refine Seating.removes session found lookup here rfl ?_
    intro other ssl username
    exact present_left (by simp [Phase.Active, Phase.rank])
  case h_6 here =>
    cases stepped
    refine Seating.nothing rfl ?_
    intro other ssl username
    exact present_kept lookup (by simp [here, Phase.Active, Phase.rank])
  case h_7 => cases stepped

theorem step_seating {state next : State} {action : Action}
    (stepped : step state action = some next) : Seating state next action := by
  have outside : ∀ {found : Session} {later : Session},
      state.sessions action.session = some found → found.phase.rank < 3 →
      (later.phase.rank < 3 ∨ 9 < later.phase.rank) → next.clients = state.clients →
      next.sessions = Function.update state.sessions action.session (some later) →
      Seating state next action := by
    intro found later lookup early away clients sessions
    refine Seating.nothing clients ?_
    intro other ssl username
    rw [sessions]
    apply present_outside
    · intro result resultLookup active
      rw [lookup] at resultLookup
      cases resultLookup
      exact absurd active.1 (by omega)
    · intro active
      rcases active with ⟨lower, upper⟩
      omega
  cases action with
  | accept session ssl =>
      obtain ⟨unborn, _, _, same⟩ := accept_cases stepped
      subst same
      refine Seating.nothing rfl ?_
      intro other otherSsl username
      apply present_outside
      · intro found lookup
        have impossible := unborn.symm.trans lookup
        cases impossible
      · simp [Phase.Active, Phase.rank]
  | handshake session success =>
      obtain ⟨found, lookup, here, ⟨_, same⟩ | ⟨_, same⟩⟩ := handshake_cases stepped
      · subst same
        exact outside lookup (by simp [here, Phase.rank]) (Or.inl (by simp [Phase.rank])) rfl rfl
      · subst same
        exact outside lookup (by simp [here, Phase.rank]) (Or.inr (by simp [Phase.rank])) rfl rfl
  | authenticate session result =>
      obtain ⟨found, lookup, here, ⟨_, same⟩ | ⟨name, _, same⟩⟩ := authenticate_cases stepped
      · subst same
        exact outside lookup (by simp [here, Phase.rank]) (Or.inr (by simp [Phase.rank])) rfl rfl
      · subst same
        exact outside lookup (by simp [here, Phase.rank]) (Or.inl (by simp [Phase.rank])) rfl rfl
  | receive session record =>
      obtain ⟨found, lookup, here, ⟨_, same⟩ | ⟨buffer, _, same⟩⟩ := receive_cases stepped
      · subst same
        refine Seating.nothing rfl ?_
        intro other ssl username
        exact present_kept lookup (by simp [here, Phase.Active, Phase.rank])
      · subst same
        refine Seating.nothing rfl ?_
        intro other ssl username
        exact present_kept lookup (by simp [here, Phase.Active, Phase.rank])
  | proceed session =>
      obtain ⟨found, lookup, proceeded⟩ := proceed_cases stepped
      exact proceed_seating lookup proceeded

section Exactness

variable {members : List Nat} {state next : State} {action : Action}

theorem present_apart {session other : Nat} {found : Session} {username : Bytes}
    (owns : Owns state.sessions Session.ssl Session.Alive state.heap)
    (lookup : state.sessions session = some found) (alive : Session.Alive found)
    (present : Present state.sessions other found.ssl username) : other = session := by
  obtain ⟨result, resultLookup, active, own, _⟩ := present
  have owner := owns.held other result resultLookup (active_not_ended active)
  rw [own, owns.held session found lookup alive] at owner
  exact (Option.some.inj owner).symm

theorem hears_of_slotted (registered : Registered members state) (fits : Fits state)
    (slotted : Slotted state.sessions state.clients) : Hears state := by
  intro session ssl username author speaking notice next present apart lookup here stepped
  obtain ⟨slot, held, _⟩ := slotted.seats session ssl username present
  obtain ⟨found, foundLookup, active, own, _⟩ := present
  have alive : Session.Alive speaking := by simp [Session.Alive, here]
  have listed : found.ssl ∈ activeSsls state.clients := by
    rw [own]
    exact List.mem_map.mpr
      ⟨_, List.mem_filter.mpr ⟨List.mem_of_getElem? held, rfl⟩, rfl⟩
  have member : session ∈ members := by
    by_contra outsider
    exact unlisted_of_outsider registered foundLookup (active_not_ended active) outsider listed
  have sender : sslOf state.sessions session ≠ (speaking.message author notice).sender := by
    rw [sslOf, key_of_some foundLookup]
    cases notice with
    | joined => exact (fits session found foundLookup).1
    | left => exact (fits session found foundLookup).1
    | said buffer =>
        intro same
        have sameSsl : found.ssl = speaking.ssl := same
        apply apart
        apply Eq.symm
        apply present_apart registered.owns lookup alive
        exact ⟨found, foundLookup, active, sameSsl, rfl⟩
  have written : next.live session = writeAll state.heap (speaking.message author notice)
      state.live (recipients (speaking.message author notice).sender state.clients) session := by
    simp only [step, lookup, proceed, here, Option.some.injEq] at stepped
    rw [← stepped]
    rfl
  rw [written, write_all_apply, copies_of_broadcast registered, if_pos ⟨member, sender⟩]
  rfl

theorem slotted_step (registered : Registered members state) (fits : Fits state)
    (slotted : Slotted state.sessions state.clients) (room : FindsRoom state action)
    (stepped : step state action = some next) : Slotted next.sessions next.clients := by
  cases step_seating stepped with
  | nothing clients present =>
      rw [clients]
      exact slotted.congr present
  | adds session found acts lookup here clients present =>
      subst acts
      have alive : Session.Alive found := by simp [Session.Alive, here]
      have fresh : ∀ other name, ¬Present state.sessions other found.ssl name := by
        intro other name inside
        have same := present_apart registered.owns lookup alive inside
        subst same
        have active := ((present_of_lookup lookup).mp inside).1
        simp [here, Phase.Active, Phase.rank] at active
      rw [clients]
      unfold State.addClient
      split
      · rename_i added
        obtain ⟨⟨client, free, inactive⟩, written⟩ := add_client_set added
        rw [List.take_of_length_le (fits session found lookup).2] at written
        rw [State.note, written]
        exact slotted.add free inactive fresh present
      · rename_i full
        -- every slot taken would be 100 sessions in the chat
        have few : members.length < maxClients := by
          apply room found lookup here members registered.room.lists.distinct
          intro other member
          obtain ⟨result, resultLookup, active⟩ := registered.room.active other member
          exact ⟨_, _, result, resultLookup, active, rfl, rfl⟩
        have length := add_client_none full
        rw [registered.room.lists.length_eq, registered.room.size] at length
        omega
  | removes session found lookup here clients present =>
      rw [clients]
      have active : found.phase.Active := by simp [here, Phase.Active, Phase.rank]
      exact slotted.remove ⟨found, lookup, active, rfl, rfl⟩ present

theorem finds_room_of_slotted (size : next.clients.length = maxClients)
    (slotted : Slotted next.sessions next.clients) (stepped : step state action = some next) :
    FindsRoom state action := by
  cases action with
  | proceed session =>
      intro found lookup here sessions distinct present
      have outside : ¬found.phase.Active := by simp [here, Phase.Active, Phase.rank]
      have moved : next.sessions = Function.update state.sessions session
          (some { found with phase := .broadcasting .joined }) := by
        simp only [step, lookup, proceed, here, Option.some.injEq] at stepped
        rw [← stepped, State.move, add_client_sessions]
      have entered : ∀ other ssl username, Present next.sessions other ssl username ↔
          Present state.sessions other ssl username ∨
            other = session ∧ ssl = found.ssl ∧ username = found.username := by
        intro other ssl username
        rw [moved]
        exact present_entered lookup outside (by simp [Phase.Active, Phase.rank]) rfl rfl
      have apart : session ∉ sessions := by
        intro member
        obtain ⟨ssl, username, inside⟩ := present session member
        exact outside ((present_of_lookup lookup).mp inside).1
      have length : (session :: sessions).length ≤ next.clients.length := by
        apply slotted.length_le (List.nodup_cons.mpr ⟨apart, distinct⟩)
        intro other member
        rcases List.mem_cons.mp member with same | old
        · exact ⟨_, _, (entered _ _ _).mpr (Or.inr ⟨same, rfl, rfl⟩)⟩
        · obtain ⟨ssl, username, inside⟩ := present other old
          exact ⟨ssl, username, (entered _ _ _).mpr (Or.inl inside)⟩
      rw [List.length_cons, size] at length
      omega
  | _ => trivial

end Exactness

structure Kept (state : State) : Prop where
  recorded : Recorded state
  registered : ∃ members, Registered members state
  fits : Fits state

theorem kept_initial : Kept initial where
  recorded := recorded_initial
  registered := ⟨[], registered_initial⟩
  fits := by
    intro session found lookup
    cases lookup

theorem kept_step {state next : State} {action : Action} (kept : Kept state)
    (stepped : step state action = some next) : Kept next := by
  obtain ⟨members, registered⟩ := kept.registered
  exact ⟨recorded_step kept.recorded stepped, registered_step kept.recorded registered stepped,
    fits_step kept.fits stepped⟩

theorem finds_room_iff {state next : State} {action : Action} (kept : Kept state)
    (seated : Seated state) (stepped : step state action = some next) :
    FindsRoom state action ↔ Seated next := by
  have keptNext := kept_step kept stepped
  obtain ⟨members, registered⟩ := kept.registered
  obtain ⟨nextMembers, nextRegistered⟩ := keptNext.registered
  constructor
  · intro room
    have slotted := slotted_step registered kept.fits seated.slotted room stepped
    exact ⟨slotted, hears_of_slotted nextRegistered keptNext.fits slotted⟩
  · intro seatedNext
    exact finds_room_of_slotted nextRegistered.room.size seatedNext.slotted stepped

theorem seated_initial : Seated initial := by
  have slotted : Slotted initial.sessions initial.clients := by
    constructor
    case seats =>
      intro session ssl username present
      obtain ⟨found, lookup, _⟩ := present
      cases lookup
    case taken =>
      intro slot client lookup active
      have blank := List.eq_of_mem_replicate (List.mem_of_getElem? lookup)
      rw [blank] at active
      cases active
  exact ⟨slotted, hears_of_slotted registered_initial kept_initial.fits slotted⟩

/-- Every session that has been let in has its own slot and hears the others, in every
state that a run passes through, exactly when no session calls `add_client` with 100
others in the chat. -/
theorem sessions_seated_iff (actions : List Action) :
    (∀ before after reached, actions = before ++ after →
        run step initial before = some reached → Seated reached) ↔
      Meets step FindsRoom initial actions := by
  apply meets_iff_always_good (fun _ _ _ kept stepped => kept_step kept stepped)
    (fun _ _ _ kept seated stepped => finds_room_iff kept seated stepped) _ kept_initial
    seated_initial
  intro state action disabled
  cases action with
  | proceed session =>
      intro found lookup here
      simp [step, lookup, proceed, here] at disabled
  | _ => trivial

def enter (session : Nat) : List Action :=
  [.accept session (session + 1), .handshake session true,
    .authenticate session (some (ascii "al")), .proceed session]

/-- So many sessions enter, and none leaves. -/
def crowd (size : Nat) : List Action := (List.range size).flatMap enter

structure Entered (size : Nat) (state : State) : Prop where
  idle : state.accepting = none
  inside : ∀ session < size, ∃ ssl username, Present state.sessions session ssl username
  unborn : ∀ session, size ≤ session → state.sessions session = none
  unused : ∀ ssl, size < ssl → state.heap ssl = none

theorem enter_runs {size : Nat} {state : State} (entered : Entered size state) :
    ∃ final, run step state (enter size) = some final ∧ Entered (size + 1) final := by
  let admitted : Session := ⟨size + 1, ascii "al", .adding, 0⟩
  let before : State := { state with
    sessions := Function.update state.sessions size (some admitted)
    accepting := none
    heap := Function.update state.heap (size + 1) (some size) }
  have name : (cstr (ascii "al")).take 50 = ascii "al" := rfl
  have arrived : run step state [.accept size (size + 1), .handshake size true,
      .authenticate size (some (ascii "al"))] = some before := by
    simp [run, step, State.move, entered.unborn size le_rfl, entered.idle,
      entered.unused (size + 1) (Nat.lt_succ_self size), null, name, before, admitted]
  have added : step before (.proceed size) = some ((before.addClient size admitted).move size
      { admitted with phase := .broadcasting .joined }) := by
    simp [step, before, proceed, admitted]
  obtain ⟨clients, event, _, same⟩ := add_client_cases before size admitted
  refine ⟨_, (run_append arrived).trans (run_cons_some.mpr ⟨_, added, rfl⟩), ?_⟩
  rw [same]
  constructor
  case idle => rfl
  case inside =>
    intro session bound
    by_cases own : session = size
    · subst own
      exact ⟨_, _, _, Function.update_self _ _ _, by simp [Phase.Active, Phase.rank], rfl, rfl⟩
    · obtain ⟨ssl, username, present⟩ := entered.inside session (by omega)
      refine ⟨ssl, username, ?_⟩
      simp only [State.note, State.move, before]
      rw [present_elsewhere own, present_elsewhere own]
      exact present
  case unborn =>
    intro session bound
    have apart : session ≠ size := by omega
    simp only [State.note, State.move, before]
    rw [Function.update_of_ne apart, Function.update_of_ne apart]
    exact entered.unborn session (by omega)
  case unused =>
    intro ssl bound
    have apart : ssl ≠ size + 1 := by omega
    simp only [State.note, State.move, before]
    rw [Function.update_of_ne apart]
    exact entered.unused ssl (by omega)

theorem crowd_runs (size : Nat) :
    ∃ final, run step initial (crowd size) = some final ∧ Entered size final := by
  have begins : Entered 0 initial := by
    refine ⟨rfl, ?_, fun _ _ => rfl, fun _ _ => rfl⟩
    intro session bound
    exact absurd bound (Nat.not_lt_zero session)
  exact run_rounds begins (fun _ _ entered => enter_runs entered) size

/-- With 101 sessions in the chat, one of them has no slot. -/
theorem crowd_has_no_seats :
    ∃ reached, run step initial (crowd 101) = some reached ∧
      (∀ session < 101, ∃ ssl username, Present reached.sessions session ssl username) ∧
      ¬Seated reached := by
  obtain ⟨reached, ran, entered⟩ := crowd_runs 101
  refine ⟨reached, ran, entered.inside, ?_⟩
  intro seated
  have kept : Kept reached :=
    run_keeps_always (fun _ _ _ kept stepped => kept_step kept stepped) kept_initial ran
  obtain ⟨members, registered⟩ := kept.registered
  have present : ∀ session ∈ List.range 101,
      ∃ ssl username, Present reached.sessions session ssl username := by
    intro session member
    exact entered.inside session (List.mem_range.mp member)
  have few := seated.slotted.length_le List.nodup_range present
  rw [List.length_range, registered.room.size] at few
  exact absurd few (by decide)

end LinuxFff.TlsSlots
