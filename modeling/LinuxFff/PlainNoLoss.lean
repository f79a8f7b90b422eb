import LinuxFff.PlainDelivery

/-!
# No message is lost to a joining client of `server.c`

A message is saved before it is broadcast, and a connection is registered
before it replays the log. When the registration comes first, the broadcast
finds the connection in the table, whatever entries were removed in between;
when the broadcast comes first, the message is in the log before the replay.
-/

namespace LinuxFff.PlainNoLoss

open LinuxFff.CString LinuxFff.ClientTables LinuxFff.EventOrder
open LinuxFff.Ownership LinuxFff.Roster LinuxFff.StepSystem LinuxFff.PlainServer
open LinuxFff.PlainDelivery

set_option autoImplicit false

def Event.conn : Event → Nat
  | .registered conn => conn
  | .replayed conn => conn
  | .saved message => message.author
  | .broadcast message => message.author
  | .closed conn => conn
  | .removed conn => conn

/-- The rank that a connection has reached once it has caused the event. -/
def Event.rank : Event → Nat
  | .registered _ => 2
  | .replayed _ => 3
  | .saved _ => 4
  | .broadcast _ => 3
  | .closed _ => 7
  | .removed _ => 8

structure Kept (state : State) : Prop where
  past : ∀ event ∈ state.history, ∃ found,
    state.conns (Event.conn event) = some found ∧ Event.rank event ≤ found.phase.rank
  shut : ∀ conn found, state.conns conn = some found → Event.registered conn ∈ state.history →
    7 ≤ found.phase.rank → Event.closed conn ∈ state.history
  enrolled : ∀ conn found, state.conns conn = some found → found.phase.Listed →
    Event.registered conn ∈ state.history
  ordered : ∀ conn, Event.replayed conn ∈ state.history → Event.registered conn ∈ state.history
  pending : ∀ conn found, state.conns conn = some found → ∀ buffer,
    found.phase = .broadcasting (.said buffer) → found.message conn (.said buffer) ∈ state.chatlog
  spoken : ∀ message buffer, Event.broadcast message ∈ state.history →
    message.notice = .said buffer → message ∈ state.chatlog
  reached : ∀ message conn, Before (.registered conn) (.broadcast message) state.history →
    ¬Before (.closed conn) (.broadcast message) state.history → message.author ≠ conn →
    message ∈ state.live conn
  replayed : ∀ message buffer conn, message.notice = .said buffer →
    Before (.broadcast message) (.registered conn) state.history →
    Event.replayed conn ∈ state.history → message ∈ state.replayed conn

theorem kept_initial : Kept initial where
  past := by
    intro event member
    cases member
  shut := by
    intro conn found lookup
    cases lookup
  enrolled := by
    intro conn found lookup
    cases lookup
  ordered := by
    intro conn member
    cases member
  pending := by
    intro conn found lookup
    cases lookup
  spoken := by
    intro message buffer member
    cases member
  reached := by
    intro message conn before
    exact absurd before not_before_nil
  replayed := by
    intro message buffer conn said before
    exact absurd before not_before_nil

section Steps

variable {state next : State} {conn : Nat} {found moved : Conn}

theorem past_update {history : List Event}
    (past : ∀ event ∈ history, ∃ found,
      state.conns (Event.conn event) = some found ∧ Event.rank event ≤ found.phase.rank)
    (lookup : state.conns conn = some found)
    (conns : next.conns = Function.update state.conns conn (some moved))
    (rank : found.phase.rank ≤ moved.phase.rank) :
    ∀ event ∈ history, ∃ found,
      next.conns (Event.conn event) = some found ∧ Event.rank event ≤ found.phase.rank := by
  intro event member
  obtain ⟨owner, ownerLookup, reached⟩ := past event member
  rw [conns]
  by_cases same : Event.conn event = conn
  · rw [same, lookup] at ownerLookup
    cases ownerLookup
    rw [same, Function.update_self]
    exact ⟨moved, rfl, Nat.le_trans reached rank⟩
  · rw [Function.update_of_ne same]
    exact ⟨owner, ownerLookup, reached⟩

structure Silent (state next : State) (conn : Nat) (moved : Conn) : Prop where
  conns : next.conns = Function.update state.conns conn (some moved) := by rfl
  live : next.live = state.live := by rfl
  chatlog : next.chatlog = state.chatlog := by rfl
  replays : next.replayed = state.replayed := by rfl
  history : next.history = state.history := by rfl

theorem kept_silent (holds : Kept state) (moved : Conn) (silent : Silent state next conn moved)
    (past : ∀ event ∈ state.history, ∃ found,
      next.conns (Event.conn event) = some found ∧ Event.rank event ≤ found.phase.rank)
    (shut : Event.registered conn ∈ state.history → 7 ≤ moved.phase.rank →
      Event.closed conn ∈ state.history)
    (enrolled : moved.phase.Listed → Event.registered conn ∈ state.history)
    (quiet : ∀ buffer, moved.phase ≠ .broadcasting (.said buffer)) : Kept next where
  past := by
    rw [silent.history]
    exact past
  shut := by
    rw [silent.history]
    exact forall_update holds.shut silent.conns shut
  enrolled := by
    rw [silent.history]
    exact forall_update holds.enrolled silent.conns enrolled
  ordered := by
    rw [silent.history]
    exact holds.ordered
  pending := by
    rw [silent.chatlog]
    exact forall_update holds.pending silent.conns fun buffer said => absurd said (quiet buffer)
  spoken := by
    rw [silent.history, silent.chatlog]
    exact holds.spoken
  reached := by
    rw [silent.history, silent.live]
    exact holds.reached
  replayed := by
    rw [silent.history, silent.replays]
    exact holds.replayed

/-- A step that moves one connection and records one event; what the event
means for the log and the streams. -/
structure Records (state next : State) (conn : Nat) (found moved : Conn) (event : Event) :
    Prop where
  lookup : state.conns conn = some found
  conns : next.conns = Function.update state.conns conn (some moved) := by rfl
  history : next.history = state.history ++ [event] := by rfl
  own : Event.conn event = conn := by rfl
  rank : found.phase.rank ≤ moved.phase.rank
  here : Event.rank event ≤ moved.phase.rank
  shut : 7 ≤ moved.phase.rank → Event.closed conn ∈ state.history ++ [event]
  enrolled : Event.registered conn ∈ state.history ++ [event]
  pending : ∀ buffer, moved.phase = .broadcasting (.said buffer) →
    moved.message conn (.said buffer) ∈ next.chatlog
  log : ∀ message ∈ state.chatlog, message ∈ next.chatlog := by exact fun _ member => member
  live : ∀ message reader, message ∈ state.live reader → message ∈ next.live reader := by
    exact fun _ _ member => member
  spoken : ∀ message buffer, event = .broadcast message → message.notice = .said buffer →
    message ∈ next.chatlog := by simp
  reached : ∀ message reader, event = .broadcast message →
    Event.registered reader ∈ state.history → Event.closed reader ∉ state.history →
    message.author ≠ reader → message ∈ next.live reader := by simp
  replays : ∀ message reader, event ≠ .replayed reader → message ∈ state.replayed reader →
    message ∈ next.replayed reader := by exact fun _ _ _ member => member
  replay : ∀ reader, event = .replayed reader → next.replayed reader = state.chatlog := by simp
  notYet : ∀ reader, event = .registered reader →
    Event.replayed reader ∉ state.history := by simp
  ordered : ∀ reader, event = .replayed reader →
    Event.registered reader ∈ state.history := by simp

theorem kept_event {event : Event} (holds : Kept state)
    (records : Records state next conn found moved event) : Kept next where
  past := by
    rw [records.history]
    intro other member
    rcases List.mem_append.mp member with old | new
    · exact past_update holds.past records.lookup records.conns records.rank other old
    · rw [List.mem_singleton.mp new, records.own, records.conns, Function.update_self]
      exact ⟨moved, rfl, records.here⟩
  shut := by
    rw [records.history]
    refine forall_update ?_ records.conns fun _ => records.shut
    intro other result lookup registered closed
    by_cases same : other = conn
    · rw [same, records.lookup] at lookup
      cases lookup
      rw [same]
      exact records.shut (Nat.le_trans closed records.rank)
    · rcases List.mem_append.mp registered with old | new
      · exact List.mem_append_left _ (holds.shut other result lookup old closed)
      · have own := records.own
        rw [← List.mem_singleton.mp new] at own
        exact absurd own same
  enrolled := by
    rw [records.history]
    refine forall_update ?_ records.conns fun _ => records.enrolled
    intro other result lookup listed
    exact List.mem_append_left _ (holds.enrolled other result lookup listed)
  ordered := by
    rw [records.history]
    intro reader member
    apply List.mem_append_left
    rcases List.mem_append.mp member with old | new
    · exact holds.ordered reader old
    · exact records.ordered reader (List.mem_singleton.mp new).symm
  pending := by
    refine forall_update ?_ records.conns records.pending
    intro other result lookup buffer said
    exact records.log _ (holds.pending other result lookup buffer said)
  spoken := by
    rw [records.history]
    intro message buffer member said
    rcases List.mem_append.mp member with old | new
    · exact records.log message (holds.spoken message buffer old said)
    · exact records.spoken message buffer (List.mem_singleton.mp new).symm said
  reached := by
    rw [records.history]
    intro message reader before connected other
    rw [before_snoc] at before connected
    rcases before with old | ⟨registered, now⟩
    · apply records.live message reader
      exact holds.reached message reader old (fun closed => connected (Or.inl closed)) other
    · exact records.reached message reader now.symm registered
        (fun closed => connected (Or.inr ⟨closed, now⟩)) other
  replayed := by
    rw [records.history]
    intro message buffer reader said before member
    by_cases now : event = .replayed reader
    · have earlier : Before (.broadcast message) (.registered reader) state.history := by
        rcases before_snoc.mp before with old | ⟨_, last⟩
        · exact old
        · rw [now] at last
          cases last
      rw [records.replay reader now]
      exact holds.spoken message buffer earlier.mem_first said
    · have already : Event.replayed reader ∈ state.history := by
        rcases List.mem_append.mp member with old | new
        · exact old
        · exact absurd (List.mem_singleton.mp new).symm now
      apply records.replays message reader now
      rcases before_snoc.mp before with old | ⟨_, last⟩
      · exact holds.replayed message buffer reader said old already
      · exact absurd already (records.notYet reader last.symm)

end Steps

theorem broadcast_reaches {members : List Nat} {state : State} {author reader : Nat}
    {found moved : Conn} {message : Message} (wired : Wired members state)
    (lookup : state.conns author = some found) (speaking : found.phase.InChat)
    (inChat : InChat state reader) (other : author ≠ reader) :
    message ∈ ((state.broadcast message found.sock).move author moved).live reader := by
  have written : ((state.broadcast message found.sock).move author moved).live reader =
      state.live reader ++ List.replicate
        (copies state.descriptors reader (sendTargets found.sock state.clients)) message :=
    write_all_apply _ _ _
  obtain ⟨member, owner⟩ := in_chat_wired wired inChat
  have authorOwner := (in_chat_wired wired ⟨found, lookup, speaking⟩).2
  rw [sockOf, key_of_some lookup] at authorOwner
  have apart : sockOf state.conns reader ≠ found.sock := by
    intro same
    rw [same, authorOwner] at owner
    exact other (Option.some.inj owner)
  have positive : 0 < members.countP (reaches state found.sock reader) :=
    List.countP_pos_iff.mpr ⟨reader, member, reaches_iff.mpr ⟨owner, apart⟩⟩
  rw [written, copies_of_targets wired, List.mem_append, List.mem_replicate]
  exact Or.inr ⟨Nat.pos_iff_ne_zero.mp positive, rfl⟩

theorem quiet_low {before after : Phase} (moved : Quiet before after) :
    ¬7 ≤ after.rank ∧ ∀ buffer, after ≠ .broadcasting (.said buffer) := by
  cases moved <;> simp [Phase.rank]

theorem broadcasting_low (notice : Notice) :
    3 ≤ notice.next.rank ∧ ¬7 ≤ notice.next.rank ∧
      ∀ other, notice.next ≠ .broadcasting other := by
  cases notice <;> simp [Phase.rank, Notice.next]

theorem in_chat_of_history {state : State} (holds : Kept state) {reader : Nat}
    (registered : Event.registered reader ∈ state.history)
    (connected : Event.closed reader ∉ state.history) : InChat state reader := by
  obtain ⟨found, lookup, reached⟩ := holds.past _ registered
  refine ⟨found, lookup, reached, ?_⟩
  by_contra beyond
  exact connected (holds.shut reader found lookup registered (Nat.lt_of_not_le beyond))

theorem enrolled_of_listed {state : State} (holds : Kept state) {conn : Nat} {found : Conn}
    {event : Event} (lookup : state.conns conn = some found) (listed : found.phase.Listed) :
    Event.registered conn ∈ state.history ++ [event] :=
  List.mem_append_left _ (holds.enrolled conn found lookup listed)

section Recorded

variable {members : List Nat} {state : State} {conn : Nat} {found : Conn}

theorem records_register {entry : Entry} (holds : Kept state)
    (lookup : state.conns conn = some found) (here : found.phase = .registering) :
    Records state { (state.note (.registered conn)).move conn { found with phase := .replaying } with
      current := none
      clients := state.clients ++ [entry] } conn found { found with phase := .replaying }
      (.registered conn) where
  lookup := lookup
  rank := by simp [here, Phase.rank]
  here := by simp [Event.rank, Phase.rank]
  shut := by simp [Phase.rank]
  enrolled := by simp
  pending := by simp
  notYet := by
    intro reader same replayed
    cases same
    obtain ⟨owner, ownerLookup, reached⟩ := holds.past _ replayed
    have same : owner = found := Option.some.inj (ownerLookup.symm.trans lookup)
    have three : 3 ≤ found.phase.rank := same ▸ reached
    rw [here] at three
    exact absurd three (by decide)

theorem records_replay (holds : Kept state) (lookup : state.conns conn = some found)
    (here : found.phase = .replaying) :
    Records state ((state.replay conn).move conn { found with phase := .broadcasting .joined })
      conn found { found with phase := .broadcasting .joined } (.replayed conn) where
  lookup := lookup
  rank := by simp [here, Phase.rank]
  here := by simp [Event.rank, Phase.rank]
  shut := by simp [Phase.rank]
  enrolled := enrolled_of_listed holds lookup (by simp [here, Phase.Listed, Phase.rank])
  pending := by simp
  replays := by
    intro message reader apart member
    have other : reader ≠ conn := fun same => apart (by rw [same])
    have kept : ((state.replay conn).move conn
        { found with phase := .broadcasting .joined }).replayed reader =
        state.replayed reader := Function.update_of_ne other _ _
    rw [kept]
    exact member
  replay := by
    intro reader same
    cases same
    exact Function.update_self _ _ _
  ordered := by
    intro reader same
    cases same
    exact holds.enrolled _ found lookup (by simp [here, Phase.Listed, Phase.rank])

theorem records_broadcast {notice : Notice} (wired : Wired members state) (holds : Kept state)
    (lookup : state.conns conn = some found) (here : found.phase = .broadcasting notice) :
    Records state ((state.broadcast (found.message conn notice) found.sock).move conn
        { found with phase := notice.next, sent := found.sent + 1 })
      conn found { found with phase := notice.next, sent := found.sent + 1 }
      (.broadcast (found.message conn notice)) where
  lookup := lookup
  rank := here ▸ (broadcasting_rank notice).2.2
  here := (broadcasting_low notice).1
  shut := fun high => absurd high (broadcasting_low notice).2.1
  enrolled := enrolled_of_listed holds lookup
    (here ▸ listed_of_in_chat (broadcasting_rank notice).1)
  pending := fun _ said => absurd said ((broadcasting_low notice).2.2 _)
  live := by
    intro message reader member
    have written : ((state.broadcast (found.message conn notice) found.sock).move conn
        { found with phase := notice.next, sent := found.sent + 1 }).live reader =
        state.live reader ++ List.replicate
          (copies state.descriptors reader (sendTargets found.sock state.clients))
          (found.message conn notice) := write_all_apply _ _ _
    rw [written]
    exact List.mem_append_left _ member
  spoken := by
    intro message buffer same said
    cases same
    have noticeSaid : notice = .said buffer := said
    rw [noticeSaid] at here ⊢
    exact holds.pending _ found lookup buffer here
  reached := by
    intro message reader same registered connected other
    cases same
    exact broadcast_reaches wired lookup (here ▸ (broadcasting_rank notice).1)
      (in_chat_of_history holds registered connected) other

theorem records_save {buffer : Bytes} (holds : Kept state)
    (lookup : state.conns conn = some found) (here : found.phase = .saving buffer) :
    Records state ((state.saveChatToFile (found.message conn (.said buffer))).move conn
        { found with phase := .broadcasting (.said buffer) })
      conn found { found with phase := .broadcasting (.said buffer) }
      (.saved (found.message conn (.said buffer))) where
  lookup := lookup
  rank := by simp [here, Phase.rank]
  here := by simp [Event.rank, Phase.rank]
  shut := by simp [Phase.rank]
  enrolled := enrolled_of_listed holds lookup (by simp [here, Phase.Listed, Phase.rank])
  pending := by
    intro other said
    cases said
    exact List.mem_append_right _ (List.mem_singleton.mpr rfl)
  log := fun _ member => List.mem_append_left _ member

theorem records_close (holds : Kept state) (lookup : state.conns conn = some found)
    (here : found.phase = .closing) :
    Records state (((state.close found.sock).note (.closed conn)).move conn
        { found with phase := .removing })
      conn found { found with phase := .removing } (.closed conn) where
  lookup := lookup
  rank := by simp [here, Phase.rank]
  here := by simp [Event.rank, Phase.rank]
  shut := by simp
  enrolled := enrolled_of_listed holds lookup (by simp [here, Phase.Listed, Phase.rank])
  pending := by simp

theorem records_remove (holds : Kept state) (lookup : state.conns conn = some found)
    (here : found.phase = .removing) :
    Records state { (state.note (.removed conn)).move conn { found with phase := .ended } with
        clients := removeEntry found.sock state.clients }
      conn found { found with phase := .ended } (.removed conn) where
  lookup := lookup
  rank := by simp [here, Phase.rank]
  here := by simp [Event.rank, Phase.rank]
  shut := by
    intro _
    apply List.mem_append_left
    apply holds.shut conn found lookup
    · exact holds.enrolled conn found lookup (by simp [here, Phase.Listed, Phase.rank])
    · simp [here, Phase.rank]
  enrolled := enrolled_of_listed holds lookup (by simp [here, Phase.Listed, Phase.rank])
  pending := by simp

end Recorded

theorem kept_step {members : List Nat} {state next : State} {action : Action}
    (wired : Wired members state) (holds : Kept state) (stepped : step state action = some next) :
    Kept next := by
  cases step_effect stepped with
  | accept number unborn unused =>
      apply kept_silent holds ⟨number, [], .handshake, 0⟩ {}
      · intro event member
        obtain ⟨found, lookup, reached⟩ := holds.past event member
        have apart : Event.conn event ≠ action.conn := by
          intro same
          rw [same, unborn] at lookup
          cases lookup
        exact ⟨found, (Function.update_of_ne apart _ _).trans lookup, reached⟩
      · simp [Phase.rank]
      · simp [Phase.Listed, Phase.rank]
      · simp
  | quiet found username phase lookup moved named =>
      obtain ⟨rank, _, listed⟩ := quiet_rank moved
      obtain ⟨low, silent⟩ := quiet_low moved
      apply kept_silent holds { found with username, phase } {}
      · exact past_update holds.past lookup rfl rank
      · exact fun _ high => absurd high low
      · exact fun after => holds.enrolled _ found lookup (listed.mp after)
      · exact silent
  | turnAway found lookup here =>
      have rank : found.phase.rank ≤ 1 := by
        rcases here with here | here <;> simp [here, Phase.rank]
      have last : Phase.ended.rank = 8 := rfl
      apply kept_silent holds { found with phase := .ended } {}
      · apply past_update holds.past lookup rfl
        rw [last]
        omega
      · intro registered _
        obtain ⟨owner, ownerLookup, reached⟩ := holds.past _ registered
        have same : owner = found := Option.some.inj (ownerLookup.symm.trans lookup)
        have two : 2 ≤ found.phase.rank := same ▸ reached
        omega
      · simp [Phase.Listed, Phase.rank]
      · simp
  | register found lookup here room =>
      exact kept_event holds (records_register holds lookup here)
  | replay found lookup here => exact kept_event holds (records_replay holds lookup here)
  | broadcast found notice lookup here =>
      exact kept_event holds (records_broadcast wired holds lookup here)
  | save found buffer lookup here => exact kept_event holds (records_save holds lookup here)
  | close found lookup here => exact kept_event holds (records_close holds lookup here)
  | remove found lookup here => exact kept_event holds (records_remove holds lookup here)

theorem kept_run {actions : List Action} {final : State}
    (ran : run step initial actions = some final) : Kept final := by
  have start : (∃ members, Wired members initial) ∧ Kept initial :=
    ⟨⟨[], wired_initial⟩, kept_initial⟩
  have kept : ∀ state action next, ((∃ members, Wired members state) ∧ Kept state) →
      step state action = some next → (∃ members, Wired members next) ∧ Kept next := by
    intro state action next start stepped
    rcases start with ⟨⟨members, wired⟩, holds⟩
    exact ⟨wired_step wired stepped, kept_step wired holds stepped⟩
  exact (run_keeps_always kept start ran).2

structure NulFree (state : State) : Prop where
  conns : ∀ conn found, state.conns conn = some found → (0 : Byte) ∉ found.username
  log : ∀ message ∈ state.chatlog, (0 : Byte) ∉ message.username

theorem nul_free_initial : NulFree initial where
  conns := by
    intro conn found lookup
    cases lookup
  log := by
    intro message member
    cases member

theorem nul_free_step {state next : State} {action : Action} (holds : NulFree state)
    (stepped : step state action = some next) : NulFree next := by
  cases step_effect stepped with
  | accept number unborn unused =>
      exact ⟨forall_update holds.conns rfl (by simp), holds.log⟩
  | quiet found username phase lookup moved named =>
      have clean : (0 : Byte) ∉ username := by
        rcases named with same | ⟨name, copied⟩
        · rw [same]
          exact holds.conns _ found lookup
        · rw [copied]
          exact copied_no_nul name
      exact ⟨forall_update holds.conns rfl clean, holds.log⟩
  | turnAway found lookup here =>
      exact ⟨forall_update holds.conns rfl (holds.conns _ found lookup), holds.log⟩
  | register found lookup here room =>
      exact ⟨forall_update holds.conns rfl (holds.conns _ found lookup), holds.log⟩
  | replay found lookup here =>
      exact ⟨forall_update holds.conns rfl (holds.conns _ found lookup), holds.log⟩
  | broadcast found notice lookup here =>
      exact ⟨forall_update holds.conns rfl (holds.conns _ found lookup), holds.log⟩
  | save found buffer lookup here =>
      have clean := holds.conns _ found lookup
      refine ⟨forall_update holds.conns rfl clean, ?_⟩
      intro message member
      rcases List.mem_append.mp member with old | new
      · exact holds.log message old
      · rw [List.mem_singleton.mp new]
        exact clean
  | close found lookup here =>
      exact ⟨forall_update holds.conns rfl (holds.conns _ found lookup), holds.log⟩
  | remove found lookup here =>
      exact ⟨forall_update holds.conns rfl (holds.conns _ found lookup), holds.log⟩

theorem saved_text_no_nul {message : Message} (clean : (0 : Byte) ∉ message.username) :
    (0 : Byte) ∉ message.savedText := by
  have colon : (0 : Byte) ∉ ascii ": " := by decide
  unfold Message.savedText
  split
  · rename_i buffer said
    simp [savedText, clean, colon, cstr_no_nul buffer]
  · simp

/-- At any moment, the replay would write exactly the bytes of the messages
saved so far. -/
theorem replay_writes_messages {actions : List Action} {final : State}
    (ran : run step initial actions = some final) :
    (replayWrites (logFile final.chatlog)).flatten = logFile final.chatlog := by
  have holds : NulFree final := run_keeps_always
    (fun _ _ _ before stepped => nul_free_step before stepped) nul_free_initial ran
  apply replay_writes_flatten
  intro member
  obtain ⟨message, saved, inside⟩ := List.mem_flatMap.mp member
  exact saved_text_no_nul (holds.log message saved) inside

theorem text_of_short {message : Message} {buffer : Bytes} (said : message.notice = .said buffer)
    (noNul : (0 : Byte) ∉ buffer) (short : message.username.length + 2 + buffer.length ≤ 1023) :
    message.text = message.username ++ ascii ": " ++ buffer ∧
      message.savedText = message.username ++ ascii ": " ++ buffer := by
  have colon : (ascii ": ").length = 2 := by decide
  have saved : savedText message.username buffer = message.username ++ ascii ": " ++ buffer := by
    rw [savedText, cstr_of_no_nul noNul]
  constructor
  · rw [Message.text, said, Notice.text, snprintf, saved]
    apply List.take_of_length_le
    rw [List.length_append, List.length_append, colon]
    omega
  · rw [Message.savedText, said]
    exact saved

/-- A message that has been broadcast has reached every other connection whose
replay is done and that was not closed before the broadcast: live, or with the
replay of the log, and with the same bytes. -/
theorem no_message_lost (actions : List Action) (final : State)
    (ran : run step initial actions = some final) (message : Message) (buffer : Bytes)
    (said : message.notice = .said buffer) (noNul : (0 : Byte) ∉ buffer)
    (short : message.username.length + 2 + buffer.length ≤ 1023) (reader : Nat)
    (other : message.author ≠ reader) (replayed : Event.replayed reader ∈ final.history)
    (finished : Event.broadcast message ∈ final.history)
    (stays : ¬Before (.closed reader) (.broadcast message) final.history) :
    (message ∈ final.replayed reader ∨ message ∈ final.live reader) ∧
      message.text = message.username ++ ascii ": " ++ buffer ∧
      message.savedText = message.username ++ ascii ": " ++ buffer := by
  have holds := kept_run ran
  refine ⟨?_, text_of_short said noNul short⟩
  have registered := holds.ordered reader replayed
  by_cases listedFirst : Before (.registered reader) (.broadcast message) final.history
  · exact Or.inr (holds.reached message reader listedFirst stays other)
  · have sentFirst : Before (.broadcast message) (.registered reader) final.history :=
      (before_or_before (by simp) finished registered).resolve_right listedFirst
    exact Or.inl (holds.replayed message buffer reader said sentFirst replayed)

def hello : Message := ⟨0, 1, .said (ascii "hi"), ascii "al"⟩

/-- The message is saved before connection 1 replays the log, and broadcast after. -/
def overlappingJoin : List Action :=
  join 0 4 (ascii "al") ++
    [.accept 1 5, .login 1 (some (ascii "bo")), .register 1, .receive 0 (some (ascii "hi")),
      .proceed 0, .proceed 1, .proceed 0]

theorem no_message_lost_overlapping_join :
    ∃ final, run step initial overlappingJoin = some final ∧
      (hello ∈ final.replayed 1 ∨ hello ∈ final.live 1) ∧ hello.text = ascii "al: hi" := by
  refine ⟨_, rfl, ?_, by decide⟩
  exact (no_message_lost overlappingJoin _ rfl hello (ascii "hi") rfl (by decide) (by decide) 1
    (by decide) (by decide) (by decide) (by decide)).1

/-- Connection 0 has closed its descriptor and still has its entry when
connection 1 is heard. -/
theorem closed_reader_hears_nothing :
    ∃ final, run step initial (reusedNumber ++ [.proceed 1]) = some final ∧
      Event.registered 0 ∈ final.history ∧ Event.replayed 0 ∈ final.history ∧
      Event.broadcast hi ∈ final.history ∧ Event.removed 0 ∉ final.history ∧
      4 ∈ socks final.clients ∧ final.live 2 = [hi] ∧
      hi ∉ final.replayed 0 ∧ hi ∉ final.live 0 := by
  refine ⟨_, rfl, by decide, by decide, by decide, by decide, by decide, by decide, by decide,
    by decide⟩

end LinuxFff.PlainNoLoss
