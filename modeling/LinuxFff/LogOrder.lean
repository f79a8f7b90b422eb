import LinuxFff.TlsDelivery

/-!
# The order of the log and the order of the chat

A message is broadcast in one critical section and saved in a later step that
takes no lock. The log keeps the order of the chat as long as no thread saves
its message while a thread that broadcast before it still has to save.
-/

namespace LinuxFff.LogOrder

open LinuxFff.CString LinuxFff.EventOrder LinuxFff.StepSystem LinuxFff.TlsDelivery
open LinuxFff.TlsHistory LinuxFff.TlsServer

set_option autoImplicit false

/-- Saved messages stand in the log in the order of their broadcasts. -/
def Agrees (state : State) : Prop :=
  ∀ first second, Before (.broadcast first) (.broadcast second) state.history →
    first ∈ state.chatlog → second ∈ state.chatlog → Before first second state.chatlog

/-- A message is behind everything that was broadcast before it. -/
def CaughtUp (state : State) : Prop :=
  ∀ first second, Before (.broadcast first) (.broadcast second) state.history →
    second ∈ state.chatlog → Before first second state.chatlog

/-- The session is not about to save while another one has still to save a
message that it broadcast before. -/
def SavesInTurn (state : State) (session : Nat) : Prop :=
  ∀ found message, state.sessions session = some found → found.phase = .saving message →
    ∀ other peer earlier, state.sessions other = some peer → peer.phase = .saving earlier →
      ¬Before (.broadcast earlier) (.broadcast message) state.history

def InTurn (state : State) : Action → Prop
  | .proceed session => SavesInTurn state session
  | .accept _ _ | .handshake _ _ | .authenticate _ _ | .receive _ _ => True

/-- A message that has been broadcast is in the log or about to be saved. -/
def Settling (state : State) : Prop :=
  ∀ message, Event.broadcast message ∈ state.history → message ∈ state.chatlog ∨
    ∃ found, state.sessions message.author = some found ∧ found.phase = .saving message

theorem settling_initial : Settling initial := by
  intro message member
  cases member

section Step

variable {state next : State} {session : Nat} {found moved : Session}

theorem Settling.move (settling : Settling state) (free : ∀ found message,
      state.sessions session = some found → found.phase ≠ .saving message)
    (sessions : next.sessions = Function.update state.sessions session (some moved))
    (chatlog : next.chatlog = state.chatlog)
    (history : ∀ message, Event.broadcast message ∈ next.history →
      Event.broadcast message ∈ state.history ∨
        message.author = session ∧ moved.phase = .saving message) : Settling next := by
  intro message member
  rw [chatlog]
  rcases history message member with old | ⟨author, saving⟩
  · rcases settling message old with saved | ⟨result, lookup, saving⟩
    · exact Or.inl saved
    · right
      have apart : message.author ≠ session := by
        intro same
        rw [same] at lookup
        exact free result message lookup saving
      rw [sessions, Function.update_of_ne apart]
      exact ⟨result, lookup, saving⟩
  · right
    rw [sessions, author, Function.update_self]
    exact ⟨moved, rfl, saving⟩

theorem Settling.save (settling : Settling state) {message : Message}
    (lookup : state.sessions session = some found) (here : found.phase = .saving message)
    (moved : Session) : Settling ((state.saveChatLog message).move session moved) := by
  intro other member
  have old : Event.broadcast other ∈ state.history := by
    rcases List.mem_append.mp member with old | new
    · exact old
    · cases List.mem_singleton.mp new
  rcases settling other old with saved | ⟨result, otherLookup, saving⟩
  · exact Or.inl (List.mem_append_left _ saved)
  · by_cases same : other.author = session
    · left
      rw [same, lookup] at otherLookup
      cases otherLookup
      rw [here] at saving
      cases saving
      exact List.mem_append_right _ (List.mem_singleton_self _)
    · right
      refine ⟨result, ?_, saving⟩
      exact (Function.update_of_ne same _ _).trans otherLookup

theorem effect_not_saving (effect : Effect state session next)
    (free : ∀ found message, state.sessions session = some found → found.phase ≠ .saving message) :
    next.chatlog = state.chatlog ∧ ∃ moved,
      next.sessions = Function.update state.sessions session (some moved) ∧
      (next.history = state.history ∨
        (∃ event, next.history = state.history ++ [event] ∧ ∀ message, event ≠ .broadcast message) ∨
        ∃ message, next.history = state.history ++ [.broadcast message] ∧
          message.author = session ∧ moved.phase = .saving message) := by
  cases effect with
  | accept ssl unborn nonNull unused => exact ⟨rfl, _, rfl, Or.inl rfl⟩
  | quiet found username phase accepting lookup moved named => exact ⟨rfl, _, rfl, Or.inl rfl⟩
  | add found lookup here =>
      obtain ⟨clients, event, noted, same⟩ := add_client_cases state session found
      rw [same]
      refine ⟨rfl, _, rfl, Or.inr (Or.inl ⟨event, rfl, ?_⟩)⟩
      rcases noted with added | refused
      · simp [added]
      · simp [refused]
  | broadcast found notice lookup here =>
      exact ⟨rfl, _, rfl, Or.inr (Or.inr ⟨_, rfl, rfl, rfl⟩)⟩
  | save found message lookup here => exact absurd here (free found message lookup)
  | replay found lookup here => exact ⟨rfl, _, rfl, Or.inr (Or.inl ⟨_, rfl, by simp⟩)⟩
  | remove found lookup here => exact ⟨rfl, _, rfl, Or.inr (Or.inl ⟨_, rfl, by simp⟩)⟩
  | free found accepting lookup here => exact ⟨rfl, _, rfl, Or.inl rfl⟩

theorem before_broadcast_snoc {first second : Message} {event : Event} {history : List Event}
    (other : ∀ message, event ≠ .broadcast message) :
    Before (.broadcast first) (.broadcast second) (history ++ [event]) ↔
      Before (.broadcast first) (.broadcast second) history := by
  rw [before_snoc]
  constructor
  · intro before
    rcases before with inside | ⟨_, same⟩
    · exact inside
    · exact absurd same.symm (other second)
  · exact Or.inl

theorem unsaved_of_fresh {message : Message} (recorded : Recorded state)
    (fresh : Event.broadcast message ∉ state.history) : message ∉ state.chatlog := by
  intro saved
  exact fresh (recorded.backed message ((recorded.logged message).mp saved))

theorem caught_up_free (recorded : Recorded state) (after : Recorded next)
    (caughtUp : CaughtUp state) (effect : Effect state session next)
    (free : ∀ found message, state.sessions session = some found →
      found.phase ≠ .saving message) : CaughtUp next := by
  obtain ⟨chatlog, moved, _, history⟩ := effect_not_saving effect free
  intro first second before saved
  rw [chatlog] at saved ⊢
  rcases history with same | ⟨event, grown, silent⟩ | ⟨message, grown, _⟩
  · rw [same] at before
    exact caughtUp first second before saved
  · rw [grown, before_broadcast_snoc silent] at before
    exact caughtUp first second before saved
  · have fresh : Event.broadcast message ∉ state.history := by
      have distinct := after.distinct
      rw [grown] at distinct
      intro member
      exact (List.nodup_append.mp distinct).2.2 _ member _ (List.mem_singleton_self _) rfl
    rw [grown, before_snoc] at before
    rcases before with inside | ⟨_, same⟩
    · exact caughtUp first second inside saved
    · cases same
      exact absurd saved (unsaved_of_fresh recorded fresh)

theorem settling_free (settling : Settling state) (effect : Effect state session next)
    (free : ∀ found message, state.sessions session = some found →
      found.phase ≠ .saving message) : Settling next := by
  obtain ⟨chatlog, moved, sessions, history⟩ := effect_not_saving effect free
  apply settling.move free sessions chatlog
  intro message member
  rcases history with same | ⟨event, grown, silent⟩ | ⟨spoken, grown, author, saving⟩
  · exact Or.inl (same ▸ member)
  · rw [grown, List.mem_append, List.mem_singleton] at member
    rcases member with old | new
    · exact Or.inl old
    · exact absurd new.symm (silent message)
  · rw [grown, List.mem_append, List.mem_singleton] at member
    rcases member with old | new
    · exact Or.inl old
    · cases new
      exact Or.inr ⟨author, saving⟩

/-- A save keeps the order exactly when it is in turn. -/
theorem caught_up_save_iff (recorded : Recorded state) (settling : Settling state)
    (caughtUp : CaughtUp state) {message : Message}
    (lookup : state.sessions session = some found) (here : found.phase = .saving message)
    (moved : Session) :
    SavesInTurn state session ↔ CaughtUp ((state.saveChatLog message).move session moved) := by
  have silent : ∀ other, Event.saved message ≠ .broadcast other := by simp
  constructor
  · intro inTurn first second before saved
    have earlier := (before_broadcast_snoc silent).mp before
    apply before_snoc.mpr
    rcases List.mem_append.mp saved with old | new
    · exact Or.inl (caughtUp first second earlier old)
    · right
      have same := List.mem_singleton.mp new
      refine ⟨?_, same⟩
      rw [same] at earlier
      rcases settling first earlier.mem_first with logged | ⟨peer, peerLookup, waits⟩
      · exact logged
      · exact absurd earlier (inTurn found message lookup here _ peer first peerLookup waits)
  · intro after result written resultLookup saving other peer earlier peerLookup waits before
    rw [lookup] at resultLookup
    cases resultLookup
    rw [here] at saving
    cases saving
    have order := after earlier message ((before_broadcast_snoc silent).mpr before)
      (List.mem_append_right _ (List.mem_singleton_self _))
    have inLog : earlier ∈ state.chatlog := by
      rcases before_snoc.mp order with inside | ⟨member, _⟩
      · exact inside.mem_first
      · exact member
    obtain ⟨result, resultLookup, accounts⟩ :=
      recorded.accounted _ ((recorded.logged earlier).mp inLog)
    obtain ⟨author, _, _⟩ := (recorded.placed other peer peerLookup).pending earlier waits
    simp only [Event.session, author, peerLookup] at resultLookup
    cases resultLookup
    exact accounts.2 waits

end Step

theorem not_saving_elsewhere {state next : State} {action : Action}
    (stepped : step state action = some next) (elsewhere : ∀ session, action ≠ .proceed session) :
    ∀ found message, state.sessions action.session = some found →
      found.phase ≠ .saving message := by
  intro found message lookup
  cases action with
  | proceed session => exact absurd rfl (elsewhere session)
  | accept session ssl =>
      have impossible := lookup.symm.trans (accept_cases stepped).1
      cases impossible
  | handshake session success =>
      obtain ⟨result, known, here, _⟩ := handshake_cases stepped
      cases lookup.symm.trans known
      simp [here]
  | authenticate session result =>
      obtain ⟨result, known, here, _⟩ := authenticate_cases stepped
      cases lookup.symm.trans known
      simp [here]
  | receive session record =>
      obtain ⟨result, known, here, _⟩ := receive_cases stepped
      cases lookup.symm.trans known
      simp [here]

theorem step_sound {state next : State} {action : Action} (recorded : Recorded state)
    (settling : Settling state) (stepped : step state action = some next) :
    Settling next ∧ (CaughtUp state → (InTurn state action ↔ CaughtUp next)) := by
  have after := recorded_step recorded stepped
  have effect := step_effect stepped
  by_cases free : ∀ found message, state.sessions action.session = some found →
      found.phase ≠ .saving message
  · refine ⟨settling_free settling effect free, fun caughtUp => ?_⟩
    have next_caught_up := caught_up_free recorded after caughtUp effect free
    refine ⟨fun _ => next_caught_up, fun _ => ?_⟩
    cases action with
    | proceed session =>
        intro found message lookup saving
        exact absurd saving (free found message lookup)
    | _ => trivial
  · push Not at free
    obtain ⟨found, message, lookup, here⟩ := free
    cases action with
    | proceed session =>
        have known : state.sessions session = some found := lookup
        simp only [step, known, proceed, here, Option.some.injEq] at stepped
        subst stepped
        exact ⟨settling.save known here _, fun caughtUp =>
          caught_up_save_iff recorded settling caughtUp known here _⟩
    | _ => exact absurd here (not_saving_elsewhere stepped (by simp) found message lookup)

theorem disabled_in_turn {state : State} {action : Action} (disabled : step state action = none) :
    InTurn state action := by
  cases action with
  | proceed session =>
      intro found message lookup saving
      simp [step, lookup, proceed, saving] at disabled
  | _ => trivial

/-- The order agrees now and after any one of the saves that are still to come. -/
def KeepsAgreeing (state : State) : Prop :=
  Agrees state ∧ ∀ session found message next, state.sessions session = some found →
    found.phase = .saving message → step state (.proceed session) = some next → Agrees next

theorem caught_up_iff {state : State} (recorded : Recorded state) (settling : Settling state) :
    CaughtUp state ↔ KeepsAgreeing state := by
  constructor
  · intro caughtUp
    refine ⟨fun first second before _ saved => caughtUp first second before saved, ?_⟩
    intro session found message next lookup here stepped
    simp only [step, lookup, proceed, here, Option.some.injEq] at stepped
    subst stepped
    intro first second before firstSaved secondSaved
    have earlier := (before_broadcast_snoc (by simp)).mp before
    apply before_snoc.mpr
    rcases List.mem_append.mp secondSaved with old | new
    · exact Or.inl (caughtUp first second earlier old)
    · have same := List.mem_singleton.mp new
      refine Or.inr ⟨?_, same⟩
      rcases List.mem_append.mp firstSaved with old | equal
      · exact old
      · rw [same, List.mem_singleton.mp equal] at earlier
        exact absurd earlier (not_before_of_before recorded.distinct earlier)
  · intro keeps first second before saved
    rcases settling first before.mem_first with logged | ⟨found, lookup, here⟩
    · exact keeps.1 first second before logged saved
    · have stepped : step state (.proceed first.author) =
          some ((state.saveChatLog first).move first.author
            { found with phase := first.notice.next }) := by
        simp only [step, lookup, proceed, here]
      have order := keeps.2 _ found first _ lookup here stepped first second
        ((before_broadcast_snoc (by simp)).mpr before)
        (List.mem_append_right _ (List.mem_singleton_self _)) (List.mem_append_left _ saved)
      rcases before_snoc.mp order with inside | ⟨_, same⟩
      · exact inside
      · rw [same] at before
        exact absurd before (not_before_of_before recorded.distinct before)

/-- The log and the chat agree in every state of a run, whichever thread saves
next, exactly when every save of the run is in turn. -/
theorem log_keeps_agreeing_iff (actions : List Action) :
    (∀ before after reached, actions = before ++ after →
        run step initial before = some reached → KeepsAgreeing reached) ↔
      Meets step InTurn initial actions := by
  have kept : ∀ state action next, Recorded state ∧ Settling state →
      step state action = some next → Recorded next ∧ Settling next :=
    fun _ _ _ holds stepped =>
      ⟨recorded_step holds.1 stepped, (step_sound holds.1 holds.2 stepped).1⟩
  have start : Recorded initial ∧ Settling initial := ⟨recorded_initial, settling_initial⟩
  have fine : CaughtUp initial := by
    intro first second _ saved
    cases saved
  rw [← meets_iff_always_good kept
    (fun _ _ _ holds caughtUp stepped => (step_sound holds.1 holds.2 stepped).2 caughtUp)
    (fun _ _ disabled => disabled_in_turn disabled) start fine]
  apply forall_congr'
  intro before
  apply forall_congr'
  intro after
  apply forall_congr'
  intro reached
  apply imp_congr_right
  intro _
  apply imp_congr_right
  intro ran
  have holds := run_keeps_always kept start ran
  exact (caught_up_iff holds.1 holds.2).symm

def hi : Message := ⟨0, 1, .said (ascii "hi"), ascii "al: hi", 1⟩

def hello : Message := ⟨1, 1, .said (ascii "hello"), ascii "bo: hello", 2⟩

/-- The second of two messages is saved first. -/
theorem saved_out_of_turn :
    ∃ state, run step initial (join 0 1 (ascii "al") ++ join 1 2 (ascii "bo") ++
        [.receive 0 (some (ascii "hi")), .receive 1 (some (ascii "hello")), .proceed 0, .proceed 1,
          .proceed 1, .proceed 0]) = some state ∧
      Before (.broadcast hi) (.broadcast hello) state.history ∧
      hi ∈ state.chatlog ∧ hello ∈ state.chatlog ∧ ¬Before hi hello state.chatlog :=
  ⟨_, rfl, by decide, by decide, by decide, by decide⟩

end LinuxFff.LogOrder
