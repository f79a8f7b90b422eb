import LinuxFff.TlsDelivery

/-!
# One order of all broadcasts in `server_tls_final.c`

The mutex puts the broadcasts of all sessions into one order. What a session is sent is a part of
it, and in it the messages of one author stand in the order in which the author sent them.
-/

namespace LinuxFff.BroadcastOrder

open LinuxFff.ClientTables LinuxFff.EventOrder LinuxFff.StepSystem
open LinuxFff.TlsDelivery LinuxFff.TlsHistory LinuxFff.TlsServer

set_option autoImplicit false

def Event.announced : Event → Option Message
  | .broadcast message => some message
  | _ => none

/-- The broadcasts of all sessions, in lock order. -/
def broadcasts (history : List Event) : List Message := history.filterMap Event.announced

def sentIn (order : List Message) (author : Nat) : List Message :=
  order.filter fun message => message.author = author

def sentBy (sessions : Nat → Option Session) (session : Nat) : Nat :=
  match sessions session with
  | some found => found.sent
  | none => 0

/-- The messages of every author, in the order of the list, are numbered from 0 on. -/
def Numbered (order : List Message) (sent : Nat → Nat) : Prop :=
  ∀ author, (sentIn order author).map Message.seq = List.range (sent author)

theorem broadcasts_snoc {history : List Event} {event : Event} :
    broadcasts (history ++ [event]) = broadcasts history ++ (Event.announced event).toList := by
  rw [broadcasts, List.filterMap_append, broadcasts]
  apply congrArg (_ ++ ·)
  cases event <;> rfl

theorem broadcasts_silent {history : List Event} {event : Event}
    (silent : Event.announced event = none) : broadcasts (history ++ [event]) = broadcasts history := by
  rw [broadcasts_snoc, silent]
  exact List.append_nil _

theorem mem_broadcasts {history : List Event} {message : Message} :
    message ∈ broadcasts history ↔ Event.broadcast message ∈ history := by
  rw [broadcasts, List.mem_filterMap]
  constructor
  · rintro ⟨event, member, same⟩
    cases event with
    | broadcast other =>
        cases same
        exact member
    | _ => cases same
  · intro member
    exact ⟨_, member, rfl⟩

theorem heard_by_sublist (session : Nat) (ssl : Ssl) (history : List Event) :
    (heardBy session ssl history).Sublist (broadcasts history) := by
  have heard : Event.heardAs ssl = fun event =>
      (Event.announced event).filter fun message => decide (message.sender ≠ ssl) := by
    funext event
    cases event with
    | broadcast message =>
        by_cases own : message.sender = ssl <;>
          simp [Event.heardAs, Event.announced, Option.filter, own]
    | _ => rfl
  have part : (heardBy session ssl history).Sublist (history.filterMap (Event.heardAs ssl)) :=
    (between_sublist _ _ _).filterMap _
  rw [heard, ← List.filter_filterMap] at part
  exact part.trans List.filter_sublist

theorem broadcasts_distinct {history : List Event} (distinct : history.Nodup) :
    (broadcasts history).Nodup := by
  apply List.Nodup.filterMap _ distinct
  intro first second message isFirst isSecond
  cases first with
  | broadcast one =>
      cases second with
      | broadcast other =>
          cases isFirst
          cases isSecond
          rfl
      | _ => cases isSecond
  | _ => cases isFirst

theorem sent_in_snoc (order : List Message) (message : Message) (author : Nat) :
    sentIn (order ++ [message]) author =
      sentIn order author ++ if message.author = author then [message] else [] := by
  rw [sentIn, List.filter_append, List.filter_singleton]
  by_cases own : message.author = author <;> simp [sentIn, own]

theorem Numbered.snoc {order : List Message} {sent : Nat → Nat} {message : Message}
    (numbered : Numbered order sent) (next : message.seq = sent message.author) :
    Numbered (order ++ [message])
      (Function.update sent message.author (sent message.author + 1)) := by
  intro author
  rw [sent_in_snoc]
  by_cases own : message.author = author
  · rw [if_pos own, List.map_append, numbered author, ← own, Function.update_self, List.range_succ,
      List.map_singleton, next]
  · rw [if_neg own, List.append_nil, numbered author, Function.update_of_ne (Ne.symm own)]

theorem sent_by_move {sessions : Nat → Option Session} {session : Nat} {moved : Session} :
    sentBy (Function.update sessions session (some moved)) =
      Function.update (sentBy sessions) session moved.sent := by
  funext other
  by_cases same : other = session
  · rw [same, sentBy, Function.update_self, Function.update_self]
  · rw [sentBy, Function.update_of_ne same, Function.update_of_ne same, sentBy]

theorem sent_by_some {sessions : Nat → Option Session} {session : Nat} {found : Session}
    (lookup : sessions session = some found) : sentBy sessions session = found.sent := by
  rw [sentBy, lookup]

theorem Numbered.quiet {order after : List Message} {sessions : Nat → Option Session} {session : Nat}
    {found moved : Session} (numbered : Numbered order (sentBy sessions))
    (lookup : sessions session = some found) (sent : moved.sent = found.sent)
    (same : after = order) :
    Numbered after (sentBy (Function.update sessions session (some moved))) := by
  rw [same, sent_by_move, sent, ← sent_by_some lookup, Function.update_eq_self]
  exact numbered

theorem Numbered.broadcast {order : List Message} {sessions : Nat → Option Session} {session : Nat}
    {found moved : Session} (numbered : Numbered order (sentBy sessions)) (notice : Notice)
    (lookup : sessions session = some found) (sent : moved.sent = found.sent + 1) :
    Numbered (order ++ [found.message session notice])
      (sentBy (Function.update sessions session (some moved))) := by
  have own : sentBy sessions session = found.sent := sent_by_some lookup
  have grown := @Numbered.snoc _ _ (found.message session notice) numbered own.symm
  rw [sent_by_move, sent, ← own]
  exact grown

theorem numbered_step {state next : State} {action : Action}
    (numbered : Numbered (broadcasts state.history) (sentBy state.sessions))
    (stepped : step state action = some next) :
    Numbered (broadcasts next.history) (sentBy next.sessions) := by
  cases step_effect stepped with
  | accept ssl unborn nonNull unused =>
      have none : sentBy state.sessions action.session = 0 := by rw [sentBy, unborn]
      change Numbered (broadcasts state.history) (sentBy (Function.update state.sessions _ _))
      rw [sent_by_move, ← none, Function.update_eq_self]
      exact numbered
  | quiet found username phase accepting lookup moved named => exact numbered.quiet lookup rfl rfl
  | add found lookup here =>
      obtain ⟨clients, event, kind, same⟩ := add_client_cases state action.session found
      rw [same]
      have silent : Event.announced event = none := by
        rcases kind with rfl | rfl <;> rfl
      exact numbered.quiet lookup rfl (broadcasts_silent silent)
  | broadcast found notice lookup here =>
      change Numbered (broadcasts (state.history ++ [.broadcast _])) _
      rw [broadcasts_snoc]
      exact numbered.broadcast notice lookup rfl
  | save found message lookup here => exact numbered.quiet lookup rfl (broadcasts_silent rfl)
  | replay found lookup here => exact numbered.quiet lookup rfl (broadcasts_silent rfl)
  | remove found lookup here => exact numbered.quiet lookup rfl (broadcasts_silent rfl)
  | free found accepting lookup here => exact numbered.quiet lookup rfl rfl

theorem numbered_initial : Numbered (broadcasts initial.history) (sentBy initial.sessions) :=
  fun _ => rfl

/-- One order for all sessions: no message twice, every author's messages in the order in which
they were sent, and what a session is sent is a part of it. -/
structure Ordered (order : List Message) (sent : Nat → Nat) (live : Nat → List Message) : Prop where
  distinct : order.Nodup
  numbered : Numbered order sent
  heard : ∀ session, (live session).Sublist order

theorem ordered_of_registered {members : List Nat} {state : State} (recorded : Recorded state)
    (registered : Registered members state)
    (numbered : Numbered (broadcasts state.history) (sentBy state.sessions)) :
    Ordered (broadcasts state.history) (sentBy state.sessions) state.live where
  distinct := broadcasts_distinct recorded.distinct
  numbered := numbered
  heard := by
    intro session
    rw [registered.heard session]
    exact heard_by_sublist session _ state.history

end LinuxFff.BroadcastOrder
