import LinuxFff.TlsThreads

/-!
# The streams of the clients of `server_tls_final.c`

A broadcast writes to its recipients one after another, so at any moment some of them have a
message that others do not have yet. Still there is one order of all messages that every client
follows.
-/

namespace LinuxFff.StreamOrder

open LinuxFff.BroadcastOrder LinuxFff.ClientTables LinuxFff.ClientsMutex LinuxFff.Roster
open LinuxFff.Serialization LinuxFff.StepSystem LinuxFff.TlsDelivery LinuxFff.TlsHistory
open LinuxFff.TlsThreads
open LinuxFff.TlsServer (Message Notice Session)

set_option autoImplicit false

section Writes

variable {state : TlsThreads.State} {coarse : TlsServer.State} {session : Nat} {found : Session}
  {earlier writes : List (Ssl × Message)}

/-- A call under way has written nothing, or it is a broadcast that has served some of its
recipients. -/
def PartlySent (call : Call) (clients : List Client) (writes : List (Ssl × Message)) : Prop :=
  writes = [] ∨ ∃ message, ∃ targets : List Ssl, call = .broadcast message ∧
    targets.Sublist (recipients message.sender clients) ∧
    writes = targets.map fun ssl => (ssl, message)

theorem progress_writes {before shared : Shared} {call : Call} {here : Local}
    (progress : Progress before call here shared) (written : shared.written = before.written ++ writes) :
    PartlySent call before.clients writes := by
  cases progress with
  | sending message i =>
      refine Or.inr ⟨message, _, rfl, ?_, (List.append_cancel_left written).symm⟩
      exact ((List.take_sublist i before.clients).filter _).map _
  | writing message i client lookup active other =>
      refine Or.inr ⟨message, _, rfl, ?_, (List.append_cancel_left written).symm⟩
      exact ((List.take_sublist i before.clients).filter _).map _
  | _ => exact Or.inl (List.self_eq_append_right.mp written)

theorem effect_writes {before shared : Shared} {call : Call} {result : Result}
    (runs : effect call before = (shared, result))
    (written : shared.written = before.written ++ writes) :
    PartlySent call before.clients writes := by
  cases call with
  | addClient ssl username =>
      simp only [effect] at runs
      split at runs <;> cases runs <;> exact Or.inl (List.self_eq_append_right.mp written)
  | removeClient ssl =>
      cases runs
      exact Or.inl (List.self_eq_append_right.mp written)
  | broadcast message =>
      cases runs
      exact Or.inr ⟨message, _, rfl, List.Sublist.refl _, (List.append_cancel_left written).symm⟩

theorem call_of_broadcast {message : Message}
    (calls : callOf session found = some (.broadcast message)) :
    ∃ notice, found.phase = .broadcasting notice ∧ message = found.message session notice := by
  unfold callOf at calls
  split at calls
  case h_2 notice here =>
    cases calls
    exact ⟨notice, here, rfl⟩
  all_goals cases calls

/-- What has been written since the last unlock is a part of the next broadcast. -/
theorem partly_sent (simulates : Simulates state coarse)
    (pending : Pending state coarse earlier writes) :
    writes = [] ∨ ∃ session found notice, ∃ targets : List Ssl,
      coarse.sessions session = some found ∧ found.phase = .broadcasting notice ∧
      targets.Sublist (recipients (found.message session notice).sender coarse.clients) ∧
      writes = targets.map fun ssl => (ssl, found.message session notice) := by
  have serialised := simulates.serialised
  cases owner : state.mutex.owner with
  | none => exact Or.inl (pending.free serialised owner).2
  | some holder =>
      obtain ⟨phase, lookup⟩ := serialised.held holder owner
      have partly : PartlySent phase.call coarse.clients writes := by
        cases phase with
        | waiting call => exact absurd ((serialised.owned holder _ lookup).mpr owner) id
        | inside call here => exact progress_writes (pending.progress serialised lookup) pending.written
        | leaving call result =>
            obtain ⟨before, replays, runs⟩ := serialised.accounts holder _ lookup
            rw [replays.unique pending.served] at runs
            exact effect_writes runs pending.written
      rcases partly with none | ⟨message, targets, broadcast, part, same⟩
      · exact Or.inl none
      · have calls := simulates.calling holder phase lookup
        rw [broadcast] at calls
        obtain ⟨found, session, calls⟩ := Option.bind_eq_some_iff.mp calls
        obtain ⟨notice, at_broadcast, rfl⟩ := call_of_broadcast calls
        have agree := simulates.agree.sessions
        exact Or.inr ⟨holder, found, notice, targets, agree ▸ session, at_broadcast, part, same⟩

theorem ordered_broadcast {members : List Nat} {notice : Notice} {targets : List Ssl}
    (recorded : Recorded coarse) (registered : Registered members coarse)
    (ordered : Ordered (broadcasts coarse.history) (sentBy coarse.sessions) coarse.live)
    (lookup : coarse.sessions session = some found)
    (part : targets.Sublist (recipients (found.message session notice).sender coarse.clients)) :
    Ordered (broadcasts coarse.history ++ [found.message session notice])
      (Function.update (sentBy coarse.sessions) session (sentBy coarse.sessions session + 1))
      (writeAll coarse.heap (found.message session notice) coarse.live targets) where
  distinct := by
    have fresh : found.message session notice ∉ broadcasts coarse.history := by
      intro member
      obtain ⟨sender, senderLookup, seq, _⟩ := recorded.accounted _ (mem_broadcasts.mp member)
      have same := lookup.symm.trans senderLookup
      cases same
      exact Nat.lt_irrefl _ seq
    rw [List.nodup_append]
    refine ⟨ordered.distinct, List.nodup_singleton _, ?_⟩
    intro message member other last same
    rw [List.mem_singleton.mp last] at same
    exact fresh (same ▸ member)
  numbered := ordered.numbered.snoc (sent_by_some lookup).symm
  heard := by
    intro reader
    rw [write_all_apply]
    apply (ordered.heard reader).append
    have once : copies coarse.heap reader targets ≤ 1 := by
      have whole : copies coarse.heap reader targets ≤ copies coarse.heap reader
          (recipients (found.message session notice).sender coarse.clients) := part.countP_le
      rw [copies_of_broadcast registered] at whole
      split at whole
      · exact whole
      · exact Nat.le_succ_of_le whole
    exact (List.replicate_sublist_replicate _).mpr once

end Writes

/-- All clients see the messages in one order: there is one list without repetition, in which
the messages of each author stand in the order in which that author sent them, and of which
everything that any client has been sent so far is a part, also while a broadcast has reached
some of its recipients and not the others. -/
theorem streams_agree_on_order (actions : List Action) (state : State)
    (ran : run step initial actions = some state) :
    ∃ order sent, Ordered order sent state.live := by
  obtain ⟨chatActions, chat, chatRan, simulates⟩ := simulated_run ran
  obtain ⟨members, registered⟩ := simulates.registered
  obtain ⟨earlier, writes, pending⟩ := simulates.pending
  have ordered := ordered_of_registered simulates.recorded registered simulates.numbered
  rw [pending.live]
  rcases partly_sent simulates pending with none |
    ⟨session, found, notice, targets, lookup, _, part, same⟩
  · rw [none]
    exact ⟨_, _, ordered⟩
  · rw [same, deliver_message]
    exact ⟨_, _, ordered_broadcast simulates.recorded registered ordered lookup part⟩

/-- In the middle of a broadcast the first client has the line and the second has not, while a
third gets its object. -/
def midBroadcast : List Action :=
  login 0 5 (CString.ascii "al") ++ calling 0 4 ++ login 1 7 (CString.ascii "bo") ++ calling 1 5 ++
    [.call 0, .call 1, .lock 0, .access 0, .access 0, .outside (.accept 2 9)]

theorem streams_agree_on_order_mid_broadcast :
    ∃ state, run step initial midBroadcast = some state ∧
      (state.live 0).length = 1 ∧ (state.live 1).length = 0 ∧
      ∃ order sent, Ordered order sent state.live := by
  have observed : ((run step initial midBroadcast).map fun state =>
      ((state.live 0).length, (state.live 1).length)) = some (1, 0) := by
    decide +kernel
  obtain ⟨state, ran, seen⟩ := Option.map_eq_some_iff.mp observed
  exact ⟨state, ran, congrArg Prod.fst seen, congrArg Prod.snd seen,
    streams_agree_on_order midBroadcast state ran⟩

end LinuxFff.StreamOrder
