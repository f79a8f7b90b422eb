import LinuxFff.Ownership
import LinuxFff.PlainServer

/-!
# Broadcast delivery in `server.c`

The table holds the number of every connection between its registration and
the removal of its entry, also after the number has been closed. `send` knows
numbers only, so a broadcast is exact as long as no such left-over number is
open for another connection.
-/

namespace LinuxFff.PlainDelivery

open LinuxFff.CString LinuxFff.ClientTables LinuxFff.EventOrder LinuxFff.Ownership
open LinuxFff.Roster LinuxFff.StepSystem LinuxFff.PlainServer

set_option autoImplicit false

def Conn.Open (found : Conn) : Prop := found.phase.rank ≤ 6

/-- The number that `accept` returned for a connection. -/
def sockOf (conns : Nat → Option Conn) : Nat → Nat := keyOf conns Conn.sock 0

structure Tabled (conns : Nat → Option Conn) (clients : List Entry) (members : List Nat) :
    Prop where
  lists : Lists (sockOf conns) (socks clients) members
  listed : ∀ conn, conn ∈ members ↔ ∃ found, conns conn = some found ∧ found.phase.Listed

/-- A number is open for a connection exactly while the connection is open. -/
structure Wired (members : List Nat) (state : State) : Prop where
  owns : Owns state.conns Conn.sock Conn.Open state.descriptors
  tabled : Tabled state.conns state.clients members

theorem wired_initial : Wired [] initial where
  owns := owns_nothing
  tabled := by
    constructor
    case lists => exact lists_nil
    case listed =>
      intro conn
      simp [initial]

section Table

variable {conns : Nat → Option Conn} {clients : List Entry} {members : List Nat} {conn : Nat}
  {found moved : Conn}

theorem Tabled.mem_iff (holds : Tabled conns clients members) (lookup : conns conn = some found) :
    conn ∈ members ↔ found.phase.Listed := by
  rw [holds.listed, lookup]
  simp

theorem listed_move (conns : Nat → Option Conn) (moved : Conn) (conn other : Nat) :
    (∃ found, Function.update conns conn (some moved) other = some found ∧ found.phase.Listed) ↔
      (other = conn ∧ moved.phase.Listed) ∨
        (other ≠ conn ∧ ∃ found, conns other = some found ∧ found.phase.Listed) := by
  by_cases same : other = conn
  · rw [same, Function.update_self]
    simp
  · rw [Function.update_of_ne same]
    simp [same]

theorem Tabled.listed_kept (holds : Tabled conns clients members)
    (stays : moved.phase.Listed ↔ conn ∈ members) (other : Nat) :
    other ∈ members ↔
      ∃ found, Function.update conns conn (some moved) other = some found ∧
        found.phase.Listed := by
  rw [listed_move, stays, ← holds.listed]
  by_cases same : other = conn
  · simp [same]
  · simp [same]

theorem Tabled.move (holds : Tabled conns clients members) (lookup : conns conn = some found)
    (sock : moved.sock = found.sock) (stays : moved.phase.Listed ↔ found.phase.Listed) :
    Tabled (Function.update conns conn (some moved)) clients members where
  lists := by
    rw [sockOf, key_of_move lookup sock]
    exact holds.lists
  listed := holds.listed_kept (stays.trans (holds.mem_iff lookup).symm)

theorem Tabled.accept (holds : Tabled conns clients members) (unborn : conns conn = none)
    (unlisted : ¬moved.phase.Listed) :
    Tabled (Function.update conns conn (some moved)) clients members := by
  have outsider : conn ∉ members := by
    intro member
    obtain ⟨found, lookup, _⟩ := (holds.listed conn).mp member
    rw [unborn] at lookup
    cases lookup
  constructor
  case lists =>
    apply holds.lists.congr
    intro member present
    exact key_of_other fun same => outsider (same ▸ present)
  case listed =>
    apply holds.listed_kept
    constructor
    · intro listed
      exact absurd listed unlisted
    · intro member
      exact absurd member outsider

theorem Tabled.register (holds : Tabled conns clients members) (lookup : conns conn = some found)
    (sock : moved.sock = found.sock) (unlisted : ¬found.phase.Listed)
    (listed : moved.phase.Listed) :
    Tabled (Function.update conns conn (some moved)) (clients ++ [⟨found.sock, found.username⟩])
      (conn :: members) := by
  have outsider : conn ∉ members := fun member => unlisted ((holds.mem_iff lookup).mp member)
  constructor
  case lists =>
    rw [sockOf, key_of_move lookup sock]
    apply holds.lists.add outsider
    rw [sockOf, key_of_some lookup, socks, List.map_append]
    exact List.perm_append_singleton _ _
  case listed =>
    intro other
    rw [listed_move, List.mem_cons, ← holds.listed]
    by_cases same : other = conn
    · simp [same, listed]
    · simp [same]

theorem Tabled.remove (holds : Tabled conns clients members) (lookup : conns conn = some found)
    (sock : moved.sock = found.sock) (listed : found.phase.Listed)
    (unlisted : ¬moved.phase.Listed) :
    Tabled (Function.update conns conn (some moved)) (removeEntry found.sock clients)
      (members.erase conn) := by
  have member : conn ∈ members := (holds.mem_iff lookup).mpr listed
  constructor
  case lists =>
    rw [sockOf, key_of_move lookup sock]
    apply holds.lists.remove member
    rw [sockOf, key_of_some lookup]
    exact remove_entry_socks found.sock clients
  case listed =>
    intro other
    rw [listed_move, holds.lists.distinct.mem_erase_iff, ← holds.listed]
    simp [unlisted]

end Table

theorem quiet_rank {before after : Phase} (moved : Quiet before after) :
    before.rank ≤ after.rank ∧ (after.rank ≤ 6 ↔ before.rank ≤ 6) ∧
      (after.Listed ↔ before.Listed) := by
  cases moved <;> simp [Phase.rank, Phase.Listed]

theorem broadcasting_rank (notice : Notice) :
    (Phase.broadcasting notice).InChat ∧ notice.next.InChat ∧
      (Phase.broadcasting notice).rank ≤ notice.next.rank := by
  cases notice <;> simp [Phase.InChat, Phase.rank, Notice.next]

theorem listed_of_in_chat {phase : Phase} (inChat : phase.InChat) : phase.Listed :=
  ⟨inChat.1, Nat.le_succ_of_le inChat.2⟩

theorem wired_step {members : List Nat} {state next : State} {action : Action}
    (holds : Wired members state) (stepped : step state action = some next) :
    ∃ members, Wired members next := by
  have owns := holds.owns
  have tabled := holds.tabled
  cases step_effect stepped with
  | accept number unborn unused =>
      refine ⟨members, owns.acquire unborn unused rfl ?_, tabled.accept unborn ?_⟩
      · simp [Conn.Open, Phase.rank]
      · simp [Phase.Listed, Phase.rank]
  | quiet found username phase lookup moved named =>
      obtain ⟨_, isOpen, listed⟩ := quiet_rank moved
      exact ⟨members, owns.move lookup rfl isOpen, tabled.move lookup rfl listed⟩
  | turnAway found lookup here =>
      have isOpen : Conn.Open found := by
        rcases here with here | here <;> simp [here, Conn.Open, Phase.rank]
      have unlisted : ¬found.phase.Listed := by
        rcases here with here | here <;> simp [here, Phase.Listed, Phase.rank]
      have ended : ¬Phase.ended.Listed := by simp [Phase.Listed, Phase.rank]
      refine ⟨members, owns.release lookup isOpen ?_,
        tabled.move lookup rfl (iff_of_false ended unlisted)⟩
      simp [Conn.Open, Phase.rank]
  | register found lookup here room =>
      refine ⟨action.conn :: members, owns.move lookup rfl ?_,
        tabled.register lookup rfl ?_ ?_⟩
      · simp [here, Conn.Open, Phase.rank]
      · simp [here, Phase.Listed, Phase.rank]
      · simp [Phase.Listed, Phase.rank]
  | replay found lookup here =>
      refine ⟨members, owns.move lookup rfl ?_, tabled.move lookup rfl ?_⟩
      · simp [here, Conn.Open, Phase.rank]
      · simp [here, Phase.Listed, Phase.rank]
  | broadcast found notice lookup here =>
      obtain ⟨before, after, _⟩ := broadcasting_rank notice
      refine ⟨members, owns.move lookup rfl ?_, tabled.move lookup rfl ?_⟩
      · simp [here, Conn.Open, before.2, after.2]
      · simp [here, listed_of_in_chat before, listed_of_in_chat after]
  | save found buffer lookup here =>
      refine ⟨members, owns.move lookup rfl ?_, tabled.move lookup rfl ?_⟩
      · simp [here, Conn.Open, Phase.rank]
      · simp [here, Phase.Listed, Phase.rank]
  | close found lookup here =>
      refine ⟨members, owns.release lookup ?_ ?_, tabled.move lookup rfl ?_⟩
      · simp [here, Conn.Open, Phase.rank]
      · simp [Conn.Open, Phase.rank]
      · simp [here, Phase.Listed, Phase.rank]
  | remove found lookup here =>
      refine ⟨members.erase action.conn, owns.move lookup rfl ?_,
        tabled.remove lookup rfl ?_ ?_⟩
      · simp [here, Conn.Open, Phase.rank]
      · simp [here, Phase.Listed, Phase.rank]
      · simp [Phase.Listed, Phase.rank]

/-- Authenticated, registered, and still connected. -/
def InChat (state : State) (conn : Nat) : Prop :=
  ∃ found, state.conns conn = some found ∧ found.phase.InChat

/-- One copy to every connection in the chat but the author's, and nothing to
any other connection. -/
def Exact (state next : State) (author : Nat) (message : Message) : Prop :=
  ∀ conn, (InChat state conn ∧ conn ≠ author → next.live conn = state.live conn ++ [message]) ∧
    (¬(InChat state conn ∧ conn ≠ author) → next.live conn = state.live conn)

def ExactBroadcast (state : State) : Action → Prop
  | .proceed author => ∀ found notice next, state.conns author = some found →
      found.phase = .broadcasting notice → step state (.proceed author) = some next →
      Exact state next author (found.message author notice)
  | _ => True

/-- When a broadcast runs, no number that another thread has closed and not yet
removed from the table has been given out again, except to the author. -/
def NumberNotReused (state : State) : Action → Prop
  | .proceed author => ∀ found notice, state.conns author = some found →
      found.phase = .broadcasting notice → ∀ other left, state.conns other = some left →
      left.phase = .removing → left.sock ≠ found.sock → state.descriptors left.sock = none
  | _ => True

theorem not_in_chat {state : State} {conn : Nat} {found : Conn}
    (lookup : state.conns conn = some found) (outside : ¬found.phase.InChat) :
    ¬InChat state conn := by
  intro inChat
  rcases inChat with ⟨other, otherLookup, inside⟩
  rw [lookup] at otherLookup
  cases otherLookup
  exact outside inside

section Broadcast

variable {members : List Nat} {state : State} {author : Nat} {found : Conn}

theorem in_chat_wired (holds : Wired members state) {conn : Nat} (inChat : InChat state conn) :
    conn ∈ members ∧ state.descriptors (sockOf state.conns conn) = some conn := by
  obtain ⟨result, lookup, phase⟩ := inChat
  rw [sockOf, key_of_some lookup]
  exact ⟨(holds.tabled.mem_iff lookup).mpr (listed_of_in_chat phase),
    holds.owns.held conn result lookup phase.2⟩

theorem removing_of_rank {phase : Phase} (rank : phase.rank = 7) : phase = .removing := by
  cases phase with
  | broadcasting notice => cases notice <;> simp [Phase.rank] at rank
  | removing => rfl
  | _ => simp [Phase.rank] at rank

/-- The entry of `other` makes a sender with the number `sock` send to `conn`. -/
def reaches (state : State) (sock conn other : Nat) : Bool :=
  decide (state.descriptors (sockOf state.conns other) = some conn) &&
    decide (sockOf state.conns other ≠ sock)

theorem reaches_iff {sock conn other : Nat} : reaches state sock conn other = true ↔
    state.descriptors (sockOf state.conns other) = some conn ∧ sockOf state.conns other ≠ sock := by
  rw [reaches, Bool.and_eq_true, decide_eq_true_eq, decide_eq_true_eq]

theorem copies_of_targets (holds : Wired members state) (sock conn : Nat) :
    copies state.descriptors conn (sendTargets sock state.clients) =
      members.countP (reaches state sock conn) :=
  holds.tabled.lists.copies_filter _ conn

theorem copies_exact (holds : Wired members state) (lookup : state.conns author = some found)
    (speaking : found.phase.InChat)
    (fresh : ∀ other left, state.conns other = some left → left.phase = .removing →
      left.sock ≠ found.sock → state.descriptors left.sock = none) (conn : Nat) :
    (InChat state conn ∧ conn ≠ author →
        copies state.descriptors conn (sendTargets found.sock state.clients) = 1) ∧
      (¬(InChat state conn ∧ conn ≠ author) →
        copies state.descriptors conn (sendTargets found.sock state.clients) = 0) := by
  have authorSock : sockOf state.conns author = found.sock := key_of_some lookup
  have authorWired := in_chat_wired holds ⟨found, lookup, speaking⟩
  have only : ∀ other ∈ members, reaches state found.sock conn other = true → other = conn := by
    intro other member passed
    rw [reaches_iff] at passed
    obtain ⟨result, otherLookup, listed⟩ := (holds.tabled.listed other).mp member
    rw [sockOf, key_of_some otherLookup] at passed
    by_cases isOpen : Conn.Open result
    · rw [holds.owns.held other result otherLookup isOpen] at passed
      exact Option.some.inj passed.1
    · have rank : result.phase.rank = 7 := by
        have lower := listed.2
        have upper : ¬result.phase.rank ≤ 6 := isOpen
        omega
      rw [fresh other result otherLookup (removing_of_rank rank) passed.2] at passed
      cases passed.1
  rw [copies_of_targets holds, count_one holds.tabled.lists.distinct conn _ only]
  constructor
  · intro both
    rcases both with ⟨inChat, apart⟩
    obtain ⟨member, owner⟩ := in_chat_wired holds inChat
    have different : sockOf state.conns conn ≠ found.sock := by
      intro same
      rw [same, ← authorSock, authorWired.2] at owner
      exact apart (Option.some.inj owner).symm
    exact if_pos ⟨member, reaches_iff.mpr ⟨owner, different⟩⟩
  · intro outside
    apply if_neg
    intro both
    rcases both with ⟨member, passed⟩
    rw [reaches_iff] at passed
    apply outside
    constructor
    · obtain ⟨result, ownerLookup, _, isOpen⟩ := holds.owns.owned _ conn passed.1
      have listed := (holds.tabled.mem_iff ownerLookup).mp member
      exact ⟨result, ownerLookup, listed.1, isOpen⟩
    · intro same
      rw [same] at passed
      exact passed.2 authorSock

/-- A left-over number that is open again makes the broadcast inexact: its new
owner gets a second copy, or one that it must not get. -/
theorem fresh_of_copies (holds : Wired members state)
    (lookup : state.conns author = some found)
    (exact' : ∀ conn, (InChat state conn ∧ conn ≠ author →
        copies state.descriptors conn (sendTargets found.sock state.clients) = 1) ∧
      (¬(InChat state conn ∧ conn ≠ author) →
        copies state.descriptors conn (sendTargets found.sock state.clients) = 0))
    (other : Nat) (left : Conn) (otherLookup : state.conns other = some left)
    (here : left.phase = .removing) (apart : left.sock ≠ found.sock) :
    state.descriptors left.sock = none := by
  cases owner : state.descriptors left.sock with
  | none => rfl
  | some conn =>
      exfalso
      have listed : left.phase.Listed := by simp [here, Phase.Listed, Phase.rank]
      have member : other ∈ members := (holds.tabled.mem_iff otherLookup).mpr listed
      have otherPasses : reaches state found.sock conn other = true := by
        rw [reaches_iff, sockOf, key_of_some otherLookup]
        exact ⟨owner, apart⟩
      have connSock : sockOf state.conns conn = left.sock := holds.owns.key_of_owner owner
      have notAuthor : conn ≠ author := by
        intro same
        rw [same, sockOf, key_of_some lookup] at connSock
        exact apart connSock.symm
      obtain ⟨once, none⟩ := exact' conn
      rw [copies_of_targets holds] at once none
      by_cases inChat : InChat state conn
      · have connMember := (in_chat_wired holds inChat).1
        have connPasses : reaches state found.sock conn conn = true := by
          rw [reaches_iff, connSock]
          exact ⟨owner, apart⟩
        have different : conn ≠ other := by
          intro same
          obtain ⟨result, connLookup, phase⟩ := inChat
          rw [same, otherLookup] at connLookup
          cases connLookup
          simp [here, Phase.InChat, Phase.rank] at phase
        have two := count_two different connMember member connPasses otherPasses
        rw [once ⟨inChat, notAuthor⟩] at two
        exact absurd two (by decide)
      · have positive := List.countP_pos_iff.mpr ⟨other, member, otherPasses⟩
        rw [none fun both => inChat both.1] at positive
        exact Nat.lt_irrefl 0 positive

end Broadcast

theorem exact_iff_copies {state : State} {author : Nat} {found moved : Conn} {message : Message} :
    Exact state ((state.broadcast message found.sock).move author moved) author message ↔
      ∀ conn, (InChat state conn ∧ conn ≠ author →
          copies state.descriptors conn (sendTargets found.sock state.clients) = 1) ∧
        (¬(InChat state conn ∧ conn ≠ author) →
          copies state.descriptors conn (sendTargets found.sock state.clients) = 0) := by
  apply forall_congr'
  intro conn
  have written : ((state.broadcast message found.sock).move author moved).live conn =
      state.live conn ++ List.replicate
        (copies state.descriptors conn (sendTargets found.sock state.clients)) message :=
    write_all_apply _ _ _
  rw [written]
  have one : ∀ count : Nat, List.replicate count message = [message] ↔ count = 1 := by
    intro count
    rw [← List.replicate_one, List.replicate_left_inj]
  apply and_congr
  · apply imp_congr_right
    intro _
    rw [List.append_cancel_left_eq, one]
  · apply imp_congr_right
    intro _
    simp

theorem exact_broadcast_iff {members : List Nat} {state : State} (holds : Wired members state)
    (action : Action) : ExactBroadcast state action ↔ NumberNotReused state action := by
  cases action with
  | proceed author =>
      have stepped : ∀ found notice, state.conns author = some found →
          found.phase = .broadcasting notice → step state (.proceed author) =
            some ((state.broadcast (found.message author notice) found.sock).move author
              { found with phase := notice.next, sent := found.sent + 1 }) := by
        intro found notice lookup here
        simp [step, proceed, lookup, here]
      constructor
      · intro exactly found notice lookup here
        have copied := exact_iff_copies.mp (exactly found notice _ lookup here
          (stepped found notice lookup here))
        exact fresh_of_copies holds lookup copied
      · intro fresh found notice next lookup here moved
        rw [stepped found notice lookup here] at moved
        cases moved
        apply exact_iff_copies.mpr
        intro conn
        have speaking : found.phase.InChat := here ▸ (broadcasting_rank notice).1
        exact copies_exact holds lookup speaking (fresh found notice lookup here) conn
  | _ => exact Iff.rfl

/-- Every broadcast of a run is exact if and only if, at every broadcast of the
run, no number of a left-over entry is open again. -/
theorem every_broadcast_exact_iff (actions : List Action) :
    Meets step ExactBroadcast initial actions ↔ Meets step NumberNotReused initial actions := by
  have kept : ∀ state action next, (∃ members, Wired members state) →
      step state action = some next → ∃ members, Wired members next := by
    intro state action next wired stepped
    rcases wired with ⟨members, holds⟩
    exact wired_step holds stepped
  have same : ∀ state action, (∃ members, Wired members state) →
      (ExactBroadcast state action ↔ NumberNotReused state action) := by
    intro state action wired
    rcases wired with ⟨members, holds⟩
    exact exact_broadcast_iff holds action
  exact meets_congr kept same ⟨[], wired_initial⟩ actions

/-- `accept` returns the lowest number that is not open. -/
def LowestFree (state : State) : Action → Prop
  | .accept _ number => ∀ other < number, other < firstFree ∨ state.descriptors other ≠ none
  | _ => True

instance (state : State) (action : Action) : Decidable (LowestFree state action) :=
  match action with
  | .accept _ number => inferInstanceAs
      (Decidable (∀ other < number, other < firstFree ∨ state.descriptors other ≠ none))
  | .login _ _ => isTrue trivial
  | .register _ => isTrue trivial
  | .receive _ _ => isTrue trivial
  | .proceed _ => isTrue trivial

def join (conn number : Nat) (username : Bytes) : List Action :=
  [.accept conn number, .login conn (some username), .register conn, .proceed conn, .proceed conn]

/-- Connection 0 broadcasts its leave line and closes its descriptor, number 4;
`main` accepts connection 2 with that number; connection 1 says something. -/
def reusedNumber : List Action :=
  join 0 4 (ascii "al") ++ join 1 5 (ascii "bo") ++
    [.receive 0 none, .proceed 0, .proceed 0, .accept 2 4, .receive 1 (some (ascii "hi")),
      .proceed 1]

def hi : Message := ⟨1, 1, .said (ascii "hi"), ascii "bo"⟩

theorem handshake_receives_chat :
    Meets step LowestFree initial reusedNumber ∧
      ∃ state next, run step initial reusedNumber = some state ∧
        step state (.proceed 1) = some next ∧
        (state.conns 2).map Conn.phase = some .handshake ∧
        state.live 2 = [] ∧ next.live 2 = [hi] ∧ ¬ExactBroadcast state (.proceed 1) := by
  refine ⟨by decide, _, _, rfl, rfl, by decide, by decide, by decide, ?_⟩
  intro exactly
  have nothing := (exactly _ _ _ rfl rfl rfl 2).2 fun both =>
    not_in_chat rfl (by decide) both.1
  exact absurd nothing (by decide)

end LinuxFff.PlainDelivery
