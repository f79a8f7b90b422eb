import LinuxFff.Authenticate

/-!
# When `authenticate` returns after the connection has ended

The menu loop ignores the result of its read: once the connection has ended,
every round finds an empty buffer, which is no answer, and asks again. Nothing
else in the function waits for the client or repeats without end.
-/

namespace LinuxFff.MenuTermination

open LinuxFff.Authenticate LinuxFff.CString LinuxFff.RecordStream LinuxFff.SizeArith
open LinuxFff.StackArray

set_option autoImplicit false

variable {abi : Abi} {behind : Bytes}

theorem no_answer (abi : Abi) (behind : Bytes) : ¬Chosen (menuMode abi behind none) := by
  have empty : (menuBuffer behind none).text = [] :=
    (@CharArray.zeroed_fill 1024 [] behind (by simp) (by decide)).1
  unfold menuMode
  rw [empty]
  cases abi <;> decide

theorem choose_mode_nothing_left (fuel : Nat) :
    chooseMode abi behind fuel ⟨[], true⟩ = none := by
  induction fuel with
  | zero => rfl
  | succ fuel ih =>
      have ended : Peer.sslRead 1024 ⟨[], true⟩ = some (none, ⟨[], true⟩) := rfl
      simp only [chooseMode, ended, if_neg (no_answer abi behind), ih]

theorem reads_nothing {size : Nat} {records : List Bytes}
    (nothing : RecordStream.read size records = none) : records = [] := by
  cases records with
  | nil => rfl
  | cons record rest =>
      simp only [RecordStream.read] at nothing
      split_ifs at nothing

/-- A round of the menu reads one piece after the other, until one is an answer. -/
theorem choose_mode_returns_iff (records : List Bytes) :
    (∃ fuel, (chooseMode abi behind fuel ⟨records, true⟩).isSome) ↔
      ∃ piece ∈ reads 1024 records, Chosen (menuMode abi behind (some piece)) := by
  induction pieces : reads 1024 records generalizing records with
  | nil =>
      have nothing : records = [] := by
        cases records with
        | nil => rfl
        | cons record rest =>
            obtain ⟨later, some⟩ := reads_head 1024 record rest
            rw [some] at pieces
            cases pieces
      simp [nothing, choose_mode_nothing_left]
  | cons piece later ih =>
      cases first : RecordStream.read 1024 records with
      | none =>
          rw [reads_nothing first] at pieces
          cases pieces
      | some result =>
          rcases result with ⟨answer, rest⟩
          rw [reads_cons (by decide) first] at pieces
          obtain ⟨same, others⟩ := List.cons.inj pieces
          subst same
          have read : Peer.sslRead 1024 ⟨records, true⟩ = some (some answer, ⟨rest, true⟩) := by
            simp only [Peer.sslRead, first]
          have after := ih rest others
          rw [List.exists_mem_cons_iff, ← after]
          constructor
          case mp =>
            rintro ⟨fuel, returns⟩
            cases fuel with
            | zero => cases returns
            | succ fuel =>
                by_cases chosen : Chosen (menuMode abi behind (some answer))
                · exact Or.inl chosen
                · simp only [chooseMode, read, if_neg chosen] at returns
                  exact Or.inr ⟨fuel, returns⟩
          case mpr =>
            rintro (chosen | ⟨fuel, returns⟩)
            · exact ⟨1, by simp only [chooseMode, read, if_pos chosen, Option.isSome_some]⟩
            · by_cases chosen : Chosen (menuMode abi behind (some answer))
              · exact ⟨1, by simp only [chooseMode, read, if_pos chosen, Option.isSome_some]⟩
              · exact ⟨fuel + 1, by simpa only [chooseMode, read, if_neg chosen] using returns⟩

theorem closed_read (size : Nat) (records : List Bytes) :
    ∃ answer rest, Peer.sslRead size ⟨records, true⟩ = some (answer, ⟨rest, true⟩) := by
  unfold Peer.sslRead
  cases RecordStream.read size records with
  | none => exact ⟨none, records, rfl⟩
  | some result => exact ⟨some result.1, result.2, rfl⟩

theorem choose_mode_closed {fuel : Nat} {records : List Bytes} {mode : Int} {peer : Peer}
    (chosen : chooseMode abi behind fuel ⟨records, true⟩ = some (mode, peer)) :
    ∃ rest, peer = ⟨rest, true⟩ := by
  induction fuel generalizing records with
  | zero => cases chosen
  | succ fuel ih =>
      obtain ⟨answer, rest, read⟩ := closed_read 1024 records
      simp only [chooseMode, read] at chosen
      split_ifs at chosen
      · exact ⟨rest, (Prod.mk.inj (Option.some.inj chosen)).2.symm⟩
      · exact ih chosen

theorem supplied_returns_iff (locals : Locals) (fuel : Nat) (records : List Bytes) :
    (supplied abi locals fuel ⟨records, true⟩).isSome ↔
      (chooseMode abi locals.behindBuffer fuel ⟨records, true⟩).isSome := by
  unfold supplied
  cases chosen : chooseMode abi locals.behindBuffer fuel ⟨records, true⟩ with
  | none => simp
  | some result =>
      rcases result with ⟨mode, peer⟩
      obtain ⟨rest, ended⟩ := choose_mode_closed chosen
      obtain ⟨name, later, firstRead⟩ := closed_read 50 rest
      obtain ⟨word, last, secondRead⟩ := closed_read 50 later
      subst ended
      simp [firstRead, secondRead]

/-- The call returns after finitely many rounds of its loops. -/
def Returns (abi : Abi) (locals : Locals) (users : Option Bytes) (peer : Peer) : Prop :=
  ∃ fuel decision after,
    authenticate abi locals users fuel (Session.start peer) = .goes decision after

theorem returns_iff_supplied (locals : Locals) (users : Option Bytes) (peer : Peer) :
    Returns abi locals users peer ↔ ∃ fuel, (supplied abi locals fuel peer).isSome := by
  constructor
  case mp =>
    rintro ⟨fuel, decision, after, goes⟩
    have shape := authenticate_supplied abi locals users fuel (Session.start peer)
    refine ⟨fuel, ?_⟩
    cases input : supplied abi locals fuel peer with
    | some input => rfl
    | none =>
        simp only [Session.start, input] at shape
        obtain ⟨stopped, stops⟩ := shape
        rw [Session.start, stops] at goes
        cases goes
  case mpr =>
    rintro ⟨fuel, complete⟩
    obtain ⟨input, given⟩ := Option.isSome_iff_exists.mp complete
    have shape := authenticate_supplied abi locals users fuel (Session.start peer)
    simp only [Session.start, given] at shape
    obtain ⟨after, goes⟩ := shape
    exact ⟨fuel, _, after, goes⟩

/-- For all records, whatever the arrays hold and whatever `users.txt` is: with
the connection closed behind the records, the call returns exactly when one of
their pieces is an answer to the menu. -/
theorem authenticate_returns_iff (abi : Abi) (locals : Locals) (users : Option Bytes)
    (records : List Bytes) :
    Returns abi locals users (.sent records true) ↔
      ∃ piece ∈ reads 1024 (records.filter fun record => !record.isEmpty),
        Chosen (menuMode abi locals.behindBuffer (some piece)) := by
  rw [returns_iff_supplied, ← choose_mode_returns_iff]
  unfold Peer.sent
  simp only [supplied_returns_iff]

/-- A client that closes the connection at the menu. -/
theorem menu_never_left (abi : Abi) (locals : Locals) (users : Option Bytes) :
    ¬Returns abi locals users (.sent [] true) := by
  rw [returns_iff_supplied]
  rintro ⟨fuel, complete⟩
  have nothing : chooseMode abi locals.behindBuffer fuel ⟨[], true⟩ = none :=
    choose_mode_nothing_left fuel
  simp [Peer.sent, supplied, nothing] at complete

theorem disconnect_at_menu : ¬Returns .lp64 someLocals (some []) (.sent [] true) :=
  menu_never_left .lp64 someLocals (some [])

end LinuxFff.MenuTermination
