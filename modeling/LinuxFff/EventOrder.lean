import Mathlib.Data.List.Basic
import Mathlib.Data.List.Nodup
import Mathlib.Data.List.TakeWhile

/-!
# The order of events in a history

A history is the list of the events of a run in the order in which they took
place. It grows at its end, so each notion comes with the lemma that says what
one more event does to it.
-/

namespace LinuxFff.EventOrder

set_option autoImplicit false

variable {Event : Type*}

/-- Some occurrence of `first` stands before some occurrence of `second`. -/
def Before (first second : Event) (history : List Event) : Prop :=
  [first, second].Sublist history

theorem before_cons {first second event : Event} {history : List Event} :
    Before first second (event :: history) ↔
      Before first second history ∨ (first = event ∧ second ∈ history) := by
  unfold Before
  rw [List.sublist_cons_iff]
  constructor
  · intro contained
    rcases contained with inside | ⟨rest, split, inside⟩
    · exact Or.inl inside
    · obtain ⟨same, tail⟩ := List.cons.inj split
      subst tail
      exact Or.inr ⟨same, List.singleton_sublist.mp inside⟩
  · intro contained
    rcases contained with inside | ⟨same, member⟩
    · exact Or.inl inside
    · exact Or.inr ⟨[second], by rw [same], List.singleton_sublist.mpr member⟩

theorem not_before_nil {first second : Event} : ¬Before first second [] := by
  simp [Before]

theorem before_snoc {first second event : Event} {history : List Event} :
    Before first second (history ++ [event]) ↔
      Before first second history ∨ (first ∈ history ∧ second = event) := by
  induction history with
  | nil => simp [before_cons, not_before_nil]
  | cons head history ih =>
      rw [List.cons_append, before_cons, before_cons, ih, List.mem_append, List.mem_singleton,
        List.mem_cons]
      constructor
      · intro before
        rcases before with (inside | ⟨member, last⟩) | ⟨same, member | last⟩
        · exact Or.inl (Or.inl inside)
        · exact Or.inr ⟨Or.inr member, last⟩
        · exact Or.inl (Or.inr ⟨same, member⟩)
        · exact Or.inr ⟨Or.inl same, last⟩
      · intro before
        rcases before with (inside | ⟨same, member⟩) | ⟨same | member, last⟩
        · exact Or.inl (Or.inl inside)
        · exact Or.inr ⟨same, Or.inl member⟩
        · exact Or.inr ⟨same, Or.inr last⟩
        · exact Or.inl (Or.inr ⟨member, last⟩)

theorem Before.mem_first {first second : Event} {history : List Event}
    (before : Before first second history) : first ∈ history :=
  before.subset (by simp)

theorem Before.mem_second {first second : Event} {history : List Event}
    (before : Before first second history) : second ∈ history :=
  before.subset (by simp)

theorem before_or_before {first second : Event} {history : List Event}
    (apart : first ≠ second) (firstMember : first ∈ history) (secondMember : second ∈ history) :
    Before first second history ∨ Before second first history := by
  induction history with
  | nil => cases firstMember
  | cons head history ih =>
      rw [before_cons, before_cons]
      rcases List.mem_cons.mp firstMember with firstHead | firstTail
      · rcases List.mem_cons.mp secondMember with secondHead | secondTail
        · exact absurd (firstHead.trans secondHead.symm) apart
        · exact Or.inl (Or.inr ⟨firstHead, secondTail⟩)
      · rcases List.mem_cons.mp secondMember with secondHead | secondTail
        · exact Or.inr (Or.inr ⟨secondHead, firstTail⟩)
        · exact (ih firstTail secondTail).imp Or.inl Or.inl

theorem not_before_of_before {first second : Event} {history : List Event}
    (distinct : history.Nodup) (before : Before first second history) :
    ¬Before second first history := by
  induction history with
  | nil => exact absurd before not_before_nil
  | cons head history ih =>
      obtain ⟨headFresh, tailDistinct⟩ := List.nodup_cons.mp distinct
      rw [before_cons] at before ⊢
      intro reversed
      rcases reversed with reverse | ⟨same, member⟩
      · rcases before with before | ⟨same, _⟩
        · exact ih tailDistinct before reverse
        · exact headFresh (same ▸ reverse.mem_second)
      · rcases before with before | ⟨_, secondMember⟩
        · exact headFresh (same ▸ before.mem_second)
        · exact headFresh (same ▸ secondMember)

theorem before_iff_not_before {first second : Event} {history : List Event}
    (distinct : history.Nodup) (apart : first ≠ second) (firstMember : first ∈ history)
    (secondMember : second ∈ history) :
    Before first second history ↔ ¬Before second first history := by
  constructor
  · exact not_before_of_before distinct
  · intro notReverse
    exact (before_or_before apart firstMember secondMember).resolve_right notReverse

variable [DecidableEq Event]

instance (first second : Event) (history : List Event) : Decidable (Before first second history) :=
  inferInstanceAs (Decidable ([first, second].Sublist history))

/-- The events after the first occurrence of `first`. -/
def since (first : Event) : List Event → List Event
  | [] => []
  | event :: rest => if event = first then rest else since first rest

/-- The events after `first` up to, and without, the next `last`. -/
def between (first last : Event) (history : List Event) : List Event :=
  (since first history).takeWhile fun event => event ≠ last

theorem mem_since {first event : Event} {history : List Event} :
    event ∈ since first history ↔ Before first event history := by
  induction history with
  | nil => simp [since, not_before_nil]
  | cons head history ih =>
      rw [since, before_cons]
      split
      · rename_i same
        constructor
        · intro member
          exact Or.inr ⟨same.symm, member⟩
        · intro before
          rcases before with before | ⟨_, member⟩
          · exact before.mem_second
          · exact member
      · rename_i differs
        rw [ih]
        constructor
        · exact Or.inl
        · intro before
          rcases before with before | ⟨same, _⟩
          · exact before
          · exact absurd same.symm differs

theorem since_sublist (first : Event) (history : List Event) :
    (since first history).Sublist history := by
  induction history with
  | nil => exact List.Sublist.refl _
  | cons head history ih =>
      rw [since]
      split
      · exact List.sublist_cons_self head history
      · exact ih.cons head

theorem between_sublist (first last : Event) (history : List Event) :
    (between first last history).Sublist history :=
  (List.takeWhile_sublist _).trans (since_sublist first history)

theorem since_absent {first : Event} {history : List Event} (absent : first ∉ history) :
    since first history = [] := by
  apply List.eq_nil_iff_forall_not_mem.mpr
  intro event member
  exact absent (mem_since.mp member).mem_first

theorem since_snoc {first event : Event} {history : List Event} (member : first ∈ history) :
    since first (history ++ [event]) = since first history ++ [event] := by
  induction history with
  | nil => cases member
  | cons head history ih =>
      rw [List.cons_append, since, since]
      split
      · rfl
      · rename_i differs
        apply ih
        exact (List.mem_cons.mp member).resolve_left (Ne.symm differs)

theorem take_while_snoc_closed {last event : Event} {events : List Event}
    (closed : last ∈ events) :
    (events ++ [event]).takeWhile (fun event => event ≠ last) =
      events.takeWhile fun event => event ≠ last := by
  induction events with
  | nil => cases closed
  | cons head events ih =>
      by_cases same : head = last
      · simp [same]
      · have tail := ih ((List.mem_cons.mp closed).resolve_left (Ne.symm same))
        simpa [same] using tail

theorem take_while_open {last : Event} {events : List Event} (absent : last ∉ events) :
    events.takeWhile (fun event => event ≠ last) = events := by
  apply List.takeWhile_eq_self_iff.mpr
  intro event member
  have differs : event ≠ last := fun same => absent (same ▸ member)
  simpa using differs

theorem between_absent {first last : Event} {history : List Event} (absent : first ∉ history) :
    between first last history = [] := by
  rw [between, since_absent absent, List.takeWhile_nil]

theorem between_snoc_open {first last event : Event} {history : List Event}
    (started : first ∈ history) (running : ¬Before first last history)
    (differs : event ≠ last) :
    between first last (history ++ [event]) = between first last history ++ [event] := by
  have absent : last ∉ since first history := fun member => running (mem_since.mp member)
  have absentNext : last ∉ since first history ++ [event] := by
    rw [List.mem_append, List.mem_singleton, not_or]
    exact ⟨absent, Ne.symm differs⟩
  rw [between, since_snoc started, take_while_open absentNext, between, take_while_open absent]

theorem between_snoc_last {first last : Event} {history : List Event} (apart : first ≠ last) :
    between first last (history ++ [last]) = between first last history := by
  by_cases started : first ∈ history
  · by_cases closed : last ∈ since first history
    · rw [between, since_snoc started, take_while_snoc_closed closed, between]
    · rw [between, since_snoc started, between, take_while_open closed,
        List.takeWhile_append_of_pos]
      · simp
      · intro event member
        have differs : event ≠ last := fun same => closed (same ▸ member)
        simpa using differs
  · have absentNext : first ∉ history ++ [last] := by
      rw [List.mem_append, List.mem_singleton, not_or]
      exact ⟨started, apart⟩
    rw [between_absent absentNext, between_absent started]

theorem between_snoc_closed {first last event : Event} {history : List Event}
    (closed : Before first last history) :
    between first last (history ++ [event]) = between first last history := by
  rw [between, since_snoc closed.mem_first, take_while_snoc_closed (mem_since.mpr closed), between]

theorem between_snoc_first {first last : Event} {history : List Event}
    (fresh : first ∉ history) : between first last (history ++ [first]) = [] := by
  have none : since first (history ++ [first]) = [] := by
    apply List.eq_nil_iff_forall_not_mem.mpr
    intro event member
    rcases before_snoc.mp (mem_since.mp member) with before | ⟨member, _⟩
    · exact fresh before.mem_first
    · exact fresh member
  rw [between, none, List.takeWhile_nil]

/-- While the last has not come after the first, what is between them is what
came after the first. -/
theorem mem_between {first last event : Event} {history : List Event}
    (running : ¬Before first last history) :
    event ∈ between first last history ↔ Before first event history := by
  have absent : last ∉ since first history := fun member => running (mem_since.mp member)
  rw [between, take_while_open absent, mem_since]

end LinuxFff.EventOrder
