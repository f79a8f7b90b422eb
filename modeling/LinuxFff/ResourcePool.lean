import Mathlib.Data.List.Perm.Basic

/-!
# A counting semaphore in front of a table of slots

A worker waits at the semaphore, takes a free slot of the table, gives it back
and posts the semaphore: four steps, each atomic by itself only. The crew is
the list of the local states of the workers. `Guarded` speaks about the crew up
to its order, so each rule below is stated for the worker that moves.
-/

namespace LinuxFff.ResourcePool

set_option autoImplicit false

section Crew

variable {Local : Type*} {crew : List Local} {index : Nat} {found : Local}

theorem crew_split (lookup : crew[index]? = some found) :
    ∃ rest, crew.Perm (found :: rest) ∧ ∀ moved, (crew.set index moved).Perm (moved :: rest) := by
  obtain ⟨inside, same⟩ := List.getElem?_eq_some_iff.mp lookup
  refine ⟨crew.eraseIdx index, ?_, List.set_perm_cons_eraseIdx inside⟩
  rw [← same]
  exact (List.getElem_cons_eraseIdx_perm inside).symm

theorem index_eq_of_nodup {Value : Type*} {held : Local → Option Value} {value : Value}
    {left right : Nat} {first second : Local} (distinct : (crew.filterMap held).Nodup)
    (leftLookup : crew[left]? = some first) (rightLookup : crew[right]? = some second)
    (firstHolds : held first = some value) (secondHolds : held second = some value) :
    left = right := by
  obtain ⟨leftInside, leftHere⟩ := List.getElem?_eq_some_iff.mp leftLookup
  obtain ⟨rightInside, rightHere⟩ := List.getElem?_eq_some_iff.mp rightLookup
  have apart := List.pairwise_iff_getElem.mp (List.pairwise_filterMap.mp distinct)
  rcases Nat.lt_trichotomy left right with before | same | after
  · refine absurd rfl (apart left right leftInside rightInside before value ?_ value ?_)
    · rw [leftHere, firstHolds]
    · rw [rightHere, secondHolds]
  · exact same
  · refine absurd rfl (apart right left rightInside leftInside after value ?_ value ?_)
    · rw [rightHere, secondHolds]
    · rw [leftHere, firstHolds]

end Crew

variable {Local Status : Type*} [DecidableEq Status]

/-- `inside` says who is between waiting and posting, `held` who has which slot. -/
structure Guarded (inside : Local → Bool) (held : Local → Option Nat) (free busy : Status)
    (size value : Nat) (status : List Status) (crew : List Local) : Prop where
  length : status.length = size
  balance : value + crew.countP inside = size
  available : status.count free + (crew.filterMap held).length = size
  distinct : (crew.filterMap held).Nodup
  occupied : ∀ slot, slot ∈ crew.filterMap held ↔ status[slot]? = some busy

variable {inside : Local → Bool} {held : Local → Option Nat} {free busy : Status}
  {size value slot : Nat} {status : List Status} {crew rest : List Local} {old new : Local}

theorem Guarded.perm {other : List Local}
    (guarded : Guarded inside held free busy size value status crew) (same : crew.Perm other) :
    Guarded inside held free busy size value status other where
  length := guarded.length
  balance := by
    rw [← same.countP_eq]
    exact guarded.balance
  available := by
    rw [← (same.filterMap held).length_eq]
    exact guarded.available
  distinct := (same.filterMap held).nodup_iff.mp guarded.distinct
  occupied := by
    intro slot
    rw [← (same.filterMap held).mem_iff]
    exact guarded.occupied slot

theorem guarded_start (apart : free ≠ busy) (outside : ∀ worker ∈ crew, inside worker = false)
    (empty : ∀ worker ∈ crew, held worker = none) :
    Guarded inside held free busy size size (List.replicate size free) crew := by
  have nobody : crew.countP inside = 0 := by
    apply List.countP_eq_zero.mpr
    intro worker member
    simp [outside worker member]
  have nothing : crew.filterMap held = [] := List.filterMap_eq_nil_iff.mpr empty
  constructor
  case length => exact List.length_replicate
  case balance => rw [nobody, Nat.add_zero]
  case available => simp [nothing]
  case distinct => simp [nothing]
  case occupied =>
    intro slot
    rw [nothing, List.getElem?_replicate]
    split
    · simpa using apart
    · simp

theorem Guarded.rebalance {changed : Nat}
    (guarded : Guarded inside held free busy size value status (old :: rest))
    (sameHeld : held new = held old) (balance : changed + (new :: rest).countP inside = size) :
    Guarded inside held free busy size changed status (new :: rest) := by
  have same : (new :: rest).filterMap held = (old :: rest).filterMap held := by
    rw [List.filterMap_cons, List.filterMap_cons, sameHeld]
  constructor
  case length => exact guarded.length
  case balance => exact balance
  case available =>
    rw [same]
    exact guarded.available
  case distinct =>
    rw [same]
    exact guarded.distinct
  case occupied =>
    rw [same]
    exact guarded.occupied

theorem Guarded.move (guarded : Guarded inside held free busy size value status (old :: rest))
    (sameInside : inside new = inside old) (sameHeld : held new = held old) :
    Guarded inside held free busy size value status (new :: rest) := by
  apply guarded.rebalance sameHeld
  rw [List.countP_cons, sameInside, ← List.countP_cons]
  exact guarded.balance

theorem Guarded.wait
    (guarded : Guarded inside held free busy size (value + 1) status (old :: rest))
    (outside : inside old = false) (enters : inside new = true) (sameHeld : held new = held old) :
    Guarded inside held free busy size value status (new :: rest) := by
  apply guarded.rebalance sameHeld
  have balance := guarded.balance
  rw [List.countP_cons_of_neg (by simp [outside])] at balance
  rw [List.countP_cons_of_pos enters]
  omega

theorem Guarded.post (guarded : Guarded inside held free busy size value status (old :: rest))
    (admitted : inside old = true) (leaves : inside new = false) (sameHeld : held new = held old) :
    Guarded inside held free busy size (value + 1) status (new :: rest) := by
  apply guarded.rebalance sameHeld
  have balance := guarded.balance
  rw [List.countP_cons_of_pos admitted] at balance
  rw [List.countP_cons_of_neg (by simp [leaves])]
  omega

theorem Guarded.pick (guarded : Guarded inside held free busy size value status (old :: rest))
    (apart : free ≠ busy) (isFree : status[slot]? = some free) (empty : held old = none)
    (takes : held new = some slot) (sameInside : inside new = inside old) :
    Guarded inside held free busy size value (status.set slot busy) (new :: rest) := by
  obtain ⟨bound, here⟩ := List.getElem?_eq_some_iff.mp isFree
  have others : (old :: rest).filterMap held = rest.filterMap held :=
    List.filterMap_cons_none empty
  have all : (new :: rest).filterMap held = slot :: rest.filterMap held :=
    List.filterMap_cons_some takes
  constructor
  case length => exact List.length_set.trans guarded.length
  case balance =>
    have balance := guarded.balance
    rwa [List.countP_cons, ← sameInside, ← List.countP_cons] at balance
  case available =>
    have available := guarded.available
    have positive : 0 < status.count free :=
      List.count_pos_iff.mpr (here ▸ List.getElem_mem bound)
    rw [others] at available
    rw [all, List.count_set bound, here, List.length_cons]
    simp only [beq_self_eq_true, if_true, beq_iff_eq, Ne.symm apart, if_false]
    omega
  case distinct =>
    rw [all]
    apply List.nodup_cons.mpr
    constructor
    · intro member
      rw [← others, guarded.occupied, isFree] at member
      exact apart (Option.some.inj member)
    · rw [← others]
      exact guarded.distinct
  case occupied =>
    intro other
    rw [all, List.mem_cons, List.getElem?_set, ← others, guarded.occupied]
    by_cases same : slot = other
    · simp [same, same ▸ bound]
    · simp [same, Ne.symm same]

theorem Guarded.release (guarded : Guarded inside held free busy size value status (old :: rest))
    (apart : free ≠ busy) (holds : held old = some slot) (gives : held new = none)
    (sameInside : inside new = inside old) :
    Guarded inside held free busy size value (status.set slot free) (new :: rest) := by
  have all : (old :: rest).filterMap held = slot :: rest.filterMap held :=
    List.filterMap_cons_some holds
  have others : (new :: rest).filterMap held = rest.filterMap held :=
    List.filterMap_cons_none gives
  have isBusy : status[slot]? = some busy := by
    rw [← guarded.occupied, all]
    exact List.mem_cons_self
  obtain ⟨bound, here⟩ := List.getElem?_eq_some_iff.mp isBusy
  have distinct := guarded.distinct
  rw [all] at distinct
  obtain ⟨fresh, restDistinct⟩ := List.nodup_cons.mp distinct
  constructor
  case length => exact List.length_set.trans guarded.length
  case balance =>
    have balance := guarded.balance
    rwa [List.countP_cons, ← sameInside, ← List.countP_cons] at balance
  case available =>
    have available := guarded.available
    rw [all, List.length_cons] at available
    rw [others, List.count_set bound, here]
    simp only [beq_self_eq_true, if_true, beq_iff_eq, Ne.symm apart, if_false]
    omega
  case distinct =>
    rw [others]
    exact restDistinct
  case occupied =>
    intro other
    have occupied := guarded.occupied other
    rw [all, List.mem_cons] at occupied
    rw [others, List.getElem?_set]
    by_cases same : slot = other
    · subst same
      simp [fresh, bound, apart]
    · simpa [same, Ne.symm same] using occupied

theorem Guarded.free_mem (guarded : Guarded inside held free busy size value status (old :: rest))
    (heldInside : ∀ worker, (held worker).isSome = true → inside worker = true)
    (admitted : inside old = true) (empty : held old = none) : free ∈ status := by
  have fewer : (rest.filterMap held).length ≤ rest.countP inside := by
    rw [List.length_filterMap_eq_countP]
    exact List.countP_mono_left fun worker _ => heldInside worker
  have balance := guarded.balance
  have available := guarded.available
  rw [List.countP_cons_of_pos admitted] at balance
  rw [List.filterMap_cons_none empty] at available
  apply List.count_pos_iff.mp
  omega

/-- Nobody inside: the semaphore is full and every slot is free. -/
theorem Guarded.idle (guarded : Guarded inside held free busy size value status crew)
    (outside : ∀ worker ∈ crew, inside worker = false)
    (empty : ∀ worker ∈ crew, held worker = none) :
    value = size ∧ status = List.replicate size free := by
  have nobody : crew.countP inside = 0 := by
    apply List.countP_eq_zero.mpr
    intro worker member
    simp [outside worker member]
  have nothing : crew.filterMap held = [] := List.filterMap_eq_nil_iff.mpr empty
  have balance := guarded.balance
  have available := guarded.available
  rw [nobody] at balance
  rw [nothing, List.length_nil, ← guarded.length] at available
  refine ⟨balance, ?_⟩
  rw [← guarded.length]
  apply List.eq_replicate_iff.mpr
  exact ⟨rfl, fun entry member => (List.count_eq_length.mp available entry member).symm⟩

section Handover

variable {Item : Type*} {carries : Local → Option Item} {given done : List Item} {item : Item}

/-- What has been given out is done or in the hands of one worker. -/
def HandedOn (carries : Local → Option Item) (given done : List Item) (crew : List Local) : Prop :=
  given.Perm (done ++ crew.filterMap carries)

theorem HandedOn.perm {other : List Local} (handed : HandedOn carries given done crew)
    (same : crew.Perm other) : HandedOn carries given done other :=
  handed.trans ((same.filterMap carries).append_left done)

theorem HandedOn.keep (handed : HandedOn carries given done (old :: rest))
    (same : carries new = carries old) : HandedOn carries given done (new :: rest) := by
  unfold HandedOn at *
  rwa [List.filterMap_cons, same, ← List.filterMap_cons]

theorem HandedOn.receive (handed : HandedOn carries given done (old :: rest))
    (empty : carries old = none) (gets : carries new = some item) :
    HandedOn carries (given ++ [item]) done (new :: rest) := by
  unfold HandedOn at *
  rw [List.filterMap_cons_none empty] at handed
  rw [List.filterMap_cons_some gets]
  apply List.perm_append_comm.trans
  exact (handed.cons item).trans List.perm_middle.symm

theorem HandedOn.finish (handed : HandedOn carries given done (old :: rest))
    (had : carries old = some item) (empty : carries new = none) :
    HandedOn carries given (done ++ [item]) (new :: rest) := by
  unfold HandedOn at *
  rw [List.filterMap_cons_some had] at handed
  rw [List.filterMap_cons_none empty, List.append_assoc]
  exact handed

theorem HandedOn.idle (handed : HandedOn carries given done crew)
    (empty : ∀ worker ∈ crew, carries worker = none) : given.Perm done := by
  have nothing : crew.filterMap carries = [] := List.filterMap_eq_nil_iff.mpr empty
  unfold HandedOn at handed
  rwa [nothing, List.append_nil] at handed

end Handover

end LinuxFff.ResourcePool
