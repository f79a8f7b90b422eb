import Mathlib.Data.List.Nodup
import Mathlib.Data.List.Perm.Basic
import Mathlib.Data.List.Perm.Subperm
import Mathlib.Logic.Function.Basic

/-!
# Rosters and fan-out

A server keeps its members in some table of keys, and sends a message by
writing once to every key of the table. `Lists` says that a table holds the key
of every member once, in any order; adding and removing a key keeps it. Writing
to a key reaches the owner that the system has for the key at that moment, so
what a member receives is counted over the table.
-/

namespace LinuxFff.Roster

set_option autoImplicit false

variable {Member Key Line : Type*}

/-- The keys of a table are those of the members, one each, in any order. -/
structure Lists (key : Member → Key) (keys : List Key) (members : List Member) : Prop where
  distinct : members.Nodup
  listed : keys.Perm (members.map key)

variable {key : Member → Key} {keys : List Key} {members : List Member}

theorem lists_nil : Lists key [] [] := ⟨List.nodup_nil, List.Perm.nil⟩

theorem Lists.length_eq (lists : Lists key keys members) : keys.length = members.length := by
  rw [lists.listed.length_eq, List.length_map]

theorem Lists.add {added : List Key} {member : Member} (lists : Lists key keys members)
    (fresh : member ∉ members) (grown : added.Perm (key member :: keys)) :
    Lists key added (member :: members) where
  distinct := List.nodup_cons.mpr ⟨fresh, lists.distinct⟩
  listed := grown.trans (lists.listed.cons (key member))

theorem Lists.remove [DecidableEq Member] [DecidableEq Key] {removed : List Key}
    {member : Member} (lists : Lists key keys members) (present : member ∈ members)
    (shrunk : removed.Perm (keys.erase (key member))) :
    Lists key removed (members.erase member) where
  distinct := lists.distinct.erase member
  listed := by
    have split : (members.map key).Perm (key member :: (members.erase member).map key) :=
      (List.perm_cons_erase present).map key
    have tail := (lists.listed.trans split).erase (key member)
    rw [List.erase_cons_head] at tail
    exact shrunk.trans tail

theorem Lists.congr {other : Member → Key} (lists : Lists key keys members)
    (same : ∀ member ∈ members, other member = key member) : Lists other keys members where
  distinct := lists.distinct
  listed := by
    rw [List.map_congr_left same]
    exact lists.listed

/-- Members that sit in different places are not more than the places. -/
theorem length_le_of_places {size : Nat} {sits : Nat → Member → Prop}
    (distinct : members.Nodup)
    (placed : ∀ member ∈ members, ∃ place, place < size ∧ sits place member)
    (alone : ∀ place first second, sits place first → sits place second → first = second) :
    members.length ≤ size := by
  choose! place bound sits using placed
  have apart : (members.map place).Nodup := by
    apply distinct.map_on
    intro first firstMember second secondMember same
    have firstSits := sits first firstMember
    rw [same] at firstSits
    exact alone _ first second firstSits (sits second secondMember)
  have contained : members.map place ⊆ List.range size := by
    intro used member
    obtain ⟨owner, ownerMember, same⟩ := List.mem_map.mp member
    rw [List.mem_range, ← same]
    exact bound owner ownerMember
  have length := (List.subperm_of_subset apart contained).length_le
  rwa [List.length_map, List.length_range] at length

variable [DecidableEq Member]

theorem Lists.others [DecidableEq Key] {sender : Member} (lists : Lists key keys members)
    (only : ∀ member ∈ members, key member = key sender → member = sender) :
    (keys.filter fun other => other ≠ key sender).Perm
      ((members.filter fun member => member ≠ sender).map key) := by
  have same : (members.map key).filter (fun other => other ≠ key sender) =
      (members.filter fun member => member ≠ sender).map key := by
    rw [List.filter_map]
    apply congrArg (List.map key)
    apply List.filter_congr
    intro member present
    have iff : key member = key sender ↔ member = sender :=
      ⟨only member present, fun equal => congrArg key equal⟩
    simp [iff]
  rw [← same]
  exact lists.listed.filter _

/-- One write: the line goes to whoever owns the key, and is lost without an owner. -/
def write (owner : Key → Option Member) (line : Line) (inbox : Member → List Line) (key : Key) :
    Member → List Line :=
  match owner key with
  | some member => Function.update inbox member (inbox member ++ [line])
  | none => inbox

def writeAll (owner : Key → Option Member) (line : Line) (inbox : Member → List Line)
    (keys : List Key) : Member → List Line :=
  keys.foldl (write owner line) inbox

/-- The number of writes that reach a member. -/
def copies (owner : Key → Option Member) (member : Member) (keys : List Key) : Nat :=
  keys.countP fun key => owner key = some member

variable {owner : Key → Option Member} {line : Line} {inbox : Member → List Line}

theorem write_apply (key : Key) (member : Member) :
    write owner line inbox key member =
      inbox member ++ List.replicate (if owner key = some member then 1 else 0) line := by
  unfold write
  cases found : owner key with
  | none => simp
  | some other =>
      by_cases same : member = other
      · simp [same]
      · simp [same, Ne.symm same]

theorem write_all_apply (keys : List Key) (inbox : Member → List Line) (member : Member) :
    writeAll owner line inbox keys member =
      inbox member ++ List.replicate (copies owner member keys) line := by
  induction keys generalizing inbox with
  | nil => simp [writeAll, copies]
  | cons head keys ih =>
      have rest : writeAll owner line inbox (head :: keys) =
          writeAll owner line (write owner line inbox head) keys := rfl
      rw [rest, ih, write_apply, List.append_assoc, List.replicate_append_replicate, copies,
        copies, List.countP_cons, Nat.add_comm]
      simp only [decide_eq_true_eq]

/-- Copies are counted over the members whose key passes the sender's test. -/
theorem Lists.copies_filter (lists : Lists key keys members) (test : Key → Bool)
    (member : Member) :
    copies owner member (keys.filter test) =
      members.countP fun other => decide (owner (key other) = some member) && test (key other) := by
  rw [copies, List.countP_filter, lists.listed.countP_eq, List.countP_map]
  rfl

theorem count_one (distinct : members.Nodup) (member : Member) (test : Member → Bool)
    (only : ∀ other ∈ members, test other = true → other = member) :
    members.countP test = if member ∈ members ∧ test member = true then 1 else 0 := by
  have same : members.countP test = members.countP fun other =>
      decide (other = member) && test member := by
    apply List.countP_congr
    intro other present
    constructor
    · intro passed
      have equal := only other present passed
      subst equal
      simpa using passed
    · intro passed
      rw [Bool.and_eq_true, decide_eq_true_eq] at passed
      rw [passed.1]
      exact passed.2
  rw [same]
  cases value : test member with
  | false => simp
  | true =>
      have counted : (members.countP fun other => decide (other = member) && true) =
          members.count member := by
        rw [List.count]
        apply List.countP_congr
        intro other _
        simp
      rw [counted]
      by_cases present : member ∈ members
      · rw [if_pos ⟨present, rfl⟩, List.count_eq_one_of_mem distinct present]
      · rw [if_neg fun both => present both.1, List.count_eq_zero.mpr present]

theorem count_two {test : Member → Bool} {left right : Member} (apart : left ≠ right)
    (leftPresent : left ∈ members) (rightPresent : right ∈ members)
    (leftPasses : test left = true) (rightPasses : test right = true) :
    2 ≤ members.countP test := by
  rw [(List.perm_cons_erase leftPresent).countP_eq, List.countP_cons_of_pos leftPasses]
  have remains : right ∈ members.erase left :=
    (List.mem_erase_of_ne (Ne.symm apart)).mpr rightPresent
  have positive := List.countP_pos_iff.mpr ⟨right, remains, rightPasses⟩
  omega

end LinuxFff.Roster
