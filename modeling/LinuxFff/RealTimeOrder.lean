import LinuxFff.EventOrder

/-!
# Calls that take effect between their call and their return

Each call takes effect at one moment of its own, which no caller sees. The order of these moments
explains what the calls do, and a call that has returned before another one was made comes
before it there.
-/

namespace LinuxFff.RealTimeOrder

open LinuxFff.EventOrder

set_option autoImplicit false

variable {Id : Type*}

inductive Event (Id : Type*) where
  | called (id : Id)
  | returned (id : Id)
  deriving DecidableEq

/-- `order` lists the calls that have taken effect. -/
structure Linear (history : List (Event Id)) (order : List Id) : Prop where
  distinct : order.Nodup
  known : ∀ id ∈ order, Event.called id ∈ history
  returned : ∀ id, Event.returned id ∈ history → id ∈ order
  early : ∀ first second, Before (.returned first) (.called second) history →
    second ∈ order → Before first second order

variable {history : List (Event Id)} {order : List Id} {id : Id}

theorem linear_nil : Linear ([] : List (Event Id)) [] where
  distinct := List.nodup_nil
  known := by
    intro id impossible
    cases impossible
  returned := by
    intro id impossible
    cases impossible
  early := by
    intro first second impossible
    exact absurd impossible not_before_nil

theorem Linear.call (linear : Linear history order) (fresh : Event.called id ∉ history) :
    Linear (history ++ [.called id]) order where
  distinct := linear.distinct
  known := fun other member => List.mem_append_left _ (linear.known other member)
  returned := by
    intro other member
    rcases List.mem_append.mp member with old | new
    · exact linear.returned other old
    · cases List.mem_singleton.mp new
  early := by
    intro first second before member
    rcases before_snoc.mp before with old | ⟨_, new⟩
    · exact linear.early first second old member
    · cases new
      exact absurd (linear.known id member) fresh

theorem Linear.take_effect (linear : Linear history order) (called : Event.called id ∈ history)
    (fresh : id ∉ order) : Linear history (order ++ [id]) where
  distinct := by
    rw [List.nodup_append_comm, List.singleton_append, List.nodup_cons]
    exact ⟨fresh, linear.distinct⟩
  known := by
    intro other member
    rcases List.mem_append.mp member with old | new
    · exact linear.known other old
    · rw [List.mem_singleton.mp new]
      exact called
  returned := fun other member => List.mem_append_left _ (linear.returned other member)
  early := by
    intro first second before member
    apply before_snoc.mpr
    rcases List.mem_append.mp member with old | new
    · exact Or.inl (linear.early first second before old)
    · exact Or.inr ⟨linear.returned first before.mem_first, List.mem_singleton.mp new⟩

theorem Linear.ret (linear : Linear history order) (done : id ∈ order) :
    Linear (history ++ [.returned id]) order where
  distinct := linear.distinct
  known := fun other member => List.mem_append_left _ (linear.known other member)
  returned := by
    intro other member
    rcases List.mem_append.mp member with old | new
    · exact linear.returned other old
    · cases List.mem_singleton.mp new
      exact done
  early := by
    intro first second before member
    rcases before_snoc.mp before with old | ⟨_, new⟩
    · exact linear.early first second old member
    · cases new

end LinuxFff.RealTimeOrder
