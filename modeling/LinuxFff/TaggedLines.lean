import Mathlib.Data.List.Basic

/-!
# Lines of a stream and the tags in front of them

Several writers put texts into one stream, and a reader cuts it into lines. The
lines of a stream are those of its texts, one after another, when every text
ends with a line end. A tag is what stands before the first separator of a
line; the separator has two different symbols, so it cannot overlap itself.
-/

namespace LinuxFff.TaggedLines

set_option autoImplicit false

variable {Symbol : Type*} {stop : Symbol}

/-- Nothing, or a text that ends with a line end. -/
def Ended (stop : Symbol) (text : List Symbol) : Prop := ∀ last ∈ text.getLast?, last = stop

theorem Ended.tail {symbol : Symbol} {rest : List Symbol} (ended : Ended stop (symbol :: rest)) :
    Ended stop rest := by
  intro last member
  apply ended last
  cases rest with
  | nil => cases member
  | cons other rest => exact member

theorem ended_snoc (text : List Symbol) : Ended stop (text ++ [stop]) := by
  intro last member
  rw [List.getLast?_concat] at member
  exact (Option.some.inj member).symm

theorem Ended.append {front text : List Symbol} (ended : Ended stop text) (filled : text ≠ []) :
    Ended stop (front ++ text) := by
  intro last member
  rw [List.getLast?_append_of_ne_nil front filled] at member
  exact ended last member

variable [DecidableEq Symbol]

instance (text : List Symbol) : Decidable (Ended stop text) :=
  inferInstanceAs (Decidable (∀ last ∈ text.getLast?, last = stop))

/-- The lines without their ends; a last line need not have an end. -/
def lines (stop : Symbol) : List Symbol → List (List Symbol)
  | [] => []
  | symbol :: rest =>
      if symbol = stop then [] :: lines stop rest
      else
        match lines stop rest with
        | [] => [[symbol]]
        | line :: more => (symbol :: line) :: more

theorem lines_ne_nil {text : List Symbol} (filled : text ≠ []) : lines stop text ≠ [] := by
  cases text with
  | nil => exact absurd rfl filled
  | cons symbol rest =>
      rw [lines]
      split
      · exact List.cons_ne_nil _ _
      · split
        · exact List.cons_ne_nil _ _
        · exact List.cons_ne_nil _ _

theorem lines_append {text : List Symbol} (ended : Ended stop text) (rest : List Symbol) :
    lines stop (text ++ rest) = lines stop text ++ lines stop rest := by
  induction text with
  | nil => rfl
  | cons symbol text ih =>
      have tail := ih ended.tail
      rw [List.cons_append, lines, lines, tail]
      split
      · rfl
      · rename_i inside
        have filled : text ≠ [] := by
          intro empty
          subst empty
          exact inside (ended symbol rfl)
        cases shape : lines stop text with
        | nil => exact absurd shape (lines_ne_nil filled)
        | cons line more => rfl

theorem lines_flat_map {Text : Type*} {content : Text → List Symbol} {texts : List Text}
    (ended : ∀ text ∈ texts, Ended stop (content text)) :
    lines stop (texts.flatMap content) = texts.flatMap fun text => lines stop (content text) := by
  induction texts with
  | nil => rfl
  | cons text rest ih =>
      rw [List.flatMap_cons, List.flatMap_cons, lines_append (ended text (by simp)),
        ih fun other member => ended other (by simp [member])]

theorem lines_front {front text first : List Symbol} {more : List (List Symbol)}
    (inLine : stop ∉ front) (shape : lines stop text = first :: more) :
    lines stop (front ++ text) = (front ++ first) :: more := by
  induction front with
  | nil => exact shape
  | cons symbol front ih =>
      obtain ⟨apart, inRest⟩ := not_or.mp (fun either => inLine (List.mem_cons.mpr either))
      rw [List.cons_append, lines, if_neg (Ne.symm apart), ih inRest]
      rfl

theorem lines_single {line : List Symbol} (inLine : stop ∉ line) :
    lines stop (line ++ [stop]) = [line] := by
  have shape : lines stop [stop] = [[]] := by simp [lines]
  rw [lines_front inLine shape, List.append_nil]

/-- What stands before and behind the first separator. -/
def cut (left right : Symbol) : List Symbol → Option (List Symbol × List Symbol)
  | first :: second :: rest =>
      if first = left ∧ second = right then some ([], rest)
      else (cut left right (second :: rest)).map fun found => (first :: found.1, found.2)
  | _ => none

variable {left right : Symbol}

theorem cut_append (apart : left ≠ right) {tag : List Symbol} (text : List Symbol)
    (free : cut left right tag = none) :
    cut left right (tag ++ left :: right :: text) = some (tag, text) := by
  induction tag with
  | nil => simp [cut]
  | cons first tag ih =>
      cases tag with
      | nil => simp [cut, apart]
      | cons second rest =>
          rw [cut] at free
          split at free
          · cases free
          · rename_i other
            have later := ih (Option.map_eq_none_iff.mp free)
            rw [List.cons_append, List.cons_append, cut, if_neg other, ← List.cons_append, later]
            rfl

theorem cut_eq_some {line tag text : List Symbol} (apart : left ≠ right) :
    cut left right line = some (tag, text) ↔
      line = tag ++ left :: right :: text ∧ cut left right tag = none := by
  constructor
  · intro found
    induction line generalizing tag with
    | nil => cases found
    | cons first line ih =>
        cases line with
        | nil => cases found
        | cons second rest =>
            rw [cut] at found
            split at found
            · rename_i here
              cases found
              exact ⟨by rw [here.1, here.2]; rfl, rfl⟩
            · rename_i other
              obtain ⟨⟨front, back⟩, later, same⟩ := Option.map_eq_some_iff.mp found
              cases same
              obtain ⟨shape, free⟩ := ih later
              refine ⟨congrArg (List.cons first) shape, ?_⟩
              cases front with
              | nil => rfl
              | cons next front =>
                  have equal : second = next := (List.cons.inj shape).1
                  rw [cut, free, if_neg (equal ▸ other)]
                  rfl
  · intro shape
    rw [shape.1]
    exact cut_append apart text shape.2

end LinuxFff.TaggedLines
