import Rollout.Proofs.Pom.Frame
import Rollout.Proofs.Text.Pieces

/-!
# Units of indentation

The unit of indentation is read off what stands before the first child of a root. Edits that place
an element below the root write that text anew only where there was no child, and then with the unit
they found.

- `indentUnit_line`: what a unit can be.
- `indentUnit_of_lineBreak`: a root whose first child stands on a line of its own shows the unit.
- `indentUnit_within`: **an element placed below the root** leaves the unit.
- `indentUnit_pin`: so does a pin.
-/

namespace Rollout.Pom

open Xml

/-- The unit of indentation that a document shows is not empty, and no line ends in it. -/
theorem indentUnit_line (root : Node) : indentUnit root ≠ "" ∧ '\n' ∉ (indentUnit root).toList := by
  have hdefault : defaultIndent ≠ "" ∧ '\n' ∉ defaultIndent.toList := by decide
  unfold indentUnit
  dsimp only
  split
  case isFalse => exact hdefault
  case isTrue =>
    split
    case isTrue => exact hdefault
    case isFalse hunit =>
      exact ⟨fun hempty => hunit (by rw [hempty]; rfl), Text.not_mem_afterLast '\n' _⟩

theorem indentUnit_congr {a b : Node} (h : a.text = b.text) : indentUnit a = indentUnit b := by
  simp only [indentUnit, h]

/-- **A root whose first child stands on a line of its own** shows what the child is indented by. -/
theorem indentUnit_of_lineBreak {unit : String} (hne : unit ≠ "") (hline : '\n' ∉ unit.toList)
    (hblank : Text.allBlank unit = true) {root : Node}
    (htext : root.text = some (lineBreak unit 1)) : indentUnit root = unit := by
  have hbreak : lineBreak unit 1 = String.ofList ([] ++ '\n' :: unit.toList) := by
    apply String.toList_inj.mp
    simp [lineBreak]
  have hmem : '\n' ∈ (lineBreak unit 1).toList := by simp [hbreak]
  have hlast : Text.afterLast '\n' (lineBreak unit 1) = unit := by
    rw [hbreak, Text.afterLast_append [] hline, String.ofList_toList]
  have hunit : unit.isEmpty = false := by simpa using hne
  simp [indentUnit, htext, hmem, allBlank_lineBreak hblank, hlast, hunit]

section Edits

variable {style : Style} {project : Node}

theorem text_insertLast {parent : Node} (h : parent.children ≠ []) (depth : Nat) (child : Node) :
    (style.insertLast depth child parent).text = parent.text := by
  simp [Style.insertLast, List.getLast?_eq_some_getLast h]

theorem indentUnit_insertLast (hstyle : style.indent = indentUnit project) (child : Node) :
    indentUnit (style.insertLast 0 child project) = indentUnit project := by
  by_cases hnil : project.children = []
  · have htext : (style.insertLast 0 child project).text = some (lineBreak style.indent 1) := by
      simp [Style.insertLast, hnil]
    rw [hstyle] at htext
    obtain ⟨hne, hline⟩ := indentUnit_line project
    exact indentUnit_of_lineBreak hne hline (allBlank_indentUnit project) htext
  · exact indentUnit_congr (text_insertLast hnil 0 child)

/-- **An edit inside a child of the root**, which is added when missing. -/
theorem indentUnit_within (hstyle : style.indent = indentUnit project) (name : String)
    (f : Node → Node) : indentUnit (style.within 0 name f project) = indentUnit project := by
  show indentUnit (style.withChild 0 name project) = indentUnit project
  by_cases hchild : (project.child? name).isSome = true
  · rw [Style.withChild, if_pos hchild]
  · rw [Style.withChild, if_neg hchild]
    exact indentUnit_insertLast hstyle _

/-- **A pin** leaves the unit, even where it adds the first child of the root. -/
theorem indentUnit_pin (hstyle : style.indent = indentUnit project) (value : String) :
    indentUnit (pin value style project) = indentUnit project := by
  have hprepared : indentUnit (if (profileOf? deployProfile project).isSome then project
      else insertProfile deployProfile style project) = indentUnit project := by
    split
    · rfl
    · exact indentUnit_within hstyle _ _
  have hdeclared : indentUnit (if (hosting deployPlugin project).isEmpty then
      declareHost style project else project) = indentUnit project := by
    split
    · exact (indentUnit_congr rfl).trans hprepared
    · rfl
  unfold pin
  dsimp only
  generalize (if (hosting deployPlugin project).isEmpty then declareHost style project
    else project) = hosted at hdeclared ⊢
  -- setting versions changes children only
  rw [← hdeclared]
  split <;> exact indentUnit_congr rfl

end Edits

end Rollout.Pom
