import Rollout.Proofs.Pom.Views
import Rollout.Proofs.Xml.LineEnds

/-!
# Dependencies of a tree whose texts are changed

Views find elements by their local names. So what they find is the same in a tree that is written
and read again, but for its texts.

- `Everywhere`: changes of every node of a tree that leave the local names; what the views find
  after one.
- `dependencies_reread`: **the dependencies that are read** are those of the tree that is written.
- `readBack`, `dependencies_retexted`: a dependency that is added, as it is read back.
-/

namespace Rollout.Pom

open Xml

/-! ## Views -/

/-- A change of every node of a tree that leaves the local names. -/
structure Everywhere (f : Node → Node) : Prop where
  named : ∀ name node, (f node).isNamed name = node.isNamed name
  children : ∀ node, (f node).children = node.children.map f

theorem everywhere_of_retexts {f : Node → Node} (h : Retexts f) : Everywhere f where
  named name node := isNamed_of_label (h.label node) name
  children := h.children

section Everywhere

variable {f : Node → Node}

theorem Everywhere.child? (h : Everywhere f) (name : String) (node : Node) :
    (f node).child? name = (node.child? name).map f := by
  unfold Node.child?
  rw [h.children, List.find?_map]
  exact congrArg (fun test => (node.children.find? test).map f) (funext (h.named name))

theorem Everywhere.itemsOf (h : Everywhere f) (container item : String) (node : Node) :
    itemsOf container item (f node) = (itemsOf container item node).map f := by
  unfold Pom.itemsOf
  rw [h.child?]
  cases node.child? container with
  | none => rfl
  | some block =>
    show (f block).childrenNamed item = (block.childrenNamed item).map f
    unfold Node.childrenNamed
    rw [h.children, List.filter_map]
    exact congrArg (fun test => (block.children.filter test).map f) (funext (h.named item))

theorem Everywhere.dependencies (h : Everywhere f) (project : Node) :
    dependencies (f project)
      = (Pom.itemsOf "dependencies" "dependency" project).map fun node => coordinates (f node) := by
  unfold Pom.dependencies
  rw [h.itemsOf, List.map_map]
  rfl

theorem Everywhere.childText (h : Everywhere f) (name : String) (node : Node) :
    childText name (f node)
      = (node.child? name).bind fun child => (f child).text.map Text.strip := by
  unfold Pom.childText
  rw [h.child?]
  cases node.child? name <;> rfl

end Everywhere

/-! ## Trees that are read again -/

theorem everywhere_localized : Everywhere (Node.mapLabels Label.localized) where
  named name node := by
    obtain ⟨label, text, children, tail⟩ := node
    cases label <;> rfl
  children node := by
    have hall : ∀ nodes : List Node, Node.mapLabelsAll Label.localized nodes
        = nodes.map (Node.mapLabels Label.localized) := by
      intro nodes
      induction nodes with
      | nil => rfl
      | cons node nodes ih => rw [Node.mapLabelsAll, List.map_cons, ih]
    obtain ⟨label, text, children, tail⟩ := node
    rw [Node.mapLabels, hall]

/-- Namespaces and attributes do not matter for the dependencies. -/
theorem dependencies_localized (project : Node) :
    dependencies (project.mapLabels Label.localized) = dependencies project := by
  have htext : ∀ node : Node, (node.mapLabels Label.localized).text = node.text := by
    rintro ⟨label, text, children, tail⟩
    rfl
  have hcoordinates : ∀ node : Node,
      coordinates (node.mapLabels Label.localized) = coordinates node := by
    intro node
    unfold coordinates
    simp only [everywhere_localized.childText, htext]
    rfl
  rw [everywhere_localized.dependencies]
  exact List.map_congr_left fun node _ => hcoordinates node

/-- **The dependencies** that are read are those of the tree with its line ends unified. -/
theorem dependencies_reread {tagOf : QName → TagName} (hlocal : KeepsLocal tagOf)
    {declarations : List (TagName × String)} {scope : Scope} {node read : Node}
    (h : node.reread tagOf declarations scope = some read) :
    dependencies read = dependencies node.unified := by
  rw [← dependencies_localized read, localized_reread hlocal node h, dependencies_localized]

/-! ## A dependency that is added -/

/-- What an element of a text is read back as. -/
def readBack (text : String) : Option String :=
  if text = "" then none else some (Text.strip (Text.unifyNewlines text))

theorem map_filled (text : String) :
    ((filled (some text)).map Text.unifyNewlines).map Text.strip = readBack text := by
  unfold readBack filled
  by_cases h : text = ""
  · rw [if_pos h, h]
    rfl
  · rw [if_neg h, Option.filter_some, if_pos (by simpa using h)]
    rfl

/-- **A dependency added**, seen in the tree that is written. -/
theorem dependencies_retexted (group artifact version : String) (style : Style) (project : Node) :
    dependencies (insertDependency group artifact version style project).terse.unified
      = dependencies project.terse.unified
        ++ [⟨readBack group, readBack artifact, readBack version⟩] := by
  have hwhole : Everywhere fun node => node.terse.unified :=
    everywhere_of_retexts (retexts_unified.comp retexts_terse)
  have hfree : TailFree fun node => coordinates node.terse.unified := by
    intro node tail
    unfold coordinates
    simp only [hwhole.childText]
    rfl
  have hadded : (itemsOf "dependencies" "dependency"
        (insertDependency group artifact version style project)).map
          (fun node => coordinates node.terse.unified) = _ :=
    map_itemsOf_within hfree style 0 (isNamed_dependency ..) project
  rw [hwhole.dependencies, hwhole.dependencies]
  refine hadded.trans (congrArg (_ ++ [·]) ?_)
  show (⟨_, _, _⟩ : Coordinates) = _
  rw [← map_filled, ← map_filled, ← map_filled]
  rfl

end Rollout.Pom
