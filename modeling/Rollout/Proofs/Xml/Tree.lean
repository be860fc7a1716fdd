import Rollout.Xml.Indent
import Rollout.Xml.Node

/-!
# Labels of trees

- `mem_labels`, `mem_labelsAll`: a label of a tree is the root's or one of a child's.
- `labels_indented`: indentation changes texts and tails only.
- `labels_mapLabels`: the labels after a change of every label.
-/

namespace Rollout.Xml

namespace Node

theorem labels_eq (node : Node) : node.labels = node.label :: labelsAll node.children := by
  obtain ⟨label, text, children, tail⟩ := node
  rw [labels]

theorem labelsAll_eq_flatMap : ∀ nodes : List Node, labelsAll nodes = nodes.flatMap labels
  | [] => rfl
  | node :: nodes => by
    rw [labelsAll, List.flatMap_cons, labelsAll_eq_flatMap nodes]

theorem mem_labelsAll {label : Label} {nodes : List Node} :
    label ∈ labelsAll nodes ↔ ∃ node ∈ nodes, label ∈ node.labels := by
  rw [labelsAll_eq_flatMap, List.mem_flatMap]

theorem mem_labels {label : Label} {node : Node} :
    label ∈ node.labels ↔ label = node.label ∨ ∃ child ∈ node.children, label ∈ child.labels := by
  rw [labels_eq, List.mem_cons, mem_labelsAll]

/-- Own tails are no part of the labels. -/
theorem labels_withTail (node : Node) (tail : Option String) :
    labels { node with tail := tail } = node.labels := by
  rw [labels_eq, labels_eq]

mutual

theorem labels_mapLabels (f : Label → Label) : (node : Node) →
    (node.mapLabels f).labels = node.labels.map f
  | ⟨label, text, children, tail⟩ => by
    rw [mapLabels, labels, labels, labelsAll_mapLabelsAll f children, List.map_cons]

theorem labelsAll_mapLabelsAll (f : Label → Label) : (nodes : List Node) →
    labelsAll (mapLabelsAll f nodes) = (labelsAll nodes).map f
  | [] => rfl
  | node :: nodes => by
    rw [mapLabelsAll, labelsAll, labelsAll, labels_mapLabels f node, labelsAll_mapLabelsAll f nodes,
      List.map_append]

end

end Node

mutual

/-- Indentation changes no label. -/
theorem labels_indented (unit : String) (depth : Nat) : (node : Node) →
    (node.indented unit depth).labels = node.labels
  | ⟨_, _, [], _⟩ => rfl
  | ⟨label, text, child :: children, tail⟩ => by
    rw [Node.indented, Node.labels, Node.labels,
      labelsAll_indentedAll unit depth (child :: children)]

theorem labelsAll_indentedAll (unit : String) (depth : Nat) : (nodes : List Node) →
    Node.labelsAll (indentedAll unit depth nodes) = Node.labelsAll nodes
  | [] => rfl
  | node :: nodes => by
    rw [indentedAll, Node.labelsAll, Node.labelsAll, Node.labels_withTail,
      labels_indented unit (depth + 1) node, labelsAll_indentedAll unit depth nodes]

end

end Rollout.Xml
