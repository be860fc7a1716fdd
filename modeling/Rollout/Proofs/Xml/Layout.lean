import Rollout.Proofs.Xml.Sound
import Rollout.Xml.Indent

/-!
# Laid-out trees

A tree is laid out when every node stands on a line of its own, indented by its depth.

- `LaidOut`: the text before the first child of a node and the tails of its children are the line
  breaks of their depths.
- `Rows`: the same, said of a list of children; `laidOut_iff` says a tree is laid out when its
  children are rows of laid-out trees.
- `rows_append`: rows in front of others.
- `Parted`, `Unmixed`: text does not stand next to children.
- `laidOut_indented`: **an unmixed tree that is indented** is laid out.
-/

namespace Rollout.Xml

/-! ## Layout -/

mutual

/-- The tree at `depth` is laid out. What follows it is not its own. -/
def LaidOut (unit : String) (depth : Nat) : Node → Prop
  | ⟨_, _, [], _⟩ => True
  | ⟨_, text, child :: children, _⟩ =>
    text = some (lineBreak unit (depth + 1)) ∧ LaidOutAll unit depth (child :: children)

/-- The children of a node at `depth` are laid out; the last one's tail leads back to the node. -/
def LaidOutAll (unit : String) (depth : Nat) : List Node → Prop
  | [] => True
  | child :: children =>
    LaidOut unit (depth + 1) child ∧
      child.tail = some (lineBreak unit (if children.isEmpty then depth else depth + 1)) ∧
      LaidOutAll unit depth children

end

mutual

/-- Layout is decidable. -/
def decidableLaidOut (unit : String) (depth : Nat) :
    (node : Node) → Decidable (LaidOut unit depth node)
  | ⟨_, _, [], _⟩ => inferInstanceAs (Decidable True)
  | ⟨_, text, child :: children, _⟩ =>
    have := decidableLaidOutAll unit depth (child :: children)
    inferInstanceAs (Decidable (text = some (lineBreak unit (depth + 1)) ∧
      LaidOutAll unit depth (child :: children)))

/-- So is that of children. -/
def decidableLaidOutAll (unit : String) (depth : Nat) :
    (nodes : List Node) → Decidable (LaidOutAll unit depth nodes)
  | [] => inferInstanceAs (Decidable True)
  | child :: children =>
    have := decidableLaidOut unit (depth + 1) child
    have := decidableLaidOutAll unit depth children
    inferInstanceAs (Decidable (LaidOut unit (depth + 1) child ∧
      child.tail = some (lineBreak unit (if children.isEmpty then depth else depth + 1)) ∧
      LaidOutAll unit depth children))

end

instance (unit : String) (depth : Nat) (node : Node) : Decidable (LaidOut unit depth node) :=
  decidableLaidOut unit depth node

/-- The tail of a node belongs to its parent. -/
theorem laidOut_withTail {unit : String} {depth : Nat} {node : Node} (tail : Option String) :
    LaidOut unit depth { node with tail := tail } ↔ LaidOut unit depth node := by
  obtain ⟨label, text, children, old⟩ := node
  cases children <;> exact Iff.rfl

/-! ## Rows -/

section Rows

variable {p : Node → Prop} {inner outer : String} {nodes : List Node}

/-- Nodes with the property, each followed by `inner` and the last one by `outer`. -/
def Rows (p : Node → Prop) (inner outer : String) : List Node → Prop
  | [] => True
  | node :: nodes =>
    p node ∧ node.tail = some (if nodes.isEmpty then outer else inner) ∧ Rows p inner outer nodes

theorem Rows.all (h : Rows p inner outer nodes) : ∀ node ∈ nodes, p node := by
  induction nodes with
  | nil => simp
  | cons node nodes ih =>
    obtain ⟨hnode, -, hnodes⟩ := h
    exact List.forall_mem_cons.mpr ⟨hnode, ih hnodes⟩

theorem rows_and {q : Node → Prop} :
    Rows (fun node => p node ∧ q node) inner outer nodes ↔
      Rows p inner outer nodes ∧ ∀ node ∈ nodes, q node := by
  induction nodes with
  | nil => simp [Rows]
  | cons node nodes ih =>
    rw [Rows, Rows, ih, List.forall_mem_cons]
    constructor
    · rintro ⟨⟨hp, hq⟩, htail, hrows, hall⟩
      exact ⟨⟨hp, htail, hrows⟩, hq, hall⟩
    · rintro ⟨⟨hp, htail, hrows⟩, hq, hall⟩
      exact ⟨⟨hp, hq⟩, htail, hrows, hall⟩

/-- Rows in front of others. -/
theorem rows_append {front back : List Node} (hback : back ≠ []) :
    Rows p inner outer (front ++ back) ↔
      (∀ node ∈ front, p node ∧ node.tail = some inner) ∧ Rows p inner outer back := by
  induction front with
  | nil => simp
  | cons node front ih =>
    have hmore : (front ++ back).isEmpty = false := by simp [hback]
    rw [List.cons_append, Rows, ih, hmore, List.forall_mem_cons]
    simp [and_assoc]

theorem rows_append_singleton {front : List Node} {last : Node} :
    Rows p inner outer (front ++ [last]) ↔
      (∀ node ∈ front, p node ∧ node.tail = some inner) ∧ p last ∧ last.tail = some outer := by
  rw [rows_append (List.cons_ne_nil last [])]
  simp [Rows]

end Rows

theorem laidOutAll_iff {unit : String} {depth : Nat} {nodes : List Node} :
    LaidOutAll unit depth nodes ↔
      Rows (LaidOut unit (depth + 1)) (lineBreak unit (depth + 1)) (lineBreak unit depth)
        nodes := by
  induction nodes with
  | nil => exact Iff.rfl
  | cons node nodes ih =>
    rw [LaidOutAll, Rows, ih]
    cases nodes <;> exact Iff.rfl

/-- **A tree is laid out** when its children are rows of laid-out trees. -/
theorem laidOut_iff {unit : String} {depth : Nat} {node : Node} :
    LaidOut unit depth node ↔
      (node.children ≠ [] → node.text = some (lineBreak unit (depth + 1))) ∧
      Rows (LaidOut unit (depth + 1)) (lineBreak unit (depth + 1)) (lineBreak unit depth)
        node.children := by
  obtain ⟨label, text, children, tail⟩ := node
  rw [← laidOutAll_iff]
  cases children with
  | nil => simp [LaidOut, LaidOutAll]
  | cons child children => simp [LaidOut]

/-! ## Every node of a tree -/

theorem every_iff {P : Node → Prop} {node : Node} :
    node.Every P ↔ P node ∧ ∀ child ∈ node.children, child.Every P :=
  ⟨fun h => ⟨h.here, h.inside⟩, fun h => .intro h.1 h.2⟩

mutual

/-- A property of every node is decidable when the property is. -/
def decidableEvery {P : Node → Prop} [DecidablePred P] : (node : Node) → Decidable (node.Every P)
  | ⟨_, _, children, _⟩ =>
    have := decidableEveryAll (P := P) children
    decidable_of_iff _ every_iff.symm

/-- So is the property of every node of some trees. -/
def decidableEveryAll {P : Node → Prop} [DecidablePred P] :
    (nodes : List Node) → Decidable (∀ node ∈ nodes, node.Every P)
  | [] => .isTrue fun _ hnode => nomatch hnode
  | node :: nodes =>
    have := decidableEvery (P := P) node
    have := decidableEveryAll (P := P) nodes
    decidable_of_iff (node.Every P ∧ ∀ node ∈ nodes, node.Every P) List.forall_mem_cons.symm

end

instance {P : Node → Prop} [DecidablePred P] : DecidablePred (Node.Every P) :=
  decidableEvery

/-! ## Indentation -/

/-- A text that indentation replaces. -/
def BlankText (text : Option String) : Prop :=
  Text.allBlank (text.getD "") = true

instance (text : Option String) : Decidable (BlankText text) :=
  inferInstanceAs (Decidable (Text.allBlank (text.getD "") = true))

/-- The characters of an indentation are a line feed and those of the unit. -/
theorem forall_mem_lineBreak {p : Char → Prop} {unit : String} (hline : p '\n')
    (hunit : ∀ c ∈ unit.toList, p c) (depth : Nat) : ∀ c ∈ (lineBreak unit depth).toList, p c := by
  intro c hc
  unfold lineBreak at hc
  rw [String.toList_append, List.mem_append, String.toList_join] at hc
  rcases hc with hc | hc
  · rw [List.mem_singleton.mp hc]
    exact hline
  · obtain ⟨s, hs, hc⟩ := List.mem_flatMap.mp hc
    rw [List.eq_of_mem_replicate hs] at hc
    exact hunit c hc

theorem unlessBlank_of_blankText {text : Option String} (h : BlankText text)
    (replacement : String) : unlessBlank text replacement = some replacement := by
  cases text with
  | none => rfl
  | some s =>
    have hblank : Text.allBlank s = true := h
    simp [unlessBlank, hblank]

/-- Text that is not blank does not stand next to children that count. -/
def Parted (counts : Node → Bool) (node : Node) : Prop :=
  node.children.any counts = true →
    BlankText node.text ∧ ∀ child ∈ node.children, BlankText child.tail

instance (counts : Node → Bool) : DecidablePred (Parted counts) := fun node =>
  inferInstanceAs (Decidable (node.children.any counts = true →
    BlankText node.text ∧ ∀ child ∈ node.children, BlankText child.tail))

/-- Text stands next to no children at all. -/
def Unmixed (root : Node) : Prop :=
  root.Every (Parted fun _ => true)

instance : DecidablePred Unmixed := fun root =>
  inferInstanceAs (Decidable (root.Every (Parted fun _ => true)))

theorem Parted.of_mem {node child : Node} (h : Parted (fun _ => true) node)
    (hchild : child ∈ node.children) :
    BlankText node.text ∧ ∀ child ∈ node.children, BlankText child.tail :=
  h (List.any_eq_true.mpr ⟨child, hchild, rfl⟩)

theorem children_indented (unit : String) (depth : Nat) (node : Node) :
    (node.indented unit depth).children = indentedAll unit depth node.children := by
  obtain ⟨label, text, children, tail⟩ := node
  cases children <;> rfl

/-- Children that are indented, each with a tail that leads to the next tag. -/
theorem exists_of_mem_indentedAll {unit : String} {depth : Nat} {node : Node} {nodes : List Node}
    (h : node ∈ indentedAll unit depth nodes) :
    ∃ child ∈ nodes, ∃ after, node = { child.indented unit (depth + 1) with
      tail := unlessBlank child.tail (lineBreak unit after) } := by
  induction nodes with
  | nil => cases h
  | cons child nodes ih =>
    rcases List.mem_cons.mp h with rfl | hmem
    · exact ⟨child, List.mem_cons_self .., _, rfl⟩
    · obtain ⟨other, hother, hnode⟩ := ih hmem
      exact ⟨other, List.mem_cons_of_mem _ hother, hnode⟩

/-- **What indentation keeps**: a property that a node keeps when a blank text or tail of it is
replaced and its children are indented. -/
theorem every_indented {P : Node → Prop} {unit : String}
    (htail : ∀ node depth, P node →
      P { node with tail := unlessBlank node.tail (lineBreak unit depth) })
    (hinside : ∀ node depth, node.children ≠ [] → P node → P { node with
      text := unlessBlank node.text (lineBreak unit (depth + 1))
      children := indentedAll unit depth node.children })
    {node : Node} (h : node.Every P) (depth : Nat) : (node.indented unit depth).Every P := by
  induction h generalizing depth with
  | @intro node here inside ih =>
    refine .intro ?_ ?_
    · obtain ⟨label, text, children, tail⟩ := node
      cases children with
      | nil => exact here
      | cons child children => exact hinside _ depth (List.cons_ne_nil _ _) here
    · rw [children_indented]
      intro each heach
      obtain ⟨child, hchild, after, rfl⟩ := exists_of_mem_indentedAll heach
      have hindented := ih child hchild (depth + 1)
      have hsame : child.tail = (child.indented unit (depth + 1)).tail := by
        obtain ⟨label, text, children, tail⟩ := child
        cases children <;> rfl
      rw [hsame]
      exact .intro (htail _ after hindented.here) hindented.inside

theorem rows_indentedAll {p : Node → Prop} {unit : String} {depth : Nat} {nodes : List Node}
    (hp : ∀ node ∈ nodes, ∀ tail, p { node.indented unit (depth + 1) with tail := tail })
    (htails : ∀ node ∈ nodes, BlankText node.tail) :
    Rows p (lineBreak unit (depth + 1)) (lineBreak unit depth) (indentedAll unit depth nodes) := by
  induction nodes with
  | nil => trivial
  | cons node nodes ih =>
    obtain ⟨hnode, hnodes⟩ := List.forall_mem_cons.mp hp
    obtain ⟨htail, htails⟩ := List.forall_mem_cons.mp htails
    have hempty : (indentedAll unit depth nodes).isEmpty = nodes.isEmpty := by
      cases nodes <;> rfl
    refine ⟨hnode _, ?_, ih hnodes htails⟩
    rw [hempty]
    refine (unlessBlank_of_blankText htail _).trans ?_
    cases nodes <;> rfl

/-- **An unmixed tree that is indented** is laid out. -/
theorem laidOut_indented {unit : String} {depth : Nat} {node : Node} (h : Unmixed node) :
    LaidOut unit depth (node.indented unit depth) := by
  unfold Unmixed at h
  induction h generalizing depth with
  | @intro node here _ ih =>
    rw [laidOut_iff, children_indented]
    constructor
    · obtain ⟨label, text, children, tail⟩ := node
      cases children with
      | nil => exact fun hne => absurd rfl hne
      | cons child children =>
        intro _
        exact unlessBlank_of_blankText (here.of_mem (List.mem_cons_self ..)).1 _
    · refine rows_indentedAll (fun child hchild tail => ?_) fun child hchild => ?_
      · exact (laidOut_withTail tail).mpr (ih child hchild)
      · exact (here.of_mem hchild).2 child hchild

end Rollout.Xml
