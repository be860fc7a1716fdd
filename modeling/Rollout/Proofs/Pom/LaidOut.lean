import Rollout.Proofs.Pom.Names
import Rollout.Proofs.Pom.Sequence
import Rollout.Proofs.Pom.Units
import Rollout.Proofs.Xml.Layout

/-!
# Edits of laid-out documents

A document whose elements stand on lines of their own, indented by their depth, is one after every
edit, and shows the same unit of indentation.

- `PlainVersions`: version elements have no children, so that a version that is set does not stand
  next to one.
- `Tidy`: what an edit asks of the children of a node and leaves to the next edit.
- `Tidy.insertLast`, `Tidy.insertAfter`, `Tidy.modify`: **the ways a child is placed or changed**.
- `tidy_insertDependency`, `tidy_pin`, `tidy_configure?`: the edits.
- `Change`, `play`: edits in a row, where one that fails leaves the document.
- `play_laidOut`: **the layout is kept**; `not_laidOut_remark` says why a comment next to text in a
  fragment is left out.

The depth is part of the invariant: an element placed one level too deep would be laid out in
itself, but not in its parent.
-/

namespace Rollout.Pom

open Xml

/-! ## Rows that are edited -/

section Rows

variable {p : Node → Prop} {inner outer : String} {nodes : List Node} {f : Node → Node}

theorem isEmpty_modifyFirst (test : Node → Bool) (f : Node → Node) (nodes : List Node) :
    (modifyFirst test f nodes).isEmpty = nodes.isEmpty := by
  cases nodes with
  | nil => rfl
  | cons node nodes =>
    rw [modifyFirst]
    split <;> rfl

/-- The first match changed. -/
theorem rows_modifyFirst (h : Rows p inner outer nodes) {test : Node → Bool}
    (hf : ∀ node, test node = true → p node → p (f node))
    (htail : ∀ node, (f node).tail = node.tail) :
    Rows p inner outer (modifyFirst test f nodes) := by
  induction nodes with
  | nil => exact h
  | cons node nodes ih =>
    obtain ⟨hnode, hnodeTail, hnodes⟩ := h
    rw [modifyFirst]
    split
    case isTrue htest => exact ⟨hf node htest hnode, (htail node).trans hnodeTail, hnodes⟩
    case isFalse =>
      rw [← isEmpty_modifyFirst test f] at hnodeTail
      exact ⟨hnode, hnodeTail, ih hnodes⟩

/-- All nodes changed. -/
theorem rows_map (h : Rows p inner outer nodes) (hf : ∀ node, p node → p (f node))
    (htail : ∀ node, (f node).tail = node.tail) : Rows p inner outer (nodes.map f) := by
  induction nodes with
  | nil => exact h
  | cons node nodes ih =>
    obtain ⟨hnode, hnodeTail, hnodes⟩ := h
    rw [List.map_cons]
    refine ⟨hf node hnode, (htail node).trans ?_, ih hnodes⟩
    rwa [List.isEmpty_map]

/-- A row added in the middle. -/
theorem rows_insertIdx (h : Rows p inner outer nodes) {index : Nat} (hindex : index < nodes.length)
    {fresh : Node} (hfresh : p fresh) (htail : fresh.tail = some inner) :
    Rows p inner outer (nodes.insertIdx index fresh) := by
  have hback : nodes.drop index ≠ [] := by simpa using hindex
  rw [← List.take_append_drop index nodes, rows_append hback] at h
  obtain ⟨hfront, hrest⟩ := h
  rw [insertIdx_eq_take_append_drop fresh index nodes (Nat.le_of_lt hindex),
    rows_append (List.cons_ne_nil _ _)]
  refine ⟨hfront, hfresh, ?_, hrest⟩
  rw [htail, if_neg (by simpa using hback)]

end Rows

/-! ## Versions without children -/

/-- A version element has nothing but text. -/
def PlainVersion (node : Node) : Prop :=
  node.isNamed "version" = true → node.children = []

instance : DecidablePred PlainVersion := fun node =>
  inferInstanceAs (Decidable (node.isNamed "version" = true → node.children = []))

/-- No version element of the tree has children. Nothing is asked of what is inside a
configuration. -/
inductive PlainVersions : Node → Prop
  | configuration {node : Node} (named : node.isNamed "configuration" = true) : PlainVersions node
  | other {node : Node} (here : PlainVersion node)
      (inside : ∀ child ∈ node.children, PlainVersions child) : PlainVersions node

theorem plainVersions_of_every {root : Node} (h : root.Every PlainVersion) :
    PlainVersions root := by
  induction h with
  | intro here _ ih => exact .other here ih

theorem plainVersions_withTail {node : Node} (tail : Option String) (h : PlainVersions node) :
    PlainVersions { node with tail := tail } := by
  cases h with
  | configuration named => exact .configuration named
  | other here inside => exact .other here inside

/-- Indentation leaves names and children. -/
theorem plainVersions_indented {unit : String} {depth : Nat} {node : Node}
    (h : PlainVersions node) :
    PlainVersions (node.indented unit depth) := by
  have hnamed : ∀ (name : String) {node : Node} {depth : Nat},
      (node.indented unit depth).isNamed name = node.isNamed name := fun name _ _ =>
    isNamed_of_label (indented_label ..) name
  induction h generalizing depth with
  | configuration named => exact .configuration ((hnamed _).trans named)
  | @other node here inside ih =>
    refine .other (fun hversion => ?_) fun child hchild => ?_
    · rw [children_indented, here ((hnamed _).symm.trans hversion)]
      rfl
    · rw [children_indented] at hchild
      obtain ⟨old, hold, after, rfl⟩ := exists_of_mem_indentedAll hchild
      exact plainVersions_withTail _ (ih old hold)

/-! ## Tidy nodes -/

/-- The children of a node at `depth` stand on lines of their own, and their versions are plain. -/
structure Tidy (unit : String) (depth : Nat) (node : Node) : Prop where
  text : node.children ≠ [] → node.text = some (lineBreak unit (depth + 1))
  rows : Rows (fun child => LaidOut unit (depth + 1) child ∧ PlainVersions child)
    (lineBreak unit (depth + 1)) (lineBreak unit depth) node.children

namespace Tidy

variable {unit : String} {depth : Nat} {node : Node}

theorem laidOut (h : Tidy unit depth node) : LaidOut unit depth node :=
  laidOut_iff.mpr ⟨h.text, (rows_and.mp h.rows).1⟩

theorem of_laidOut (h : LaidOut unit depth node)
    (hplain : ∀ child ∈ node.children, PlainVersions child) : Tidy unit depth node := by
  obtain ⟨htext, hrows⟩ := laidOut_iff.mp h
  exact ⟨htext, rows_and.mpr ⟨hrows, hplain⟩⟩

/-- An element that is neither a version nor a configuration asks the same of its children as the
layout and the versions of the whole tree do. -/
theorem iff_of_named {name : String} (hnamed : node.isNamed name = true)
    (hname : name ∉ ["version", "configuration"]) :
    LaidOut unit depth node ∧ PlainVersions node ↔ Tidy unit depth node := by
  simp only [List.mem_cons, List.not_mem_nil, or_false, not_or] at hname
  have hversion := not_isNamed_of_ne hnamed hname.1
  have hconfiguration := not_isNamed_of_ne hnamed hname.2
  constructor
  · rintro ⟨hlaid, hplain⟩
    cases hplain with
    | configuration named =>
      rw [hconfiguration] at named
      exact absurd named Bool.false_ne_true
    | other _ inside => exact of_laidOut hlaid inside
  · intro h
    refine ⟨h.laidOut, .other (fun hnamed => ?_) (rows_and.mp h.rows).2⟩
    rw [hversion] at hnamed
    exact absurd hnamed Bool.false_ne_true

/-! ### Changed children -/

/-- **The first match among the children changed.** -/
theorem modify (h : Tidy unit depth node) {test : Node → Bool} {f : Node → Node}
    (hf : ∀ child, test child = true → LaidOut unit (depth + 1) child ∧ PlainVersions child →
      LaidOut unit (depth + 1) (f child) ∧ PlainVersions (f child))
    (htail : ∀ child, (f child).tail = child.tail) :
    Tidy unit depth { node with children := modifyFirst test f node.children } := by
  refine ⟨fun hne => h.text fun hnil => hne ?_, rows_modifyFirst h.rows hf htail⟩
  rw [hnil]
  rfl

/-- The first match changed inside. -/
theorem modifyInside (h : Tidy unit depth node) {test : Node → Bool} {f : Node → Node}
    {name : String} (htest : ∀ child, test child = true → child.isNamed name = true)
    (hname : name ∉ ["version", "configuration"]) (hplace : InPlace f)
    (hf : ∀ child, Tidy unit (depth + 1) child → Tidy unit (depth + 1) (f child)) :
    Tidy unit depth { node with children := modifyFirst test f node.children } := by
  refine h.modify (fun child hchild hboth => ?_) hplace.tail_eq
  have hnamed := htest child hchild
  have hafter : (f child).isNamed name = true :=
    (isNamed_of_label (hplace.label child) name).trans hnamed
  exact (iff_of_named hafter hname).mpr (hf child ((iff_of_named hnamed hname).mp hboth))

theorem changeChild (h : Tidy unit depth node) {name : String} {f : Node → Node}
    (hname : name ∉ ["version", "configuration"]) (hplace : InPlace f)
    (hf : ∀ child, Tidy unit (depth + 1) child → Tidy unit (depth + 1) (f child)) :
    Tidy unit depth (changeChild name f node) :=
  h.modifyInside (fun _ hnamed => hnamed) hname hplace hf

/-- All children of a name changed inside. -/
theorem mapInside (h : Tidy unit depth node) {f : Node → Node} {name : String}
    (hname : name ∉ ["version", "configuration"]) (hplace : InPlace f)
    (hf : ∀ child, Tidy unit (depth + 1) child → Tidy unit (depth + 1) (f child)) :
    Tidy unit depth { node with
      children := node.children.map fun child =>
        if child.isNamed name then f child else child } := by
  refine ⟨fun hne => h.text fun hnil => hne ?_, rows_map h.rows (fun child hboth => ?_) ?_⟩
  · rw [hnil]
    rfl
  · split
    case isTrue hnamed =>
      have hafter : (f child).isNamed name = true :=
        (isNamed_of_label (hplace.label child) name).trans hnamed
      exact (iff_of_named hafter hname).mpr (hf child ((iff_of_named hnamed hname).mp hboth))
    case isFalse => exact hboth
  · intro child
    split
    · exact hplace.tail_eq child
    · rfl

end Tidy

/-! ## Placing children -/

/-- A tree that can be placed: indentation lays it out, and its versions are plain. -/
structure Placeable (node : Node) : Prop where
  unmixed : Unmixed node
  plain : PlainVersions node

section Placing

variable {style : Style} {depth : Nat} {node child : Node}

/-- A tree that is placed is laid out where it stands. -/
theorem Placeable.indented (h : Placeable child) (tail : Option String) :
    LaidOut style.indent depth { child.indented style.indent depth with tail := tail } ∧
      PlainVersions { child.indented style.indent depth with tail := tail } :=
  ⟨(laidOut_withTail tail).mpr (laidOut_indented h.unmixed),
    plainVersions_withTail tail (plainVersions_indented h.plain)⟩

namespace Tidy

/-- **A child added at the end**, or as the only one. -/
theorem insertLast (h : Tidy style.indent depth node) (hchild : Placeable child) :
    Tidy style.indent depth (style.insertLast depth child node) := by
  unfold Style.insertLast
  dsimp only
  cases hlast : node.children.getLast? with
  | none => exact ⟨fun _ => rfl, hchild.indented _, rfl, trivial⟩
  | some last =>
    obtain ⟨front, hfront⟩ := List.getLast?_eq_some_iff.mp hlast
    have hrows := h.rows
    rw [hfront, rows_append_singleton] at hrows
    obtain ⟨hrest, hlastBoth, hlastTail⟩ := hrows
    have htext := h.text (by simp [hfront])
    refine ⟨fun _ => htext, ?_⟩
    -- the last child is followed by another one now, which takes over its tail
    rw [hfront, modifyLast_append_singleton]
    dsimp only
    rw [rows_append_singleton]
    refine ⟨fun other hother => ?_, hchild.indented _, hlastTail⟩
    rcases List.mem_append.mp hother with hmem | hmem
    · exact hrest other hmem
    · obtain rfl := List.mem_singleton.mp hmem
      exact ⟨⟨(laidOut_withTail _).mpr hlastBoth.1, plainVersions_withTail _ hlastBoth.2⟩, rfl⟩

/-- **A child added behind another one.** -/
theorem insertAfter (h : Tidy style.indent depth node) (hchild : Placeable child) (index : Nat) :
    Tidy style.indent depth (style.insertAfter depth index child node) := by
  unfold Style.insertAfter
  split
  case isTrue hlt =>
    have hne : node.children ≠ [] := List.ne_nil_of_length_pos (Nat.zero_lt_of_lt hlt)
    exact ⟨fun _ => h.text hne, rows_insertIdx h.rows hlt (hchild.indented _) rfl⟩
  case isFalse => exact h.insertLast hchild

end Tidy

/-! ### New elements -/

theorem placeable_newElement {name : String} {children : List Node} (hname : name ≠ "version")
    (hchildren : ∀ child ∈ children, Placeable child ∧ child.tail = none) :
    Placeable (style.newElement name children) := by
  constructor
  · refine .intro (fun _ => ⟨rfl, fun child hchild => ?_⟩) fun child hchild =>
      (hchildren child hchild).1.unmixed
    rw [(hchildren child hchild).2]
    rfl
  · refine .other (fun hnamed => ?_) fun child hchild => (hchildren child hchild).1.plain
    exact absurd (eq_of_beq hnamed) hname

theorem placeable_newTextElement (name : String) (text : Option String) :
    Placeable (style.newTextElement name text) :=
  ⟨.intro nofun nofun, .other (fun _ => rfl) nofun⟩

namespace Tidy

/-- **An edit inside a child**, which is added when missing. -/
theorem within (h : Tidy style.indent depth node) {name : String} {f : Node → Node}
    (hname : name ∉ ["version", "configuration"]) (hplace : InPlace f)
    (hf : ∀ child, Tidy style.indent (depth + 1) child → Tidy style.indent (depth + 1) (f child)) :
    Tidy style.indent depth (style.within depth name f node) := by
  refine Tidy.changeChild ?_ hname hplace hf
  unfold Style.withChild
  split
  · exact h
  · refine h.insertLast (placeable_newElement (fun hversion => hname ?_) nofun)
    rw [hversion]
    exact List.mem_cons_self ..

/-- **A version set**, in the version element there is or in a new one. -/
theorem setVersion (h : Tidy style.indent depth node) (value : String) :
    Tidy style.indent depth (setVersion value style depth node) := by
  unfold Pom.setVersion Style.withText
  split
  · refine h.modify (fun version hversion hboth => ?_) fun _ => rfl
    -- the element has no children that the new text could stand next to
    have hnil : version.children = [] := by
      cases hboth.2 with
      | configuration named =>
        have hother := not_isNamed_of_ne hversion (show "version" ≠ "configuration" by decide)
        rw [named] at hother
        cases hother
      | other here _ => exact here hversion
    refine ⟨laidOut_iff.mpr ⟨fun hne => absurd hnil hne, ?_⟩, .other (fun _ => hnil) ?_⟩
    · rw [show ({ version with text := some value } : Node).children = [] from hnil]
      trivial
    · rw [show ({ version with text := some value } : Node).children = [] from hnil]
      exact nofun
  · split
    · exact h.insertAfter (placeable_newTextElement _ _) _
    · exact h.insertLast (placeable_newTextElement _ _)

/-- **A configuration replaced**, or added. -/
theorem setConfiguration (h : Tidy style.indent depth node) {fragment : Node}
    (hfragment : Placeable (style.intoSpace fragment)) :
    Tidy style.indent depth (setConfiguration fragment style depth node) := by
  unfold Pom.setConfiguration Style.replaceChild
  split
  · exact h.modify (fun old _ _ => hfragment.indented old.tail) fun _ => rfl
  · exact h.insertLast hfragment

end Tidy

end Placing

/-! ## Fragments -/

theorem map_tail_mapLabelsAll (f : Label → Label) (nodes : List Node) :
    (Node.mapLabelsAll f nodes).map Node.tail = nodes.map Node.tail := by
  induction nodes with
  | nil => rfl
  | cons node nodes ih =>
    obtain ⟨label, text, children, tail⟩ := node
    rw [Node.mapLabelsAll, List.map_cons, List.map_cons, ih]
    rfl

/-- A fragment that is moved into a namespace keeps its texts. -/
theorem unmixed_intoSpace {style : Style} {fragment : Node} (h : Unmixed fragment) :
    Unmixed (style.intoSpace fragment) := by
  refine every_intoSpace h fun label text children tail hparted hany => ?_
  have htails := map_tail_mapLabelsAll style.labelIntoSpace children
  cases children with
  | nil => cases hany
  | cons child children =>
    obtain ⟨htext, hchildren⟩ := hparted.of_mem (List.mem_cons_self ..)
    refine ⟨htext, ?_⟩
    rw [← List.forall_mem_map (f := Node.tail) (P := BlankText)] at hchildren ⊢
    show ∀ tail ∈ (Node.mapLabelsAll style.labelIntoSpace (child :: children)).map Node.tail, _
    rwa [htails]

theorem placeable_intoSpace {style : Style} {fragment : Node}
    (hnamed : fragment.isNamed "configuration" = true) (h : Unmixed fragment) :
    Placeable (style.intoSpace fragment) :=
  ⟨unmixed_intoSpace h, .configuration ((isNamed_intoSpace ..).trans hnamed)⟩

/-! ## Edits -/

section Edits

variable {style : Style} {unit : String} {depth : Nat} {project : Node}

/-- A plugin changed inside. -/
theorem Tidy.changePlugin {owner : Node} (h : Tidy unit depth owner) {key : PluginKey}
    {f : Node → Node} (hplace : InPlace f)
    (hf : ∀ plugin, Tidy unit (depth + 3) plugin → Tidy unit (depth + 3) (f plugin)) :
    Tidy unit depth (changePlugin key f owner) := by
  refine h.changeChild (by decide) (inPlace_changeChild _ _) fun build hbuild => ?_
  refine hbuild.changeChild (by decide) (inPlace_children _) fun plugins hplugins => ?_
  refine hplugins.modifyInside (fun plugin hplugin => ?_)
    (show "plugin" ∉ ["version", "configuration"] by decide) hplace hf
  exact (Bool.and_eq_true_iff.mp hplugin).1

/-- A profile changed inside. -/
theorem Tidy.changeProfile (h : Tidy unit depth project) {test : Node → Bool} {f : Node → Node}
    (hplace : InPlace f)
    (hf : ∀ profile, Tidy unit (depth + 2) profile → Tidy unit (depth + 2) (f profile)) :
    Tidy unit depth (changeProfile test f project) := by
  refine h.changeChild (by decide) (inPlace_children _) fun block hblock => ?_
  refine hblock.modifyInside (fun profile hprofile => ?_)
    (show "profile" ∉ ["version", "configuration"] by decide) hplace hf
  exact (Bool.and_eq_true_iff.mp hprofile).1

/-- All profiles changed inside. -/
theorem Tidy.changeProfiles (h : Tidy unit depth project) {f : Node → Node} (hplace : InPlace f)
    (hf : ∀ profile, Tidy unit (depth + 2) profile → Tidy unit (depth + 2) (f profile)) :
    Tidy unit depth (changeProfiles f project) := by
  refine h.changeChild (by decide) (inPlace_children _) fun block hblock => ?_
  exact hblock.mapInside (by decide) hplace hf

/-- An entry added to a block below the root. -/
theorem tidy_insertEntry (h : Tidy style.indent 0 project) {block : String}
    (hblock : block ∉ ["version", "configuration"]) {entry : Node} (hentry : Placeable entry) :
    Tidy style.indent 0 (style.within 0 block (style.insertLast 1 entry) project) :=
  h.within hblock (inPlace_insertLast ..) fun _ hinner => hinner.insertLast hentry

theorem tidy_insertDependency (h : Tidy style.indent 0 project) (group artifact version : String) :
    Tidy style.indent 0 (insertDependency group artifact version style project) := by
  refine tidy_insertEntry h (by decide) (placeable_newElement (by decide) ?_)
  simp only [List.forall_mem_cons, List.not_mem_nil, false_implies, implies_true, and_true]
  exact ⟨⟨placeable_newTextElement _ _, rfl⟩, ⟨placeable_newTextElement _ _, rfl⟩,
    placeable_newTextElement _ _, rfl⟩

theorem tidy_insertProfile (h : Tidy style.indent 0 project) (id : String) :
    Tidy style.indent 0 (insertProfile id style project) := by
  refine tidy_insertEntry h (by decide) (placeable_newElement (by decide) ?_)
  exact List.forall_mem_singleton.mpr ⟨placeable_newTextElement _ _, rfl⟩

/-- A declaration of the deployment plugin can be placed. -/
theorem placeable_deployDeclaration (style : Style) : Placeable (deployDeclaration style) := by
  have hexecution : ∀ goal : String, Placeable (style.newElement "execution"
      [style.newTextElement "id" (some goal),
        style.newElement "goals" [style.newTextElement "goal" (some goal)]]) := by
    intro goal
    have hgoals : Placeable (style.newElement "goals" [style.newTextElement "goal" (some goal)]) :=
      placeable_newElement (by decide)
        (List.forall_mem_singleton.mpr ⟨placeable_newTextElement _ _, rfl⟩)
    refine placeable_newElement (by decide) ?_
    exact List.forall_mem_cons.mpr ⟨⟨placeable_newTextElement _ _, rfl⟩,
      List.forall_mem_singleton.mpr ⟨hgoals, rfl⟩⟩
  refine placeable_newElement (by decide) ?_
  simp only [List.forall_mem_cons, List.not_mem_nil, false_implies, implies_true, and_true]
  refine ⟨⟨placeable_newTextElement _ _, rfl⟩, ⟨placeable_newTextElement _ _, rfl⟩, ?_, rfl⟩
  refine placeable_newElement (by decide) fun child hchild => ?_
  obtain ⟨goal, -, rfl⟩ := List.mem_map.mp hchild
  exact ⟨hexecution goal, rfl⟩

theorem tidy_declareHost (h : Tidy style.indent 0 project) :
    Tidy style.indent 0 (declareHost style project) := by
  have hprepared : Tidy style.indent 0 (if (profileOf? deployProfile project).isSome then project
      else insertProfile deployProfile style project) := by
    split
    · exact h
    · exact tidy_insertProfile h _
  refine hprepared.changeProfile (inPlace_insertPlugin _ style) fun profile hprofile => ?_
  refine hprofile.within (by decide) (inPlace_within ..) fun build hbuild => ?_
  refine hbuild.within (by decide) (inPlace_insertLast ..) fun plugins hplugins => ?_
  exact hplugins.insertLast (placeable_deployDeclaration style)

/-- **A pin.** -/
theorem tidy_pin (h : Tidy style.indent 0 project) (value : String) :
    Tidy style.indent 0 (pin value style project) := by
  have hhosted : Tidy style.indent 0 (if (hosting deployPlugin project).isEmpty then
      declareHost style project else project) := by
    split
    · exact tidy_declareHost h
    · exact h
  unfold pin
  dsimp only
  generalize (if (hosting deployPlugin project).isEmpty then declareHost style project
    else project) = hosted at hhosted ⊢
  split
  · exact hhosted.changePlugin (inPlace_setVersion value style 3) fun _ hplugin =>
      hplugin.setVersion value
  · refine hhosted.changeProfiles (inPlace_changePlugin ..) fun _ hprofile => ?_
    exact hprofile.changePlugin (inPlace_setVersion value style 5) fun _ hplugin =>
      hplugin.setVersion value

/-- **A configuration.** -/
theorem tidy_configure? (h : Tidy style.indent 0 project) {fragment after : Node}
    (hnamed : fragment.isNamed "configuration" = true) (hunmixed : Unmixed fragment)
    (hafter : configure? fragment style project = some after) : Tidy style.indent 0 after := by
  unfold configure? at hafter
  split at hafter
  · cases hafter
  · cases hafter
    refine h.changeProfile (inPlace_changePlugin ..) fun _ hprofile => ?_
    exact hprofile.changePlugin (inPlace_setConfiguration fragment style 5) fun _ hplugin =>
      hplugin.setConfiguration (placeable_intoSpace hnamed hunmixed)

end Edits

/-! ## Edits in a row -/

/-- A change of a project: an edit, or a profile that is added. -/
inductive Change
  | edit (request : Edit)
  | profile (id : String)

/-- The project after a change; an edit that fails leaves it. -/
def Change.perform (style : Style) (project : Node) : Change → Node
  | .edit request => (request.perform? style project).getD project
  | .profile id => insertProfile id style project

/-- A fragment that is set is a configuration in which no text stands next to children. -/
def Change.Unmixed : Change → Prop
  | .edit (.configure fragment) => fragment.isNamed "configuration" = true ∧ Xml.Unmixed fragment
  | _ => True

/-- The project after changes in a row, each in a style taken from the project it finds. -/
def play (style : Node → Style) (changes : List Change) (project : Node) : Node :=
  changes.foldl (fun tree change => change.perform (style tree) tree) project

section Play

variable {unit : String} {project : Node}

/-- **One change** keeps the layout and the unit that the project shows. -/
theorem tidy_perform {style : Style} (hstyle : style.indent = unit) (h : Tidy unit 0 project)
    (hunit : indentUnit project = unit) {change : Change} (hchange : change.Unmixed) :
    Tidy unit 0 (change.perform style project) ∧
      indentUnit (change.perform style project) = unit := by
  subst hstyle
  cases change with
  | profile id => exact ⟨tidy_insertProfile h id, (indentUnit_within hunit.symm _ _).trans hunit⟩
  | edit request =>
    cases request with
    | pin value => exact ⟨tidy_pin h value, (indentUnit_pin hunit.symm value).trans hunit⟩
    | dependency group artifact version =>
      exact ⟨tidy_insertDependency h group artifact version,
        (indentUnit_within hunit.symm _ _).trans hunit⟩
    | configure fragment =>
      obtain ⟨hnamed, hunmixed⟩ := hchange
      show Tidy _ 0 ((configure? fragment style project).getD project) ∧
        indentUnit ((configure? fragment style project).getD project) = _
      cases hafter : configure? fragment style project with
      | none => exact ⟨h, hunit⟩
      | some after =>
        refine ⟨tidy_configure? h hnamed hunmixed hafter, ?_⟩
        unfold configure? at hafter
        split at hafter
        · cases hafter
        · cases hafter
          exact (indentUnit_congr rfl).trans hunit

/-- **Changes in a row**, whatever namespaces their styles say. -/
theorem tidy_play {style : Node → Style}
    (hstyle : ∀ tree, indentUnit tree = unit → (style tree).indent = unit)
    {changes : List Change} (hchanges : ∀ change ∈ changes, change.Unmixed)
    (h : Tidy unit 0 project) (hunit : indentUnit project = unit) :
    Tidy unit 0 (play style changes project) ∧
      indentUnit (play style changes project) = unit := by
  induction changes generalizing project with
  | nil => exact ⟨h, hunit⟩
  | cons change changes ih =>
    obtain ⟨hchange, hrest⟩ := List.forall_mem_cons.mp hchanges
    obtain ⟨hafter, hafterUnit⟩ := tidy_perform (hstyle project hunit) h hunit hchange
    exact ih hrest hafter hafterUnit

end Play

/-! ## Main statement -/

/-- **The layout is kept.** A project with children that is laid out with a unit of spaces and tabs,
and whose version elements have nothing but text, shows this unit. After any changes, where no text
of a configuration stands next to children, it is laid out with the unit and shows it: in the style
that every change finds, and in the one that was found at the start. -/
theorem play_laidOut {unit : String} (hne : unit ≠ "")
    (hunit : ∀ c ∈ unit.toList, c = ' ' ∨ c = '\t') {project : Node}
    (hchildren : project.children ≠ []) (hlaid : LaidOut unit 0 project)
    (hplain : project.Every PlainVersion) {changes : List Change}
    (hchanges : ∀ change ∈ changes, change.Unmixed) :
    indentUnit project = unit ∧
    ∀ style ∈ [styleOf, fun _ => styleOf project], ∀ done, done <+: changes →
      LaidOut unit 0 (play style done project) ∧ indentUnit (play style done project) = unit := by
  have hblank : Text.allBlank unit = true := by
    refine List.all_eq_true.mpr fun c hc => ?_
    rcases hunit c hc with rfl | rfl <;> decide
  have hline : '\n' ∉ unit.toList := by
    intro hmem
    rcases hunit _ hmem with h | h <;> cases h
  have hfound : indentUnit project = unit :=
    indentUnit_of_lineBreak hne hline hblank ((laidOut_iff.mp hlaid).1 hchildren)
  have htidy : Tidy unit 0 project :=
    .of_laidOut hlaid fun child hchild => plainVersions_of_every (hplain.inside child hchild)
  refine ⟨hfound, fun style hstyle done hdone => ?_⟩
  have hsame : ∀ tree, indentUnit tree = unit → (style tree).indent = unit := by
    intro tree htree
    simp only [List.mem_cons, List.not_mem_nil, or_false] at hstyle
    obtain rfl | rfl := hstyle
    · exact htree
    · exact hfound
  obtain ⟨hafter, hafterUnit⟩ :=
    tidy_play hsame (fun change hchange => hchanges change (hdone.subset hchange)) htidy hfound
  exact ⟨hafter.laidOut, hafterUnit⟩

/-- A project with a profile that declares the deployment plugin, laid out. -/
def laidProject : Node :=
  let leaf (name text : String) : Node := Node.element ⟨"", name⟩ (some text) []
  let block (name : String) (children : List Node) : Node := Node.element ⟨"", name⟩ none children
  (block "project" [block "profiles" [block "profile" [leaf "id" "openshift",
    block "build" [block "plugins" [block "plugin" [leaf "groupId" "io.fabric8",
      leaf "artifactId" "fabric8-maven-plugin"]]]]]]).indented "  " 0

/-- It is laid out after a profile, a dependency, a version and a configuration. -/
theorem play_laidOut_laidProject :
    let configuration := Node.element ⟨"", "configuration"⟩ none
      [Node.element ⟨"", "mode"⟩ (some "on") []]
    let changes : List Change := [.profile "ci", .edit (.dependency "g" "a" "1"),
      .edit (.pin "3.5"), .edit (.configure configuration)]
    LaidOut "  " 0 laidProject ∧ LaidOut "  " 0 (play styleOf changes laidProject) := by
  intro configuration changes
  have hlaid : LaidOut "  " 0 laidProject := by decide +kernel
  have hchanges : ∀ change ∈ changes, change.Unmixed := by
    have hconfiguration : Xml.Unmixed configuration := by decide
    simp only [changes, List.forall_mem_cons, List.not_mem_nil, false_implies, implies_true,
      and_true]
    exact ⟨trivial, trivial, trivial, rfl, hconfiguration⟩
  have hunit : "  " ≠ "" ∧ ∀ c ∈ "  ".toList, c = ' ' ∨ c = '\t' :=
    ⟨by decide, fun c hc => .inl (List.eq_of_mem_replicate (n := 2) hc)⟩
  have hchildren : laidProject.children ≠ [] := List.cons_ne_nil _ _
  have hplain : laidProject.Every PlainVersion := by decide +kernel
  obtain ⟨-, hplayed⟩ := play_laidOut hunit.1 hunit.2 hchildren hlaid hplain hchanges
  exact ⟨hlaid, (hplayed styleOf (List.mem_cons_self ..) changes (List.prefix_refl _)).1⟩

/-- A configuration with a comment behind the text of an element. -/
def remarkFragment : Node :=
  Node.element ⟨"", "configuration"⟩ none
    [Node.element ⟨"", "mode"⟩ (some "on") [⟨.comment, some "default", [], none⟩]]

/-- **Text next to a comment** stays where it is, although it does not stand next to an element. -/
theorem not_laidOut_remark :
    laidProject.children ≠ [] ∧ LaidOut "  " 0 laidProject ∧ laidProject.Every PlainVersion ∧
    remarkFragment.isNamed "configuration" = true ∧
    remarkFragment.Every (Parted fun child => child.name?.isSome) ∧
    ¬ LaidOut "  " 0 (play styleOf [.edit (.configure remarkFragment)] laidProject) := by
  refine ⟨List.cons_ne_nil _ _, ?_, ?_, rfl, ?_, ?_⟩ <;> decide +kernel

end Rollout.Pom
