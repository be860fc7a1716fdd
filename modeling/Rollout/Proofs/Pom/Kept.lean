import Rollout.Proofs.Pom.Children
import Rollout.Proofs.Xml.Tree

/-!
# Nodes before and after an edit

What it means that an edit destroys nothing that it is not about.

- `Kept`, `KeptAll`: a node, or a list of children, before and after an edit. Old children keep
  their order and their labels, new ones may stand between them, and the text inside a node changes
  only where it receives a child or where it is the pinned version of the deployment plugin.
- `Framed`: a whole tree before and after.
- `AtOne`: two trees that differ in one subtree only.
- `Kept.trans`: two edits in a row; `AtOne.kept`: an edit at one place.

The text of a node stands directly inside it: before its first child and, as tails, behind each of
its children. So the tail of a child belongs to the text of its parent.
-/

namespace Rollout.Pom

open Xml

/-! ## Texts and namespaces -/

/-- The pieces of text directly inside a node that are not blank, in order. -/
def directWords (node : Node) : List String :=
  (node.text :: node.children.map Node.tail).filterMap fun text =>
    text.filter fun s => !Text.allBlank s

/-- Whether every element of a tree is in a namespace. -/
def InSpace (space : String) (node : Node) : Prop :=
  ∀ label ∈ node.labels, ∀ name, label.name? = some name → name.space = space

/-! ## Kept nodes -/

/-- The key of a plugin element; nothing for any other node. -/
def ownKey (node : Node) : Option PluginKey :=
  if node.isNamed "plugin" then some (pluginKey node) else none

theorem isSome_ownKey (node : Node) : (ownKey node).isSome = node.isNamed "plugin" := by
  unfold ownKey
  cases node.isNamed "plugin" <;> rfl

theorem isSome_ownKey_of_label {a b : Node} (h : b.label = a.label) :
    (ownKey a).isSome = (ownKey b).isSome := by
  rw [isSome_ownKey, isSome_ownKey, isNamed_of_label h]

mutual

/-- A node before and after an edit, its tail aside. `made` says which children are new, `pinned`
which version the edit sets, and `owner` is the key of the plugin that the node is a child of, as it
is after the edit; there is none if the node is a child of anything else. -/
inductive Kept (made : Node → Prop) (pinned : Option String) :
    Option PluginKey → Node → Node → Prop
  /-- The same children, each with its tail, and the same text. -/
  | still {owner : Option PluginKey} {before after : Node} (label : after.label = before.label)
      (text : after.text = before.text)
      (tails : after.children.map Node.tail = before.children.map Node.tail)
      (children : KeptAll made pinned (ownKey after) before.children after.children) :
      Kept made pinned owner before after
  /-- The version of the deployment plugin with its text set. -/
  | version {before after : Node} {value : String} (pins : pinned = some value)
      (named : before.isNamed "version" = true) (label : after.label = before.label)
      (text : after.text = some value)
      (tails : after.children.map Node.tail = before.children.map Node.tail)
      (children : KeptAll made pinned (ownKey after) before.children after.children) :
      Kept made pinned (some deployPlugin) before after
  /-- A container with new children. If it had a child before, it says the same words. -/
  | container {owner : Option PluginKey} {before after : Node}
      (noVersion : (owner.isSome && before.isNamed "version") = false)
      (label : after.label = before.label)
      (more : before.children.length < after.children.length)
      (words : before.children ≠ [] → directWords after = directWords before)
      (children : KeptAll made pinned (ownKey after) before.children after.children) :
      Kept made pinned owner before after

/-- Children before and after an edit: the old ones in order, and new ones between them. -/
inductive KeptAll (made : Node → Prop) (pinned : Option String) :
    Option PluginKey → List Node → List Node → Prop
  | nil {owner : Option PluginKey} : KeptAll made pinned owner [] []
  | old {owner : Option PluginKey} {before after : Node} {befores afters : List Node}
      (first : Kept made pinned owner before after)
      (rest : KeptAll made pinned owner befores afters) :
      KeptAll made pinned owner (before :: befores) (after :: afters)
  | new {owner : Option PluginKey} {fresh : Node} {befores afters : List Node} (first : made fresh)
      (rest : KeptAll made pinned owner befores afters) :
      KeptAll made pinned owner befores (fresh :: afters)

end

variable {made : Node → Prop} {pinned : Option String} {owner : Option PluginKey}

theorem Kept.label {before after : Node} (h : Kept made pinned owner before after) :
    after.label = before.label := by
  cases h with
  | still label => exact label
  | version _ _ label => exact label
  | container _ label => exact label

theorem Kept.children {before after : Node} (h : Kept made pinned owner before after) :
    KeptAll made pinned (ownKey after) before.children after.children := by
  cases h with
  | still _ _ _ children => exact children
  | version _ _ _ _ _ children => exact children
  | container _ _ _ _ children => exact children

/-- Own tails do not matter. -/
theorem Kept.withTail {before after : Node} (h : Kept made pinned owner before after)
    (tail : Option String) : Kept made pinned owner before { after with tail := tail } := by
  cases h with
  | still label text tails children => exact .still label text tails children
  | version pins named label text tails children =>
    exact .version pins named label text tails children
  | container noVersion label more words children =>
    exact .container noVersion label more words children

mutual

theorem Kept.refl (owner : Option PluginKey) : (node : Node) → Kept made pinned owner node node
  | ⟨_, _, children, _⟩ => .still rfl rfl rfl (KeptAll.refl _ children)

theorem KeptAll.refl (owner : Option PluginKey) : (nodes : List Node) →
    KeptAll made pinned owner nodes nodes
  | [] => .nil
  | node :: nodes => .old (Kept.refl _ node) (KeptAll.refl _ nodes)

end

/-! ## Two edits in a row -/

theorem length_eq_of_tails {before after : List Node}
    (h : after.map Node.tail = before.map Node.tail) : after.length = before.length := by
  simpa using congrArg List.length h

theorem directWords_congr {a b : Node} (htext : b.text = a.text)
    (htails : b.children.map Node.tail = a.children.map Node.tail) :
    directWords b = directWords a := by
  unfold directWords
  rw [htext, htails]

theorem ne_nil_of_length_eq {a b : List Node} (hlength : b.length = a.length) (h : a ≠ []) :
    b ≠ [] := by
  rw [← List.length_pos_iff] at h ⊢
  omega

/-- Two steps at one node. The first one pins no version, so that no version is both pinned and
given a child. -/
theorem Kept.trans_of_children {owner' : Option PluginKey} {a b c : Node}
    (howner : owner'.isSome = owner.isSome) (h₁ : Kept made none owner' a b)
    (h₂ : Kept made pinned owner b c)
    (children : KeptAll made pinned (ownKey c) a.children c.children) :
    Kept made pinned owner a c := by
  have hname := isNamed_of_label h₁.label
  cases h₁ with
  | version pins => cases pins
  | still label text tails _ =>
    have hlength := length_eq_of_tails tails
    cases h₂ with
    | still label' text' tails' _ =>
      exact .still (label'.trans label) (text'.trans text) (tails'.trans tails) children
    | version pins named label' text' tails' _ =>
      exact .version pins (hname _ ▸ named) (label'.trans label) text' (tails'.trans tails) children
    | container noVersion label' more words _ =>
      refine .container (hname _ ▸ noVersion) (label'.trans label) (hlength ▸ more)
        (fun hne => ?_) children
      -- `a` and `b` have the same texts, so the words of `b` are those of `a`
      rw [words (ne_nil_of_length_eq hlength hne), directWords_congr text tails]
  | container noVersion label more words _ =>
    rw [howner] at noVersion
    cases h₂ with
    | still label' text' tails' _ =>
      have hlength := length_eq_of_tails tails'
      refine .container noVersion (label'.trans label) (hlength ▸ more) (fun hne => ?_) children
      rw [directWords_congr text' tails', words hne]
    | version _ named =>
      -- a container is no version of a plugin, so the second step does not pin it
      rw [hname] at named
      rw [named] at noVersion
      exact absurd noVersion (by decide)
    | container _ label' more' words' _ =>
      refine .container noVersion (label'.trans label) (Nat.lt_trans more more')
        (fun hne => ?_) children
      have hlength := List.length_pos_iff.mpr hne
      rw [words' (List.length_pos_iff.mp (by omega)), words hne]

mutual

/-- **Two edits in a row** keep what both keep, when an edit of a new child leaves it new. -/
theorem Kept.trans (hmade : ∀ {owner before after}, made before →
      Kept made pinned owner before after → made after) {owner owner' : Option PluginKey}
    (howner : owner'.isSome = owner.isSome) {a b : Node} :
    (c : Node) → Kept made none owner' a b → Kept made pinned owner b c → Kept made pinned owner a c
  | ⟨_, _, children, _⟩, h₁, h₂ =>
    h₁.trans_of_children howner h₂ <|
      KeptAll.trans hmade (isSome_ownKey_of_label h₂.label) children h₁.children h₂.children

theorem KeptAll.trans (hmade : ∀ {owner before after}, made before →
      Kept made pinned owner before after → made after) {owner owner' : Option PluginKey}
    (howner : owner'.isSome = owner.isSome) {as bs : List Node} :
    (cs : List Node) → KeptAll made none owner' as bs → KeptAll made pinned owner bs cs →
      KeptAll made pinned owner as cs
  | [], h₁, h₂ => by
    cases h₂
    cases h₁
    exact .nil
  | c :: cs, h₁, h₂ => by
    cases h₂ with
    | new first rest => exact .new first (KeptAll.trans hmade howner cs h₁ rest)
    | old first rest =>
      cases h₁ with
      | old first' rest' =>
        exact .old (Kept.trans hmade howner c first' first)
          (KeptAll.trans hmade howner cs rest' rest)
      | new first' rest' =>
        exact .new (hmade first' first) (KeptAll.trans hmade howner cs rest' rest)

end

/-! ## Whole trees -/

/-- A whole tree before and after an edit. -/
structure Framed (made : Node → Prop) (pinned : Option String) (before after : Node) : Prop where
  tail : after.tail = before.tail
  kept : Kept made pinned none before after

/-- Two trees that differ in one subtree, where `R` relates the two. -/
inductive AtOne (R : Node → Node → Prop) : Node → Node → Prop
  | here {before after : Node} (related : R before after) : AtOne R before after
  | inside {node before after : Node} {front back : List Node}
      (children : node.children = front ++ before :: back) (inner : AtOne R before after) :
      AtOne R node { node with children := front ++ after :: back }

/-! ## New elements -/

theorem inSpace_iff {space : String} {node : Node} : InSpace space node ↔
    (∀ name, node.name? = some name → name.space = space) ∧
      ∀ child ∈ node.children, InSpace space child := by
  constructor
  · intro h
    exact ⟨h node.label (Node.mem_labels.mpr (.inl rfl)), fun child hc label hl =>
      h label (Node.mem_labels.mpr (.inr ⟨child, hc, hl⟩))⟩
  · rintro ⟨hnode, hchildren⟩ label hl
    rcases Node.mem_labels.mp hl with rfl | ⟨child, hc, hl⟩
    · exact hnode
    · exact hchildren child hc label hl

/-- A new element of the document keeps its place among the others. -/
theorem inSpace_place {space : String} {node : Node} (h : InSpace space node) (unit : String)
    (depth : Nat) (tail : Option String) :
    InSpace space { node.indented unit depth with tail := tail } := by
  unfold InSpace
  rw [Node.labels_withTail, labels_indented]
  exact h

mutual

/-- What an edit makes of a new element is new. -/
theorem InSpace.kept {space : String} {owner : Option PluginKey} {before : Node} : (after : Node) →
    InSpace space before → Kept (InSpace space) pinned owner before after → InSpace space after
  | ⟨label, text, children, tail⟩, hbefore, h => by
    have hlabel : label = before.label := h.label
    refine inSpace_iff.mpr ⟨?_, InSpace.keptAll children (inSpace_iff.mp hbefore).2 h.children⟩
    show ∀ name, label.name? = some name → name.space = space
    rw [hlabel]
    exact (inSpace_iff.mp hbefore).1

theorem InSpace.keptAll {space : String} {owner : Option PluginKey} {befores : List Node} :
    (afters : List Node) → (∀ before ∈ befores, InSpace space before) →
      KeptAll (InSpace space) pinned owner befores afters → ∀ after ∈ afters, InSpace space after
  | [], _, _ => fun _ hmem => nomatch hmem
  | after :: afters, hbefores, h => by
    refine List.forall_mem_cons.mpr ?_
    cases h with
    | new first rest => exact ⟨first, InSpace.keptAll afters hbefores rest⟩
    | old first rest =>
      obtain ⟨hbefore, hbefores⟩ := List.forall_mem_cons.mp hbefores
      exact ⟨InSpace.kept after hbefore first, InSpace.keptAll afters hbefores rest⟩

end

/-- Two edits in a row whose new elements are in one namespace. -/
theorem Kept.trans_inSpace {space : String} {a b c : Node}
    (h₁ : Kept (InSpace space) none owner a b) (h₂ : Kept (InSpace space) pinned owner b c) :
    Kept (InSpace space) pinned owner a c :=
  Kept.trans (fun hmade hkept => InSpace.kept _ hmade hkept) rfl c h₁ h₂

/-! ## Lists of children -/

theorem KeptAll.append {befores befores' : List Node} {afters' : List Node} :
    {afters : List Node} → KeptAll made pinned owner befores afters →
      KeptAll made pinned owner befores' afters' →
      KeptAll made pinned owner (befores ++ befores') (afters ++ afters')
  | [], h, h' => by
    cases h
    exact h'
  | _ :: _, h, h' => by
    cases h with
    | old first rest => exact .old first (KeptAll.append rest h')
    | new first rest => exact .new first (KeptAll.append rest h')

/-- An edit of the first match keeps all when it keeps that one. -/
theorem keptAll_modifyFirst {test : Node → Bool} {f : Node → Node} :
    (nodes : List Node) →
      (∀ node ∈ nodes, test node = true → Kept made pinned owner node (f node)) →
      KeptAll made pinned owner nodes (modifyFirst test f nodes)
  | [], _ => .nil
  | node :: nodes, h => by
    rw [modifyFirst]
    split
    case isTrue ht => exact .old (h node (List.mem_cons_self ..) ht) (KeptAll.refl _ nodes)
    case isFalse =>
      exact .old (Kept.refl _ node)
        (keptAll_modifyFirst nodes fun n hn => h n (List.mem_cons_of_mem _ hn))

theorem keptAll_map {f : Node → Node} :
    (nodes : List Node) → (∀ node ∈ nodes, Kept made pinned owner node (f node)) →
      KeptAll made pinned owner nodes (nodes.map f)
  | [], _ => .nil
  | node :: nodes, h => .old (h node (List.mem_cons_self ..))
      (keptAll_map nodes fun n hn => h n (List.mem_cons_of_mem _ hn))

/-! ## An edit at one place -/

namespace AtOne

variable {R S T : Node → Node → Prop} {before after : Node}

/-- The place inside the place. -/
theorem join (h : AtOne (AtOne R) before after) : AtOne R before after := by
  induction h with
  | here related => exact related
  | inside children _ ih => exact .inside children ih

theorem or (h : AtOne R before after) (hR : ∀ {old new}, R old new → S old new ∨ T old new) :
    AtOne S before after ∨ AtOne T before after := by
  induction h with
  | here related =>
    rcases hR related with hS | hT
    · exact .inl (.here hS)
    · exact .inr (.here hT)
  | inside children _ ih =>
    rcases ih with ih | ih
    · exact .inl (.inside children ih)
    · exact .inr (.inside children ih)

/-- **An edit at one place** keeps the tree when it keeps the subtree. -/
theorem framed (h : AtOne (fun old new => new.tail = old.tail ∧
    ∀ owner, Kept made pinned owner old new) before after) :
    after.tail = before.tail ∧ ∀ owner, Kept made pinned owner before after := by
  induction h with
  | here related => exact related
  | @inside node before after front back children _ ih =>
    obtain ⟨htail, hkept⟩ := ih
    refine ⟨rfl, fun owner => .still rfl rfl ?_ ?_⟩
    · rw [children]
      simp [htail]
    · rw [children]
      exact KeptAll.append (KeptAll.refl _ front) (.old (hkept _) (KeptAll.refl _ back))

end AtOne

end Rollout.Pom
