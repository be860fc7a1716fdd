import Rollout.Pom.Descriptor
import Rollout.Proofs.Pom.Kept
import Rollout.Proofs.Pom.Outline
import Rollout.Proofs.Xml.Layout

/-!
# What edits leave alone

The frame law of the edits of a descriptor: whatever stood in the tree still stands in it.

- `styleOf`: the style of a document, which the edits of its tree follow.
- `kept_insertLast`, `kept_insertAfter`, `kept_within`: placing a child keeps the parent.
- `Stamp`, `Restamps`: the configuration that a fragment becomes, and the one it replaces.
- `edits_frame`: **the frame law** of adding a dependency, adding a profile, pinning a version and
  replacing a configuration.

New text is indentation, which is blank. So a container that had a child keeps its words, although
its last child hands over its tail to the new one.
-/

namespace Rollout.Pom

open Xml

/-! ## Blank indentation -/

theorem mem_of_mem_splitChars {sep c : Char} {piece : List Char} :
    ∀ {cs : List Char}, piece ∈ Text.splitChars sep cs → c ∈ piece → c ∈ cs
  | [], hpiece, hc => by
    rw [Text.splitChars_nil, List.mem_singleton] at hpiece
    rw [hpiece] at hc
    exact hc
  | head :: cs, hpiece, hc => by
    rw [Text.splitChars] at hpiece
    split at hpiece
    · rcases List.mem_cons.mp hpiece with rfl | hpiece
      · cases hc
      · exact List.mem_cons_of_mem _ (mem_of_mem_splitChars hpiece hc)
    · split at hpiece
      case h_1 first rest hsplit =>
        rcases List.mem_cons.mp hpiece with rfl | hpiece
        · rcases List.mem_cons.mp hc with rfl | hc
          · exact List.mem_cons_self ..
          · exact List.mem_cons_of_mem _
              (mem_of_mem_splitChars (hsplit ▸ List.mem_cons_self ..) hc)
        · exact List.mem_cons_of_mem _
            (mem_of_mem_splitChars (hsplit ▸ List.mem_cons_of_mem _ hpiece) hc)
      case h_2 =>
        rw [List.mem_singleton] at hpiece
        rw [hpiece, List.mem_singleton] at hc
        rw [hc]
        exact List.mem_cons_self ..

theorem forall_mem_afterLast {p : Char → Prop} {sep : Char} {text : String}
    (h : ∀ c ∈ text.toList, p c) : ∀ c ∈ (Text.afterLast sep text).toList, p c := by
  unfold Text.afterLast Text.splitOn
  cases hlast : ((Text.splitChars sep text.toList).map String.ofList).getLast? with
  | none => exact h
  | some last =>
    obtain ⟨piece, hpiece, rfl⟩ := List.mem_map.mp (List.mem_of_getLast? hlast)
    rw [Option.getD_some, String.toList_ofList]
    exact fun c hc => h c (mem_of_mem_splitChars hpiece hc)

/-- The unit of indentation that a document shows consists of characters of its first text. -/
theorem forall_mem_indentUnit {p : Char → Prop} {root : Node} (hspace : p ' ')
    (h : ∀ c ∈ (root.text.getD "").toList, p c) : ∀ c ∈ (indentUnit root).toList, p c := by
  have hdefault : ∀ c ∈ defaultIndent.toList, p c := by
    have hspaces : defaultIndent.toList = [' ', ' '] := by decide
    rw [hspaces]
    simp [hspace]
  unfold indentUnit
  dsimp only
  split
  case isFalse => exact hdefault
  case isTrue =>
    split
    · exact hdefault
    · exact forall_mem_afterLast h

/-- The unit of indentation that a document shows is blank. -/
theorem allBlank_indentUnit (root : Node) : Text.allBlank (indentUnit root) = true := by
  have hdefault : Text.allBlank defaultIndent = true := by decide
  unfold indentUnit
  dsimp only
  split
  case isFalse => exact hdefault
  case isTrue h =>
    split
    · exact hdefault
    · exact List.all_eq_true.mpr
        (forall_mem_afterLast (List.all_eq_true.mp (Bool.and_eq_true_iff.mp h).1))

/-- Indentation is blank. -/
theorem allBlank_lineBreak {unit : String} (h : Text.allBlank unit = true) (depth : Nat) :
    Text.allBlank (lineBreak unit depth) = true :=
  List.all_eq_true.mpr (forall_mem_lineBreak (by decide) (List.all_eq_true.mp h) depth)

/-- The style of a document. -/
def styleOf (root : Node) : Style :=
  ⟨spaceOf root, indentUnit root⟩

/-- A descriptor that was read has the style of its document. -/
theorem style_eq_styleOf {text : String} {descriptor : Descriptor}
    (h : Descriptor.parse? text = some descriptor) :
    descriptor.style = styleOf descriptor.root := by
  unfold Descriptor.parse? at h
  cases hread : readDocument? text with
  | none =>
    rw [hread] at h
    cases h
  | some root =>
    rw [hread] at h
    cases h
    rfl

/-! ## Placing children -/

section Place

variable {made : Node → Prop} {pinned : Option String} {owner : Option PluginKey} {style : Style}

/-- A blank text is no word. -/
theorem filterMap_words_blank {text : String} (h : Text.allBlank text = true)
    (texts : List (Option String)) :
    (some text :: texts).filterMap (fun t => t.filter fun s => !Text.allBlank s)
      = texts.filterMap fun t => t.filter fun s => !Text.allBlank s := by
  rw [List.filterMap_cons_none]
  simp [h]

theorem modifyLast_append_singleton (tail : Option String) (front : List Node) (last : Node) :
    modifyLast (fun node => { node with tail := tail }) (front ++ [last])
      = front ++ [{ last with tail := tail }] := by
  induction front with
  | nil => rfl
  | cons node front ih =>
    obtain ⟨next, rest, hnext⟩ := List.exists_cons_of_ne_nil
      (List.append_ne_nil_of_right_ne_nil front (List.cons_ne_nil last []))
    rw [List.cons_append, hnext, modifyLast, ← hnext, ih]
    · rfl
    · exact List.cons_ne_nil _ _

/-- **A child added at the end** keeps the parent. The tail it takes over from the last child is
the only one that is not new. -/
theorem kept_insertLast (hblank : Text.allBlank style.indent = true) {depth : Nat}
    {child parent : Node}
    (hmade : ∀ tail, made { child.indented style.indent (depth + 1) with tail := tail })
    (hversion : (owner.isSome && parent.isNamed "version") = false) :
    Kept made pinned owner parent (style.insertLast depth child parent) := by
  unfold Style.insertLast
  dsimp only
  cases hlast : parent.children.getLast? with
  | none =>
    have hnil : parent.children = [] := List.getLast?_eq_none_iff.mp hlast
    refine .container hversion rfl ?_ (fun hne => absurd hnil hne) ?_
    · rw [hnil]
      exact Nat.zero_lt_one
    · rw [hnil]
      exact .new (hmade _) .nil
  | some last =>
    obtain ⟨front, hfront⟩ := List.getLast?_eq_some_iff.mp hlast
    have hinner := allBlank_lineBreak hblank (depth + 1)
    rw [hfront, modifyLast_append_singleton]
    dsimp only
    refine .container hversion rfl ?_ (fun _ => ?_) ?_
    · rw [hfront]
      simp
    · -- the new tail of the last child is blank, and its old tail now follows the new child
      unfold directWords
      rw [hfront]
      simp only [List.map_append, List.map_cons, List.map_nil, List.append_assoc,
        ← List.cons_append, List.filterMap_append]
      rw [filterMap_words_blank hinner]
      rfl
    · rw [hfront, List.append_assoc]
      exact KeptAll.append (KeptAll.refl _ front)
        (.old ((Kept.refl _ last).withTail _) (.new (hmade _) .nil))

/-- A child added behind another one keeps the parent. -/
theorem kept_insertAfter (hblank : Text.allBlank style.indent = true) {depth : Nat} (index : Nat)
    {child parent : Node}
    (hmade : ∀ tail, made { child.indented style.indent (depth + 1) with tail := tail })
    (hversion : (owner.isSome && parent.isNamed "version") = false) :
    Kept made pinned owner parent (style.insertAfter depth index child parent) := by
  unfold Style.insertAfter
  split
  case isFalse => exact kept_insertLast hblank hmade hversion
  case isTrue hlt =>
    have hinner := allBlank_lineBreak hblank (depth + 1)
    dsimp only
    rw [insertIdx_eq_take_append_drop _ _ _ (Nat.le_of_lt hlt)]
    refine .container hversion rfl ?_ (fun _ => ?_) ?_
    · rw [List.length_append, List.length_cons, ← Nat.add_assoc, ← List.length_append,
        List.take_append_drop]
      exact Nat.lt_succ_self _
    · have htails : parent.children.map Node.tail
          = (parent.children.take (index + 1)).map Node.tail
            ++ (parent.children.drop (index + 1)).map Node.tail := by
        rw [← List.map_append, List.take_append_drop]
      unfold directWords
      rw [htails, List.map_append, List.map_cons, ← List.cons_append, ← List.cons_append,
        List.filterMap_append, List.filterMap_append, filterMap_words_blank hinner]
    · have hsplit (owner : Option PluginKey) : KeptAll made pinned owner
          (parent.children.take (index + 1) ++ parent.children.drop (index + 1)) _ :=
        KeptAll.append (KeptAll.refl _ _)
          (.new (hmade (some (lineBreak style.indent (depth + 1)))) (KeptAll.refl _ _))
      rw [List.take_append_drop] at hsplit
      exact hsplit _

/-- An edit in place keeps the tail. -/
theorem InPlace.tail_eq {f : Node → Node} (hf : InPlace f) (node : Node) :
    (f node).tail = node.tail := by
  obtain ⟨label, text, children, tail⟩ := node
  have hnode := congrArg Node.tail (hf.tail ⟨label, text, children, tail⟩ tail)
  exact hnode

theorem map_tail_modifyFirst {test : Node → Bool} {f : Node → Node}
    (hf : ∀ node, (f node).tail = node.tail) (nodes : List Node) :
    (modifyFirst test f nodes).map Node.tail = nodes.map Node.tail := by
  induction nodes with
  | nil => rfl
  | cons node nodes ih =>
    rw [modifyFirst]
    split
    · rw [List.map_cons, List.map_cons, hf]
    · rw [List.map_cons, List.map_cons, ih]

/-- A change of the first match among the children keeps the node. -/
theorem kept_modifyFirst {test : Node → Bool} {f : Node → Node}
    (htail : ∀ node, (f node).tail = node.tail) {node : Node}
    (hf : ∀ child, test child = true →
      Kept made pinned (ownKey { node with children := modifyFirst test f node.children })
        child (f child)) :
    Kept made pinned owner node
      { node with children := modifyFirst test f node.children } :=
  .still rfl rfl (map_tail_modifyFirst htail node.children)
    (keptAll_modifyFirst node.children fun child _ => hf child)

theorem kept_changeChild {name : String} {f : Node → Node} {node : Node}
    (htail : ∀ child, (f child).tail = child.tail)
    (hf : ∀ child, child.isNamed name = true →
      Kept made pinned (ownKey (changeChild name f node)) child (f child)) :
    Kept made pinned owner node (changeChild name f node) :=
  kept_modifyFirst htail hf

/-- **An edit inside a child** keeps the node when it keeps the child. A missing child is new. -/
theorem kept_within (hblank : Text.allBlank style.indent = true) {depth : Nat} {name : String}
    {f : Node → Node} {node : Node} (hversion : (owner.isSome && node.isNamed "version") = false)
    (htail : ∀ child, (f child).tail = child.tail)
    (hf : ∀ child, child.isNamed name = true →
      Kept (InSpace style.space) pinned (ownKey (style.within depth name f node)) child (f child)) :
    Kept (InSpace style.space) pinned owner node (style.within depth name f node) := by
  have hfresh : InSpace style.space (style.newElement name []) := by
    refine inSpace_iff.mpr ⟨fun other h => ?_, fun _ hmem => nomatch hmem⟩
    cases h
    rfl
  have hchild : Kept (InSpace style.space) none owner node
      (style.withChild depth name node) := by
    unfold Style.withChild
    split
    · exact Kept.refl _ node
    · exact kept_insertLast hblank (inSpace_place hfresh _ _) hversion
  exact hchild.trans_inSpace (kept_changeChild htail hf)

end Place

/-! ## The edits -/

section Edits

variable {pinned : Option String} {owner : Option PluginKey} {style : Style}

theorem inSpace_newTextElement (name : String) (text : Option String) :
    InSpace style.space (style.newTextElement name text) := by
  refine inSpace_iff.mpr ⟨fun other h => ?_, fun _ hmem => nomatch hmem⟩
  cases h
  rfl

theorem inSpace_newElement {name : String} {children : List Node}
    (h : ∀ child ∈ children, InSpace style.space child) :
    InSpace style.space (style.newElement name children) := by
  refine inSpace_iff.mpr ⟨fun other hname => ?_, h⟩
  cases hname
  rfl

/-- Nothing but a plugin has pinned children. -/
theorem noVersion_of_named {node : Node} {name : String} (h : node.isNamed name = true)
    (hne : name ≠ "version") : (owner.isSome && node.isNamed "version") = false := by
  rw [not_isNamed_of_ne h hne, Bool.and_false]

theorem kept_insertDependency (hblank : Text.allBlank style.indent = true)
    (group artifact version : String) (project : Node) :
    Kept (InSpace style.space) pinned none project
      (insertDependency group artifact version style project) := by
  unfold insertDependency
  refine kept_within hblank rfl (inPlace_insertLast ..).tail_eq fun block hnamed => ?_
  refine kept_insertLast hblank (inSpace_place (inSpace_newElement ?_) _ _)
    (noVersion_of_named hnamed (by decide))
  intro child hchild
  simp only [List.mem_cons, List.not_mem_nil, or_false] at hchild
  rcases hchild with rfl | rfl | rfl <;> exact inSpace_newTextElement _ _

theorem kept_insertProfile (hblank : Text.allBlank style.indent = true) (id : String)
    (project : Node) :
    Kept (InSpace style.space) pinned none project (insertProfile id style project) := by
  unfold insertProfile
  refine kept_within hblank rfl (inPlace_insertLast ..).tail_eq fun block hnamed => ?_
  refine kept_insertLast hblank (inSpace_place (inSpace_newElement ?_) _ _)
    (noVersion_of_named hnamed (by decide))
  intro child hchild
  rw [List.mem_singleton] at hchild
  rw [hchild]
  exact inSpace_newTextElement _ _

/-- **A version set in the deployment plugin**: the text of the version there is, or a new
version. -/
theorem kept_setVersion (hblank : Text.allBlank style.indent = true) (value : String) (depth : Nat)
    {plugin : Node} (hplugin : isPlugin deployPlugin plugin = true) :
    Kept (InSpace style.space) (some value) owner plugin
      (setVersion value style depth plugin) := by
  obtain ⟨hnamed, hkey⟩ := Bool.and_eq_true_iff.mp hplugin
  have hown : ownKey (setVersion value style depth plugin) = some deployPlugin := by
    have hlabel := (inPlace_setVersion value style depth).label plugin
    rw [ownKey, isNamed_of_label hlabel, if_pos hnamed, pluginKey_setVersion, beq_iff_eq.mp hkey]
  unfold setVersion Style.withText at hown ⊢
  split at hown
  · rename_i hversion
    rw [if_pos hversion]
    refine kept_changeChild (fun _ => rfl) fun child hchild => ?_
    rw [hown]
    exact .version rfl hchild rfl rfl rfl (KeptAll.refl _ _)
  · rename_i hversion
    rw [if_neg hversion]
    have hcontainer : (owner.isSome && plugin.isNamed "version") = false :=
      noVersion_of_named hnamed (by decide)
    split
    · exact kept_insertAfter hblank _ (inSpace_place (inSpace_newTextElement _ _) _ _) hcontainer
    · exact kept_insertLast hblank (inSpace_place (inSpace_newTextElement _ _) _ _) hcontainer

theorem kept_changePlugin {made : Node → Prop} {key : PluginKey} {f : Node → Node}
    (htail : ∀ node, (f node).tail = node.tail)
    (hf : ∀ {owner} plugin, isPlugin key plugin = true → Kept made pinned owner plugin (f plugin))
    (project : Node) : Kept made pinned owner project (changePlugin key f project) := by
  unfold changePlugin
  refine kept_changeChild (fun _ => rfl) fun build _ => ?_
  refine kept_changeChild (fun _ => rfl) fun plugins _ => ?_
  exact kept_modifyFirst htail hf

theorem kept_changeProfile {made : Node → Prop} {test : Node → Bool} {f : Node → Node}
    (htail : ∀ node, (f node).tail = node.tail)
    (hf : ∀ {owner} profile, profile.isNamed "profile" = true →
      Kept made pinned owner profile (f profile))
    (project : Node) : Kept made pinned owner project (changeProfile test f project) := by
  unfold changeProfile
  refine kept_changeChild (fun _ => rfl) fun block _ => ?_
  exact kept_modifyFirst htail fun profile hprofile =>
    hf profile (Bool.and_eq_true_iff.mp hprofile).1

theorem kept_changeProfiles {made : Node → Prop} {f : Node → Node}
    (htail : ∀ node, (f node).tail = node.tail)
    (hf : ∀ {owner} profile, Kept made pinned owner profile (f profile))
    (project : Node) : Kept made pinned owner project (changeProfiles f project) := by
  unfold changeProfiles
  refine kept_changeChild (fun _ => rfl) fun block _ => .still rfl rfl ?_ (keptAll_map _ ?_)
  · rw [List.map_map]
    refine List.map_congr_left fun node _ => ?_
    show (if node.isNamed "profile" then f node else node).tail = node.tail
    split
    · exact htail node
    · rfl
  · intro node _
    split
    · exact hf node
    · exact Kept.refl _ node

theorem inSpace_deployDeclaration : InSpace style.space (deployDeclaration style) := by
  have hexecution : ∀ goal, InSpace style.space (style.newElement "execution"
      [style.newTextElement "id" (some goal),
        style.newElement "goals" [style.newTextElement "goal" (some goal)]]) := fun goal =>
    inSpace_newElement <| List.forall_mem_cons.mpr ⟨inSpace_newTextElement _ _,
      List.forall_mem_singleton.mpr <| inSpace_newElement <|
        List.forall_mem_singleton.mpr (inSpace_newTextElement _ _)⟩
  refine inSpace_newElement <| List.forall_mem_cons.mpr ⟨inSpace_newTextElement _ _,
    List.forall_mem_cons.mpr ⟨inSpace_newTextElement _ _,
      List.forall_mem_singleton.mpr (inSpace_newElement fun child hchild => ?_)⟩⟩
  obtain ⟨goal, -, rfl⟩ := List.mem_map.mp hchild
  exact hexecution goal

/-- **The deployment plugin declared** in a profile, a new one if need be. -/
theorem kept_declareHost (hblank : Text.allBlank style.indent = true) (project : Node) :
    Kept (InSpace style.space) none none project (declareHost style project) := by
  have hprepared : Kept (InSpace style.space) none none project
      (if (profileOf? deployProfile project).isSome then project
        else insertProfile deployProfile style project) := by
    split
    · exact Kept.refl _ project
    · exact kept_insertProfile hblank deployProfile project
  unfold declareHost
  refine hprepared.trans_inSpace ?_
  refine kept_changeProfile (inPlace_insertPlugin ..).tail_eq (fun profile hprofile => ?_) _
  refine kept_within hblank (noVersion_of_named hprofile (by decide)) (inPlace_within ..).tail_eq
    fun build hbuild => ?_
  refine kept_within hblank (noVersion_of_named hbuild (by decide)) (inPlace_insertLast ..).tail_eq
    fun plugins hplugins => ?_
  exact kept_insertLast hblank (inSpace_place inSpace_deployDeclaration _ _)
    (noVersion_of_named hplugins (by decide))

/-- **A pin** declares the deployment plugin if need be and sets versions. -/
theorem kept_pin (hblank : Text.allBlank style.indent = true) (value : String) (project : Node) :
    Kept (InSpace style.space) (some value) none project (pin value style project) := by
  have htail : ∀ depth node, (setVersion value style depth node).tail = node.tail := fun depth =>
    (inPlace_setVersion value style depth).tail_eq
  have hhosted : Kept (InSpace style.space) none none project
      (if (hosting deployPlugin project).isEmpty then declareHost style project else project) := by
    split
    · exact kept_declareHost hblank project
    · exact Kept.refl _ project
  unfold pin
  dsimp only
  generalize (if (hosting deployPlugin project).isEmpty then declareHost style project
    else project) = hosted at hhosted ⊢
  refine hhosted.trans_inSpace ?_
  split
  · exact kept_changePlugin (htail 3) (fun _ => kept_setVersion hblank value 3) _
  · exact kept_changeProfiles (inPlace_changePlugin ..).tail_eq
      (kept_changePlugin (htail 5) fun _ => kept_setVersion hblank value 5) _

theorem tail_pin (value : String) (style : Style) (project : Node) :
    (pin value style project).tail = project.tail := by
  have hhosted : (if (hosting deployPlugin project).isEmpty then declareHost style project
      else project).tail = project.tail := by
    split
    · unfold declareHost
      show (if (profileOf? deployProfile project).isSome then project
        else insertProfile deployProfile style project).tail = project.tail
      split
      · rfl
      · exact (inPlace_within ..).tail_eq project
    · rfl
  unfold pin
  dsimp only
  generalize (if (hosting deployPlugin project).isEmpty then declareHost style project
    else project) = hosted at hhosted ⊢
  split
  · exact hhosted
  · exact hhosted

end Edits

/-! ## Configurations -/

/-- The elements of a fragment, moved into the document if they are in no namespace. -/
def Stamp (style : Style) (fragment node : Node) : Prop :=
  node.labels = fragment.labels.map style.labelIntoSpace

/-- A configuration replaced by a fragment. -/
structure Restamps (style : Style) (fragment before after : Node) : Prop where
  named : before.isNamed "configuration" = true
  tail : after.tail = before.tail
  stamp : Stamp style fragment after

theorem stamp_intoSpace (style : Style) (fragment : Node) (unit : String) (depth : Nat)
    (tail : Option String) :
    Stamp style fragment { (style.intoSpace fragment).indented unit depth with tail := tail } := by
  unfold Stamp Style.intoSpace
  rw [Node.labels_withTail, labels_indented, Node.labels_mapLabels]

theorem atOne_modifyFirst {R : Node → Node → Prop} {test : Node → Bool} {f : Node → Node}
    {node child : Node} (hchild : node.children.find? test = some child)
    (hR : AtOne R child (f child)) :
    AtOne R node { node with children := modifyFirst test f node.children } := by
  obtain ⟨front, back, hsplit, hmodify⟩ := modifyFirst_of_find? hchild
  rw [hmodify]
  exact .inside hsplit hR

theorem atOne_changeChild {R : Node → Node → Prop} {name : String} {f : Node → Node}
    {node child : Node} (hchild : node.child? name = some child) (hR : AtOne R child (f child)) :
    AtOne R node (changeChild name f node) :=
  atOne_modifyFirst hchild hR

theorem find?_childrenNamed (name : String) (test : Node → Bool) (node : Node) :
    (node.childrenNamed name).find? test
      = node.children.find? fun child => child.isNamed name && test child := by
  unfold Node.childrenNamed
  rw [List.find?_filter]
  simp

/-- The plugin that lookups find is the one that is changed. -/
theorem atOne_changePlugin {key : PluginKey} {f : Node → Node} {owner : Node}
    (h : hostsPlugin key owner = true) :
    AtOne (fun old new => old.isNamed "plugin" = true ∧ new = f old) owner
      (changePlugin key f owner) := by
  obtain ⟨plugin, hplugin⟩ := Option.isSome_iff_exists.mp h
  unfold pluginOf? pluginsOf at hplugin
  cases hbuild : owner.child? "build" with
  | none =>
    rw [hbuild] at hplugin
    cases hplugin
  | some build =>
    rw [hbuild] at hplugin
    dsimp only [blockPlugins, itemsOf] at hplugin
    cases hblock : build.child? "plugins" with
    | none =>
      rw [hblock] at hplugin
      cases hplugin
    | some block =>
      rw [hblock] at hplugin
      have hfind : block.children.find? (isPlugin key) = some plugin := by
        rw [← hplugin]
        exact (find?_childrenNamed ..).symm
      have hplugin : isPlugin key plugin = true := List.find?_some hfind
      have hnamed := (Bool.and_eq_true_iff.mp hplugin).1
      exact atOne_changeChild hbuild <| atOne_changeChild hblock <|
        atOne_modifyFirst hfind (.here ⟨hnamed, rfl⟩)

/-- The first profile that declares the plugin is the one that is changed. -/
theorem atOne_configure {fragment project configured : Node} {style : Style}
    (h : configure? fragment style project = some configured) :
    AtOne (fun old new => old.isNamed "plugin" = true ∧ new = setConfiguration fragment style 5 old)
      project configured := by
  unfold configure? at h
  split at h
  case isTrue => cases h
  case isFalse hhosts =>
    cases h
    have hfind : ((profiles project).find? (hostsPlugin deployPlugin)).isSome = true := by
      rw [List.isSome_find?, List.any_eq_true]
      obtain ⟨profile, hprofile⟩ := List.exists_mem_of_ne_nil _ (by simpa using hhosts)
      exact ⟨profile, List.mem_filter.mp hprofile⟩
    obtain ⟨profile, hprofile⟩ := Option.isSome_iff_exists.mp hfind
    unfold profiles itemsOf at hprofile
    cases hblock : project.child? "profiles" with
    | none =>
      rw [hblock] at hprofile
      cases hprofile
    | some block =>
      rw [hblock] at hprofile
      have hfirst : block.children.find? (fun node =>
          node.isNamed "profile" && hostsPlugin deployPlugin node) = some profile := by
        rw [← hprofile]
        exact (find?_childrenNamed ..).symm
      have htest := List.find?_some hfirst
      have hhost := (Bool.and_eq_true_iff.mp htest).2
      exact atOne_changeChild hblock (atOne_modifyFirst hfirst (atOne_changePlugin hhost))

/-- **A configuration set in a plugin** replaces the one there is, or is new. -/
theorem setConfiguration_replaces_or_adds {style : Style}
    (hblank : Text.allBlank style.indent = true) (fragment : Node) {plugin : Node}
    (hplugin : plugin.isNamed "plugin" = true) :
    AtOne (Restamps style fragment) plugin (setConfiguration fragment style 5 plugin) ∨
      (setConfiguration fragment style 5 plugin).tail = plugin.tail ∧
        ∀ owner, Kept (Stamp style fragment) none owner plugin
          (setConfiguration fragment style 5 plugin) := by
  unfold setConfiguration Style.replaceChild
  split
  case isTrue h =>
    obtain ⟨configuration, hchild⟩ := Option.isSome_iff_exists.mp h
    refine .inl (atOne_changeChild hchild (.here ⟨List.find?_some hchild, rfl, ?_⟩))
    exact stamp_intoSpace style fragment _ _ _
  case isFalse =>
    refine .inr ⟨(inPlace_insertLast ..).tail_eq plugin, fun owner => ?_⟩
    exact kept_insertLast hblank (stamp_intoSpace style fragment _ _)
      (noVersion_of_named hplugin (by decide))

/-! ## Main statement -/

/-- **The frame law of the edits.** An edit keeps every node of the document where it was, with its
label, in the old order. What it makes is in the namespace of the document, and text changes only in
a pinned version, which is one of the deployment plugin, and around new children. A configuration
replaced by a fragment is the only thing that goes; the elements of the fragment are not made by the
edit, which moves those that are in no namespace into the one of the document. The style is that of
the document as it was read, and the tree may have been edited since. -/
theorem edits_frame (original project : Node) :
    let style := styleOf original
    (∀ group artifact version, Framed (InSpace style.space) none project
      (insertDependency group artifact version style project)) ∧
    (∀ id, Framed (InSpace style.space) none project (insertProfile id style project)) ∧
    (∀ value, Framed (InSpace style.space) (some value) project (pin value style project)) ∧
    ∀ fragment configured, configure? fragment style project = some configured →
      AtOne (Restamps style fragment) project configured ∨
        Framed (Stamp style fragment) none project configured := by
  intro style
  have hblank : Text.allBlank style.indent = true := allBlank_indentUnit original
  refine ⟨fun group artifact version => ⟨?_, kept_insertDependency hblank ..⟩,
    fun id => ⟨?_, kept_insertProfile hblank ..⟩, fun value => ⟨?_, kept_pin hblank ..⟩, ?_⟩
  · exact (inPlace_within ..).tail_eq project
  · exact (inPlace_within ..).tail_eq project
  · exact tail_pin value style project
  · intro fragment configured h
    -- a fragment goes into one plugin, where it takes the place of a configuration or is added
    have hplaces := (atOne_configure h).or fun {old new} ⟨hplugin, hnew⟩ =>
      hnew ▸ setConfiguration_replaces_or_adds hblank fragment hplugin
    rcases hplaces with hreplaces | hadds
    · exact .inl hreplaces.join
    · obtain ⟨htail, hkept⟩ := hadds.framed
      exact .inr ⟨htail, hkept none⟩

/-- A project with nothing but a profile that declares the deployment plugin. -/
def hostProject : Node :=
  declareHost ⟨"", defaultIndent⟩ (Node.element ⟨"", "project"⟩ none [])

/-- The plugin of the profile gets a configuration. -/
theorem edits_frame_hostProject :
    let fragment := Node.element ⟨"", "configuration"⟩ (some "on") []
    ∃ configured, configure? fragment (styleOf hostProject) hostProject = some configured ∧
      (AtOne (Restamps (styleOf hostProject) fragment) hostProject configured ∨
        Framed (Stamp (styleOf hostProject) fragment) none hostProject configured) := by
  intro fragment
  have hsome : (configure? fragment (styleOf hostProject) hostProject).isSome = true := by
    decide +kernel
  obtain ⟨configured, h⟩ := Option.isSome_iff_exists.mp hsome
  obtain ⟨-, -, -, hconfigure⟩ := edits_frame hostProject hostProject
  exact ⟨configured, h, hconfigure fragment configured h⟩

/-- A configuration in a namespace of its own. -/
def foreignFragment : Node :=
  Node.element ⟨"urn:other", "configuration"⟩ (some "on") []

/-- A fragment that brings a namespace keeps it: every element of the project is in the namespace of
the document, and after the fragment is set one is not. -/
theorem foreignFragment_keeps_space :
    InSpace (styleOf hostProject).space hostProject ∧
    ∃ configured, configure? foreignFragment (styleOf hostProject) hostProject = some configured ∧
      ¬ InSpace (styleOf hostProject).space configured := by
  have hspace : (styleOf hostProject).space = "" := by decide +kernel
  constructor
  · rw [hspace]
    have hbare : InSpace "" (Style.newElement ⟨"", defaultIndent⟩ "project" []) :=
      inSpace_newElement fun _ hmem => absurd hmem List.not_mem_nil
    have hkept := @kept_declareHost ⟨"", defaultIndent⟩ (by decide)
        (Node.element ⟨"", "project"⟩ none [])
    exact InSpace.kept _ hbare hkept
  · have hany : (configure? foreignFragment (styleOf hostProject) hostProject).any
        (fun configured => decide (foreignFragment.label ∈ configured.labels)) = true := by
      decide +kernel
    obtain ⟨configured, h, hmem⟩ := (Option.any_eq_true _ _).mp hany
    refine ⟨configured, h, fun hinside => ?_⟩
    have hother := hinside _ (of_decide_eq_true hmem) ⟨"urn:other", "configuration"⟩ rfl
    rw [hspace] at hother
    exact absurd hother (by decide)

end Rollout.Pom
