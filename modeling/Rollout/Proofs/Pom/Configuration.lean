import Rollout.Proofs.Pom.Frame
import Rollout.Proofs.Pom.Pin
import Rollout.Proofs.Pom.Views

/-!
# The configuration of the deployment plugin

A configuration is compared without its layout: what indentation may change does not count.

- `Node.bare`: a tree without its layout; `bare_indented`: indentation does not change it.
- `deployed?`: the deployment plugin that is configured, in the first profile that declares it.
- `configurationOf_setVersion`, `configurationOf_setConfiguration`: the configuration of a plugin
  after an edit of the plugin.
- `configuration?_configure`, `configuration?_pin`: **the configuration after an edit** of the
  project.
-/

namespace Rollout

/-! ## Trees without layout -/

namespace Xml

/-- A text, unless it is blank. -/
def spoken (text : Option String) : Option String :=
  text.filter fun s => !Text.allBlank s

mutual

/-- The tree without its layout: its tail and the blank texts between its elements are gone. The
text of an element without children is not layout. -/
def Node.bare : Node → Node
  | ⟨label, text, [], _⟩ => ⟨label, text, [], none⟩
  | ⟨label, text, child :: children, _⟩ =>
    ⟨label, spoken text, bareAll (child :: children), none⟩

/-- The trees without their layout; a tail that is not blank stays. -/
def bareAll : List Node → List Node
  | [] => []
  | child :: children => { child.bare with tail := spoken child.tail } :: bareAll children

end

theorem spoken_unlessBlank {replacement : String} (h : Text.allBlank replacement = true)
    (text : Option String) : spoken (unlessBlank text replacement) = spoken text := by
  unfold unlessBlank spoken
  cases text with
  | none => simp [h]
  | some s =>
    by_cases hs : Text.allBlank s = true
    · simp [Option.filter, h, hs]
    · simp [hs]

theorem bare_withTail (node : Node) (tail : Option String) :
    Node.bare { node with tail := tail } = node.bare := by
  obtain ⟨label, text, children, _⟩ := node
  cases children <;> rfl

theorem bare_of_ne_nil {children : List Node} (h : children ≠ []) (label : Label)
    (text tail : Option String) :
    Node.bare ⟨label, text, children, tail⟩ = ⟨label, spoken text, bareAll children, none⟩ := by
  cases children with
  | nil => exact absurd rfl h
  | cons child children => rfl

mutual

/-- **Indentation** is nothing but layout. -/
theorem bare_indented {unit : String} (h : Text.allBlank unit = true) (depth : Nat) :
    ∀ node : Node, (node.indented unit depth).bare = node.bare
  | ⟨_, _, [], _⟩ => rfl
  | ⟨label, text, child :: children, tail⟩ => by
    have hchildren := bareAll_indentedAll h depth (child :: children)
    have hcons : indentedAll unit depth (child :: children) ≠ [] := by
      rw [indentedAll]
      exact List.cons_ne_nil _ _
    rw [Node.indented, bare_of_ne_nil hcons, bare_of_ne_nil (List.cons_ne_nil child children),
      hchildren, spoken_unlessBlank (Pom.allBlank_lineBreak h (depth + 1))]

theorem bareAll_indentedAll {unit : String} (h : Text.allBlank unit = true) (depth : Nat) :
    ∀ nodes : List Node, bareAll (indentedAll unit depth nodes) = bareAll nodes
  | [] => rfl
  | child :: children => by
    have hchild := bare_indented h (depth + 1) child
    have hchildren := bareAll_indentedAll h depth children
    rw [indentedAll, bareAll, bareAll, bare_withTail, hchild, hchildren,
      spoken_unlessBlank (Pom.allBlank_lineBreak h _)]

end

end Xml

namespace Pom

open Xml

theorem bare_tailFree : TailFree Node.bare := bare_withTail

/-! ## A child replaced -/

section ReplaceChild

variable {β : Type} {g : Node → β} {name other : String} {fresh : Node}

theorem inPlace_replaceChild (style : Style) (depth : Nat) (name : String) (fresh : Node) :
    InPlace (style.replaceChild depth name fresh) where
  label node := by
    unfold Style.replaceChild
    split
    · rfl
    · exact (inPlace_insertLast style depth fresh).label node
  tail node tail := by
    have hchild : Node.child? name { node with tail := tail } = node.child? name := rfl
    unfold Style.replaceChild
    rw [hchild]
    split
    · rfl
    · exact (inPlace_insertLast style depth fresh).tail node tail

theorem filter_modifyFirst_of_neither {p test : Node → Bool} {f : Node → Node} {nodes : List Node}
    (hp : ∀ node, p (f node) = false) (hnot : ∀ node ∈ nodes, test node = true → p node = false) :
    (modifyFirst test f nodes).filter p = nodes.filter p := by
  induction nodes with
  | nil => rfl
  | cons node nodes ih =>
    obtain ⟨hnode, hnodes⟩ := List.forall_mem_cons.mp hnot
    by_cases ht : test node = true
    · simp [modifyFirst, ht, hp, hnode ht]
    · rw [modifyFirst, if_neg ht, List.filter_cons, List.filter_cons, ih hnodes]

/-- The children of other names stay. -/
theorem map_childrenNamed_replaceChild_of_ne (hg : TailFree g) (style : Style) (depth : Nat)
    (hfresh : fresh.isNamed name = true) (hne : name ≠ other) (node : Node) :
    ((style.replaceChild depth name fresh node).childrenNamed other).map g
      = (node.childrenNamed other).map g := by
  have hother : fresh.isNamed other = false := not_isNamed_of_ne hfresh hne
  unfold Style.replaceChild
  split
  · refine congrArg (List.map g) (filter_modifyFirst_of_neither (fun old => ?_)
      fun _ _ h => not_isNamed_of_ne h hne)
    rw [isNamed_tailFree, isNamed_of_label (indented_label ..), hother]
  · rw [map_childrenNamed_insertLast style depth hg, hother, if_neg Bool.false_ne_true,
      List.append_nil]

/-- The child that replaces another is the first one of its name. -/
theorem map_child?_replaceChild (hg : TailFree g) (style : Style) (depth : Nat)
    (hfresh : fresh.isNamed name = true) (node : Node) :
    ((style.replaceChild depth name fresh node).child? name).map g
      = some (g (fresh.indented style.indent (depth + 1))) := by
  unfold Style.replaceChild
  split
  case isTrue h =>
    obtain ⟨old, hold⟩ := Option.isSome_iff_exists.mp h
    have hfind : (changeChild name (fun old =>
          { fresh.indented style.indent (depth + 1) with tail := old.tail }) node).child? name
        = (node.child? name).map fun old =>
          { fresh.indented style.indent (depth + 1) with tail := old.tail } := by
      refine find?_modifyFirst (fun old _ => ?_) node.children
      rw [isNamed_tailFree, isNamed_of_label (indented_label ..), hfresh]
    rw [hfind, hold, Option.map_some, Option.map_some, hg]
  case isFalse h =>
    have hnil : node.childrenNamed name = [] := by
      rw [child?_eq_head?] at h
      simpa using h
    rw [child?_eq_head?, ← List.head?_map, map_childrenNamed_insertLast style depth hg, hnil,
      if_pos hfresh]
    rfl

end ReplaceChild

/-! ## The configuration of a plugin -/

/-- The configuration of a plugin, without its layout. -/
def configurationOf (plugin : Node) : Option Node :=
  (plugin.child? "configuration").map Node.bare

theorem isNamed_intoSpace (style : Style) (tree : Node) (name : String) :
    (style.intoSpace tree).isNamed name = tree.isNamed name := by
  obtain ⟨label, text, children, tail⟩ := tree
  cases label with
  | element qname attributes =>
    show Option.any _ (Label.name? (style.labelIntoSpace (.element qname attributes))) = _
    unfold Style.labelIntoSpace
    dsimp only
    split <;> rfl
  | comment => rfl
  | instruction => rfl

section Plugin

variable {style : Style} {fragment : Node}

/-- **A version set** leaves the configuration. -/
theorem configurationOf_setVersion (value : String) (style : Style) (depth : Nat) (plugin : Node) :
    configurationOf (setVersion value style depth plugin) = configurationOf plugin := by
  unfold configurationOf setVersion
  rw [child?_eq_head?, child?_eq_head?, ← List.head?_map, ← List.head?_map,
    map_childrenNamed_withText_of_ne style depth bare_tailFree (by decide)]

/-- **A configuration set** is the fragment, moved into the document. -/
theorem configurationOf_setConfiguration (hblank : Text.allBlank style.indent = true)
    (hfragment : fragment.isNamed "configuration" = true) (depth : Nat) (plugin : Node) :
    configurationOf (setConfiguration fragment style depth plugin)
      = some (style.intoSpace fragment).bare := by
  have hnamed : (style.intoSpace fragment).isNamed "configuration" = true :=
    (isNamed_intoSpace ..).trans hfragment
  unfold configurationOf setConfiguration
  rw [map_child?_replaceChild bare_tailFree style depth hnamed, bare_indented hblank]

/-- A configuration set leaves what the plugin declares. -/
theorem entryOf_setConfiguration (hfragment : fragment.isNamed "configuration" = true)
    (style : Style) (depth : Nat) (plugin : Node) :
    entryOf (setConfiguration fragment style depth plugin) = entryOf plugin := by
  have hnamed : (style.intoSpace fragment).isNamed "configuration" = true :=
    (isNamed_intoSpace ..).trans hfragment
  have htext : TailFree Node.text := fun _ _ => rfl
  have hruns : TailFree runsOf := fun _ _ => rfl
  have hother : ∀ name, "configuration" ≠ name →
      childText name (setConfiguration fragment style depth plugin) = childText name plugin := by
    intro name hne
    rw [childText_eq, childText_eq, setConfiguration,
      map_childrenNamed_replaceChild_of_ne htext style depth hnamed hne]
  have hexecutions : executionsOf (setConfiguration fragment style depth plugin)
      = executionsOf plugin := by
    rw [executionsOf_eq, executionsOf_eq, setConfiguration,
      map_childrenNamed_replaceChild_of_ne hruns style depth hnamed (by decide)]
  unfold entryOf pluginKey
  rw [hother "groupId" (by decide), hother "artifactId" (by decide),
    hother "version" (by decide), hexecutions]

theorem pluginKey_setConfiguration (hfragment : fragment.isNamed "configuration" = true)
    (style : Style) (depth : Nat) (plugin : Node) :
    pluginKey (setConfiguration fragment style depth plugin) = pluginKey plugin :=
  congrArg PluginEntry.key (entryOf_setConfiguration hfragment style depth plugin)

theorem inPlace_setConfiguration (fragment : Node) (style : Style) (depth : Nat) :
    InPlace (setConfiguration fragment style depth) :=
  inPlace_replaceChild ..

end Plugin

/-! ## The plugin that is configured -/

/-- The deployment plugin of the first profile that declares it. -/
def deployed? (project : Node) : Option Node :=
  (hosting deployPlugin project).head?.bind (pluginOf? deployPlugin)

/-- Its configuration, without layout. -/
def configuration? (project : Node) : Option Node :=
  (deployed? project).bind configurationOf

theorem deployed?_eq (project : Node) :
    deployed? project
      = ((profiles project).find? (hostsPlugin deployPlugin)).bind (pluginOf? deployPlugin) := by
  unfold deployed? hosting
  rw [List.head?_filter]

section Deployed

variable {f : Node → Node} (hf : InPlace f)
  (hkey : ∀ plugin, pluginKey (f plugin) = pluginKey plugin)

include hf hkey

theorem hostsPlugin_changePlugin (key : PluginKey) (profile : Node) :
    hostsPlugin key (changePlugin key f profile) = hostsPlugin key profile := by
  unfold hostsPlugin
  rw [pluginOf?_changePlugin hf.label hkey, Option.isSome_map]

/-- A change of the first profile that declares the plugin reaches it. -/
theorem deployed?_changeProfile (project : Node) :
    deployed? (changeProfile (hostsPlugin deployPlugin) (changePlugin deployPlugin f) project)
      = (deployed? project).map f := by
  have hhosts : ∀ profile, hostsPlugin deployPlugin profile = true →
      hostsPlugin deployPlugin (changePlugin deployPlugin f profile) = true := fun profile h =>
    (hostsPlugin_changePlugin hf hkey deployPlugin profile).trans h
  rw [deployed?_eq, deployed?_eq, profiles_changeProfile (inPlace_changePlugin ..).label,
    find?_modifyFirst hhosts]
  cases (profiles project).find? (hostsPlugin deployPlugin) with
  | none => rfl
  | some profile => exact pluginOf?_changePlugin hf.label hkey profile

/-- So does a change of all profiles. -/
theorem deployed?_changeProfiles (project : Node) :
    deployed? (changeProfiles (changePlugin deployPlugin f) project)
      = (deployed? project).map f := by
  have hhosts : hostsPlugin deployPlugin ∘ changePlugin deployPlugin f
      = hostsPlugin deployPlugin :=
    funext (hostsPlugin_changePlugin hf hkey deployPlugin)
  rw [deployed?_eq, deployed?_eq, profiles_changeProfiles (inPlace_changePlugin ..).label,
    List.find?_map, hhosts]
  cases (profiles project).find? (hostsPlugin deployPlugin) with
  | none => rfl
  | some profile => exact pluginOf?_changePlugin hf.label hkey profile

end Deployed

/-- A change of a plugin of the project itself does not reach it. -/
theorem deployed?_changePlugin (key : PluginKey) (f : Node → Node) (project : Node) :
    deployed? (changePlugin key f project) = deployed? project := by
  have hne : "build" ≠ "profiles" := by decide
  have hprofiles : profiles (changePlugin key f project) = profiles project :=
    itemsOf_changeChild_of_ne (inPlace_changeChild _ _).label hne project
  rw [deployed?_eq, deployed?_eq, hprofiles]

/-! ## The project after an edit -/

section Edits

variable {style : Style} {fragment project after : Node}

theorem configuration?_insertDependency (group artifact version : String) :
    configuration? (insertDependency group artifact version style project)
      = configuration? project := by
  unfold configuration?
  rw [deployed?_eq, deployed?_eq, profiles_insertDependency]

/-- **A pin** of a project whose profiles declare the plugin leaves the configuration. -/
theorem configuration?_pin (hosted : (hosting deployPlugin project).isEmpty = false)
    (value : String) : configuration? (pin value style project) = configuration? project := by
  unfold pin
  dsimp only
  rw [hosted, if_neg Bool.false_ne_true]
  split
  · exact congrArg (fun plugin : Option Node => plugin.bind configurationOf)
      (deployed?_changePlugin deployPlugin (setVersion value style 3) project)
  · unfold configuration?
    rw [deployed?_changeProfiles (inPlace_setVersion value style 5)
      (pluginKey_setVersion value style 5)]
    cases deployed? project with
    | none => rfl
    | some plugin => exact configurationOf_setVersion value style 5 plugin

/-- A configuration is set where a profile declares the plugin, and fails nowhere else. -/
theorem configure?_eq_some (hosted : (hosting deployPlugin project).isEmpty = false) :
    configure? fragment style project
      = some (changeProfile (hostsPlugin deployPlugin)
          (changePlugin deployPlugin (setConfiguration fragment style 5)) project) := by
  unfold configure?
  rw [hosted, if_neg Bool.false_ne_true]

theorem isSome_deployed? (hosted : (hosting deployPlugin project).isEmpty = false) :
    ∃ plugin, deployed? project = some plugin := by
  obtain ⟨profile, profiles, hcons⟩ := List.exists_cons_of_ne_nil
    (List.isEmpty_eq_false_iff.mp hosted)
  have hhosts : hostsPlugin deployPlugin profile = true := by
    have hmem : profile ∈ hosting deployPlugin project := hcons ▸ List.mem_cons_self ..
    exact (List.mem_filter.mp hmem).2
  unfold deployed?
  rw [hcons]
  exact Option.isSome_iff_exists.mp hhosts

theorem updateFirst_id {α : Type} {test : α → Bool} (items : List α) :
    updateFirst test id items = items := by
  induction items with
  | nil => rfl
  | cons item items ih =>
    rw [updateFirst, ih]
    split <;> rfl

theorem updateEntry_id (key : PluginKey) (builds : List BuildOutline) :
    updateEntry key id builds = builds := by
  match builds with
  | [] => rfl
  | [] :: _ => rfl
  | (entries :: lists) :: builds => rw [updateEntry, updateFirst_id]

section Configure

variable (hosted : (hosting deployPlugin project).isEmpty = false)
  (hfragment : fragment.isNamed "configuration" = true)
  (h : configure? fragment style project = some after)

include hosted h

theorem dependencies_configure : dependencies after = dependencies project := by
  rw [configure?_eq_some hosted, Option.some.injEq] at h
  rw [← h]
  exact dependencies_changeProfiles project (modifyFirst _ _)

theorem label_configure : after.label = project.label := by
  rw [configure?_eq_some hosted, Option.some.injEq] at h
  rw [← h]
  rfl

include hfragment

/-- **A configuration set** is read back, but for its layout. -/
theorem configuration?_configure (hblank : Text.allBlank style.indent = true) :
    configuration? after = some (style.intoSpace fragment).bare := by
  rw [configure?_eq_some hosted, Option.some.injEq] at h
  obtain ⟨plugin, hplugin⟩ := isSome_deployed? hosted
  unfold configuration?
  rw [← h, deployed?_changeProfile (inPlace_setConfiguration ..)
    (pluginKey_setConfiguration hfragment style 5), hplugin]
  exact configurationOf_setConfiguration hblank hfragment 5 plugin

/-- A configuration set leaves the outline. -/
theorem outline_configure : outline after = outline project := by
  rw [configure?_eq_some hosted, Option.some.injEq] at h
  have hprofile : ∀ profile, profileOutline
      (changePlugin deployPlugin (setConfiguration fragment style 5) profile)
        = id (profileOutline profile) := by
    intro profile
    have hentry : ∀ plugin, entryOf (setConfiguration fragment style 5 plugin)
        = id (entryOf plugin) := entryOf_setConfiguration hfragment style 5
    rw [profileOutline_changePlugin (inPlace_setConfiguration ..) hentry]
    unfold ProfileOutline.change
    rw [updateEntry_id]
    rfl
  have htest : ∀ profile, hostsPlugin deployPlugin profile = (profileOutline profile).hosts :=
    fun profile => isSome_pluginOf? deployPlugin profile
  rw [← h, outline_changeProfile (inPlace_changePlugin ..) htest hprofile]
  have hsame : updateFirst ProfileOutline.hosts id = id := funext updateFirst_id
  unfold Outline.changeListed
  rw [hsame, List.modifyHead_id]
  rfl

end Configure

end Edits

end Pom

end Rollout
