import Rollout.Proofs.Pom.Outline

/-!
# Views after an edit

What the views of a descriptor give after an edit, in terms of what they gave before. A view reads
the items of the first container of a name, so that it only depends on the children of the
containers.

- `itemsOf_congr`: items are read from the children of the containers.
- `profiles_changeProfile`, `profiles_changeProfiles`, `pluginOf?_changePlugin`: **the edits of
  profiles and plugins**, read through the views that find these.
- `dependencies_insertDependency`: a dependency added is the last one.
- `dependencies_pin`, `profiles_insertDependency`: what an edit does not reach.
-/

namespace Rollout.Pom

open Xml

/-! ## Items -/

/-- Items are read from the children of the containers. -/
theorem itemsOf_eq (container item : String) (node : Node) :
    itemsOf container item node
      = (((node.childrenNamed container).map Node.children).headD []).filter
          (Node.isNamed item) := by
  unfold itemsOf
  rw [child?_eq_head?]
  cases node.childrenNamed container <;> rfl

theorem itemsOf_congr {container : String} {a b : Node}
    (h : (a.childrenNamed container).map Node.children
      = (b.childrenNamed container).map Node.children) (item : String) :
    itemsOf container item a = itemsOf container item b := by
  rw [itemsOf_eq, itemsOf_eq, h]

theorem children_tailFree : TailFree Node.children := fun _ _ => rfl

section Items

variable {container item other : String} {f : Node → Node}

/-- Items of a container whose children are changed. -/
theorem itemsOf_changeChild {k k' : List Node → List Node} (hnil : k' [] = [])
    (hk : ∀ nodes : List Node, (k nodes).filter (Node.isNamed item)
      = k' (nodes.filter (Node.isNamed item))) (owner : Node) :
    itemsOf container item
        (changeChild container (fun block => { block with children := k block.children }) owner)
      = k' (itemsOf container item owner) := by
  rw [itemsOf_eq, itemsOf_eq, childrenNamed_changeChild (inPlace_children k).label]
  cases owner.childrenNamed container with
  | nil => exact hnil.symm
  | cons block blocks => exact hk block.children

/-- Items of a container that the change does not reach. -/
theorem itemsOf_changeChild_of_ne (hf : ∀ node, (f node).label = node.label)
    (hne : other ≠ container) (owner : Node) :
    itemsOf container item (changeChild other f owner) = itemsOf container item owner :=
  itemsOf_congr (by rw [childrenNamed_changeChild_of_ne hf hne]) item

theorem itemsOf_within_of_ne (style : Style) (depth : Nat) (hf : InPlace f)
    (hne : other ≠ container) (owner : Node) :
    itemsOf container item (style.within depth other f owner) = itemsOf container item owner :=
  itemsOf_congr (map_childrenNamed_within_of_ne style depth children_tailFree hf hne owner) item

/-- An item added to a container is the last one, seen without its tail. -/
theorem map_itemsOf_within {β : Type} {g : Node → β} (hg : TailFree g) (style : Style)
    (depth : Nat) {child : Node} (hchild : child.isNamed item = true) (owner : Node) :
    (itemsOf container item
        (style.within depth container (style.insertLast (depth + 1) child) owner)).map g
      = (itemsOf container item owner).map g
        ++ [g (child.indented style.indent (depth + 2))] := by
  have hread : TailFree fun block : Node => (block.childrenNamed item).map g := fun _ _ => rfl
  have hblocks := map_childrenNamed_within style depth hread
    (inPlace_insertLast style (depth + 1) child) container owner
  have hinsert : ∀ block : Node,
      ((style.insertLast (depth + 1) child block).childrenNamed item).map g
        = (block.childrenNamed item).map g ++ [g (child.indented style.indent (depth + 2))] := by
    intro block
    rw [map_childrenNamed_insertLast style (depth + 1) hg, if_pos hchild]
  have hitems : ∀ node : Node, (itemsOf container item node).map g
      = ((node.childrenNamed container).map fun block => (block.childrenNamed item).map g).headD
          [] := by
    intro node
    unfold itemsOf
    rw [child?_eq_head?]
    cases node.childrenNamed container <;> rfl
  rw [hitems, hitems, hblocks]
  cases owner.childrenNamed container with
  | nil => exact hinsert _
  | cons block blocks => exact hinsert block

end Items

/-! ## Profiles and plugins -/

theorem modifyFirst_congr {test test' : Node → Bool} {f : Node → Node} {nodes : List Node}
    (h : ∀ node ∈ nodes, test node = test' node) :
    modifyFirst test f nodes = modifyFirst test' f nodes := by
  induction nodes with
  | nil => rfl
  | cons node nodes ih =>
    obtain ⟨hnode, hnodes⟩ := List.forall_mem_cons.mp h
    rw [modifyFirst, modifyFirst, hnode, ih hnodes]

/-- Among items of one name, the first match is looked for by the rest of the test. -/
theorem filter_modifyFirst_named {item : String} {test : Node → Bool} {f : Node → Node}
    (hf : ∀ node, (f node).label = node.label) (nodes : List Node) :
    (modifyFirst (fun node => node.isNamed item && test node) f nodes).filter (Node.isNamed item)
      = modifyFirst test f (nodes.filter (Node.isNamed item)) := by
  rw [filter_modifyFirst_of_imp (fun node => isNamed_of_label (hf node) item)
    fun _ _ h => (Bool.and_eq_true_iff.mp h).1]
  refine modifyFirst_congr fun node hnode => ?_
  rw [(List.mem_filter.mp hnode).2, Bool.true_and]

/-- The first match is found again after its change. -/
theorem find?_modifyFirst {test : Node → Bool} {f : Node → Node}
    (htest : ∀ node, test node = true → test (f node) = true) (nodes : List Node) :
    (modifyFirst test f nodes).find? test = (nodes.find? test).map f := by
  induction nodes with
  | nil => rfl
  | cons node nodes ih =>
    by_cases ht : test node = true
    · rw [modifyFirst, if_pos ht, List.find?_cons_of_pos (htest node ht),
        List.find?_cons_of_pos ht]
      rfl
    · rw [modifyFirst, if_neg ht, List.find?_cons_of_neg ht, List.find?_cons_of_neg ht, ih]

section Profiles

variable {f : Node → Node} {test : Node → Bool}

/-- **One profile changed**: the first that passes the test. -/
theorem profiles_changeProfile (hf : ∀ node, (f node).label = node.label) (project : Node) :
    profiles (changeProfile test f project) = modifyFirst test f (profiles project) :=
  itemsOf_changeChild rfl (filter_modifyFirst_named hf) project

/-- **All profiles changed.** -/
theorem profiles_changeProfiles (hf : ∀ node, (f node).label = node.label) (project : Node) :
    profiles (changeProfiles f project) = (profiles project).map f := by
  refine itemsOf_changeChild rfl (fun nodes => ?_) project
  induction nodes with
  | nil => rfl
  | cons node nodes ih =>
    by_cases hn : node.isNamed "profile" = true
    · have hfn : (f node).isNamed "profile" = true := (isNamed_of_label (hf node) _).trans hn
      rw [List.map_cons, if_pos hn, List.filter_cons_of_pos hn, List.filter_cons_of_pos hfn, ih,
        List.map_cons]
    · rw [List.map_cons, if_neg hn, List.filter_cons_of_neg hn, List.filter_cons_of_neg hn, ih]

/-- The plugins of an owner are the items of its first build block. -/
theorem pluginsOf_eq (owner : Node) :
    pluginsOf owner
      = (((owner.childrenNamed "build").map blockPlugins).headD []) := by
  unfold pluginsOf
  rw [child?_eq_head?]
  cases owner.childrenNamed "build" <;> rfl

theorem pluginsOf_changePlugin {key : PluginKey} (hf : ∀ node, (f node).label = node.label)
    (owner : Node) :
    pluginsOf (changePlugin key f owner)
      = modifyFirst (fun plugin => pluginKey plugin == key) f (pluginsOf owner) := by
  have hblock : ∀ build : Node, blockPlugins (changeChild "plugins"
      (fun plugins => { plugins with children := modifyFirst (isPlugin key) f plugins.children })
      build) = modifyFirst (fun plugin => pluginKey plugin == key) f (blockPlugins build) :=
    itemsOf_changeChild rfl (filter_modifyFirst_named hf)
  rw [pluginsOf_eq, pluginsOf_eq, changePlugin,
    childrenNamed_changeChild (inPlace_changeChild _ _).label]
  cases owner.childrenNamed "build" with
  | nil => rfl
  | cons build builds => exact hblock build

/-- **A plugin changed** is found again under its key. -/
theorem pluginOf?_changePlugin {key : PluginKey} (hf : ∀ node, (f node).label = node.label)
    (hkey : ∀ plugin, pluginKey (f plugin) = pluginKey plugin) (owner : Node) :
    pluginOf? key (changePlugin key f owner) = (pluginOf? key owner).map f := by
  unfold pluginOf?
  rw [pluginsOf_changePlugin hf]
  exact find?_modifyFirst (fun plugin h => by rwa [hkey]) _

end Profiles

/-! ## Dependencies -/

theorem isNamed_dependency (group artifact version : Node) (style : Style) :
    (style.newElement "dependency" [group, artifact, version]).isNamed "dependency" = true := rfl

/-- **A dependency added** is the last one, with its texts stripped. -/
theorem dependencies_insertDependency (group artifact version : String) (style : Style)
    (project : Node) :
    dependencies (insertDependency group artifact version style project)
      = dependencies project
        ++ [⟨some (Text.strip group), some (Text.strip artifact), some (Text.strip version)⟩] := by
  have hcoordinates : TailFree coordinates := fun _ _ => rfl
  exact map_itemsOf_within hcoordinates style 0 (isNamed_dependency ..) project

/-- A dependency added does not reach the profiles. -/
theorem profiles_insertDependency (group artifact version : String) (style : Style)
    (project : Node) :
    profiles (insertDependency group artifact version style project) = profiles project :=
  itemsOf_within_of_ne style 0 (inPlace_insertLast ..) (by decide) project

theorem outline_insertDependency (group artifact version : String) (style : Style)
    (project : Node) :
    outline (insertDependency group artifact version style project) = outline project := by
  unfold outline buildsOf insertDependency
  rw [map_childrenNamed_within_of_ne style 0 buildOutline_tailFree (inPlace_insertLast ..)
      (by decide),
    map_childrenNamed_within_of_ne style 0 profilesOf_tailFree (inPlace_insertLast ..) (by decide)]

section Dependencies

variable (f : Node → Node) (project : Node)

/-- A change of a plugin does not reach the dependencies. -/
theorem dependencies_changePlugin (key : PluginKey) :
    dependencies (changePlugin key f project) = dependencies project := by
  have hne : "build" ≠ "dependencies" := by decide
  exact congrArg (List.map coordinates)
    (itemsOf_changeChild_of_ne (inPlace_changeChild _ _).label hne project)

/-- A change of profiles does not reach the dependencies. -/
theorem dependencies_changeProfiles (k : List Node → List Node) :
    dependencies (changeChild "profiles" (fun block => { block with children := k block.children })
      project) = dependencies project := by
  have hne : "profiles" ≠ "dependencies" := by decide
  exact congrArg (List.map coordinates)
    (itemsOf_changeChild_of_ne (inPlace_children k).label hne project)

end Dependencies

/-- A declaration of the deployment plugin does not reach the dependencies. -/
theorem dependencies_declareHost (style : Style) (project : Node) :
    dependencies (declareHost style project) = dependencies project := by
  have hprepared : dependencies (if (profileOf? deployProfile project).isSome then project
      else insertProfile deployProfile style project) = dependencies project := by
    split
    · rfl
    · exact congrArg (List.map coordinates)
        (itemsOf_within_of_ne style 0 (inPlace_insertLast ..) (by decide) project)
  rw [← hprepared]
  exact dependencies_changeProfiles _ (modifyFirst _ _)

/-- A pin does not reach the dependencies. -/
theorem dependencies_pin (value : String) (style : Style) (project : Node) :
    dependencies (pin value style project) = dependencies project := by
  have hhosted : dependencies (if (hosting deployPlugin project).isEmpty
      then declareHost style project else project) = dependencies project := by
    split
    · exact dependencies_declareHost style project
    · rfl
  unfold pin
  dsimp only
  rw [← hhosted]
  generalize (if (hosting deployPlugin project).isEmpty then declareHost style project
    else project) = hosted
  split
  · exact dependencies_changePlugin _ _ deployPlugin
  · exact dependencies_changeProfiles _ (List.map _)

end Rollout.Pom
