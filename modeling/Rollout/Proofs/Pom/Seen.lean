import Mathlib.Data.List.DropRight
import Rollout.Proofs.Pom.Outline
import Rollout.Proofs.Xml.Inserted

/-!
# What the views see of a descriptor

The views find children by name and strip what they read.

- `seen`: the elements of a tree and their stripped texts, which is all that the views read
  (`projectView_seen`).
- `exists_shortened`: a comment is not seen, but the text that it parts is seen shorter.
-/

namespace Rollout

namespace Text

theorem stripClass_stripClass (drop : Char → Bool) (cs : List Char) :
    stripClass drop (stripClass drop cs) = stripClass drop cs := by
  have hends : ∀ cs : List Char, stripClass drop cs = (cs.dropWhile drop).rdropWhile drop :=
    fun _ => rfl
  -- what is left begins with no character of the class, so that nothing goes at the front
  have hfront : ((cs.dropWhile drop).rdropWhile drop).dropWhile drop
      = (cs.dropWhile drop).rdropWhile drop := by
    obtain ⟨rest, hrest⟩ := List.rdropWhile_prefix drop (cs.dropWhile drop)
    cases hkept : (cs.dropWhile drop).rdropWhile drop with
    | nil => rfl
    | cons c kept =>
      rw [hkept] at hrest
      have hc : drop c = false := by
        have hhead := List.head?_dropWhile_not drop cs
        rw [← hrest] at hhead
        simpa using hhead
      rw [List.dropWhile_cons_of_neg (by simp [hc])]
  rw [hends (stripClass drop cs), hends, hfront, List.rdropWhile_idempotent]

theorem strip_strip (text : String) : strip (strip text) = strip text := by
  simp only [strip, String.toList_ofList, stripClass_stripClass]

end Text

namespace Pom

open Xml

/-! ## What is seen of a tree -/

mutual

/-- The elements of a tree with their texts, without the blanks around these. -/
def seen : Node → Node
  | ⟨label, text, children, _⟩ => ⟨label, text.map Text.strip, seenAll children, none⟩

/-- The elements among some trees. -/
def seenAll : List Node → List Node
  | [] => []
  | node :: nodes => if node.name?.isSome then seen node :: seenAll nodes else seenAll nodes

end

theorem seen_eq (node : Node) :
    seen node = ⟨node.label, node.text.map Text.strip, seenAll node.children, none⟩ := by
  obtain ⟨label, text, children, tail⟩ := node
  rw [seen]

theorem seen_withTail (node : Node) (tail : Option String) :
    seen { node with tail := tail } = seen node := by
  rw [seen_eq, seen_eq]

theorem seenAll_eq (nodes : List Node) :
    seenAll nodes = (nodes.filter fun node => node.name?.isSome).map seen := by
  induction nodes with
  | nil => rw [seenAll]; rfl
  | cons node nodes ih =>
    rw [seenAll, List.filter_cons, ih]
    split <;> rfl

theorem seenAll_append (front back : List Node) :
    seenAll (front ++ back) = seenAll front ++ seenAll back := by
  rw [seenAll_eq, seenAll_eq, seenAll_eq, List.filter_append, List.map_append]

theorem seenAll_cons (node : Node) (nodes : List Node) :
    seenAll (node :: nodes) = seenAll [node] ++ seenAll nodes :=
  seenAll_append [node] nodes

theorem seenAll_singleton_congr {node node' : Node} (hlabel : node'.label = node.label)
    (h : seen node' = seen node) : seenAll [node'] = seenAll [node] := by
  have hname : node'.name? = node.name? := congrArg Label.name? hlabel
  simp only [seenAll, h, hname]

/-- A comment or an instruction is not seen. -/
theorem seenAll_mark {mark : Node} (hmark : mark.name? = none) (rest : Option String) :
    seenAll [{ mark with tail := rest }] = [] := by
  have hname : Node.name? { mark with tail := rest } = none := hmark
  rw [seenAll, hname]
  rw [seenAll]
  rfl

section Inserted

variable {mark node after cut : Node} {whole part : Option String}

theorem label_of_inserted (h : Inserted mark whole part node after) : after.label = node.label := by
  cases h <;> rfl

theorem label_of_shortened (h : Shortened whole part node cut) : cut.label = node.label := by
  cases h <;> rfl

/-- **A comment is not seen** but for the text that it parts. -/
theorem exists_shortened (hmark : mark.name? = none) (h : Inserted mark whole part node after) :
    ∃ cut, Shortened whole part node cut ∧ seen after = seen cut := by
  induction h with
  | @first label whole part rest tail children =>
    refine ⟨_, .here, ?_⟩
    rw [seen_eq, seen_eq]
    dsimp only
    rw [seenAll_cons, seenAll_mark hmark, List.nil_append]
  | @behind label text kept rest tail child front back =>
    refine ⟨_, .here, ?_⟩
    have hchild : seenAll [{ child with tail := kept }] = seenAll [child] :=
      seenAll_singleton_congr rfl (seen_withTail child kept)
    rw [seen_eq, seen_eq]
    dsimp only
    rw [seenAll_append, seenAll_append, seenAll_cons, hchild,
      seenAll_cons { mark with tail := rest } back, seenAll_mark hmark, List.nil_append,
      ← seenAll_cons child]
  | @inside label whole part text tail child child' front back inserted ih =>
    obtain ⟨cut, hcut, hseen⟩ := ih
    refine ⟨⟨label, text, front ++ cut :: back, tail⟩, .inside hcut, ?_⟩
    have hlabel : child'.label = cut.label :=
      (label_of_inserted inserted).trans (label_of_shortened hcut).symm
    rw [seen_eq, seen_eq]
    dsimp only
    rw [seenAll_append, seenAll_append, seenAll_cons, seenAll_cons cut,
      seenAll_singleton_congr hlabel hseen]

/-- A text that only loses blanks at its end looks the same. -/
theorem seen_of_shortened (h : Shortened whole part node cut)
    (hstrip : part.map Text.strip = whole.map Text.strip) : seen cut = seen node := by
  induction h with
  | here =>
    rw [seen_eq, seen_eq]
    dsimp only
    rw [hstrip]
  | @inside label text tail child child' front back shortened ih =>
    rw [seen_eq, seen_eq]
    dsimp only
    rw [seenAll_append, seenAll_append, seenAll_cons, seenAll_cons child,
      seenAll_singleton_congr (label_of_shortened shortened) ih]

end Inserted

/-! ## Views of what is seen -/

section Views

variable (node : Node) (name : String)

theorem isNamed_seen : (seen node).isNamed name = node.isNamed name := by
  rw [seen_eq]
  rfl

/-- Children are found by name, so that all that are found are elements. -/
theorem childrenNamed_seen :
    (seen node).childrenNamed name = (node.childrenNamed name).map seen := by
  have helement : ∀ child : Node,
      (child.name?.isSome && child.isNamed name) = child.isNamed name := by
    intro child
    unfold Node.isNamed
    cases child.name? <;> rfl
  have hseen : Node.isNamed name ∘ seen = Node.isNamed name :=
    funext fun child => isNamed_seen child name
  rw [seen_eq]
  unfold Node.childrenNamed
  dsimp only
  rw [seenAll_eq, List.filter_map, hseen, List.filter_filter]
  simp only [Bool.and_comm (Node.isNamed name _), helement]

theorem child?_seen : (seen node).child? name = (node.child? name).map seen := by
  rw [child?_eq_head?, child?_eq_head?, childrenNamed_seen, List.head?_map]

theorem childText_seen : childText name (seen node) = childText name node := by
  unfold childText
  rw [child?_seen]
  cases node.child? name with
  | none => rfl
  | some child =>
    rw [Option.map_some, Option.bind_some, Option.bind_some, seen_eq]
    cases child.text with
    | none => rfl
    | some text => exact congrArg some (Text.strip_strip text)

theorem itemsOf_seen (container : String) :
    itemsOf container name (seen node) = (itemsOf container name node).map seen := by
  unfold itemsOf
  rw [child?_seen]
  cases node.child? container with
  | none => rfl
  | some block => exact childrenNamed_seen block name

end Views

theorem pluginKey_seen (plugin : Node) : pluginKey (seen plugin) = pluginKey plugin := by
  unfold pluginKey
  rw [childText_seen, childText_seen]

theorem executionsOf_seen (plugin : Node) : executionsOf (seen plugin) = executionsOf plugin := by
  have hgoal : ∀ goal : Node,
      Text.strip ((seen goal).text.getD "") = Text.strip (goal.text.getD "") := by
    intro goal
    rw [seen_eq]
    cases goal.text with
    | none => rfl
    | some text => exact Text.strip_strip text
  have hgoals : ∀ execution : Node, goalsOf (seen execution) = goalsOf execution := by
    intro execution
    unfold goalsOf
    rw [itemsOf_seen, List.map_map]
    exact List.map_congr_left fun goal _ => hgoal goal
  unfold executionsOf
  rw [itemsOf_seen, List.map_map]
  refine List.map_congr_left fun execution _ => ?_
  exact congrArg₂ Prod.mk (childText_seen execution "id") (hgoals execution)

theorem entryOf_seen (plugin : Node) : entryOf (seen plugin) = entryOf plugin := by
  unfold entryOf
  rw [pluginKey_seen, childText_seen, executionsOf_seen]

theorem pluginsOf_seen (owner : Node) : pluginsOf (seen owner) = (pluginsOf owner).map seen := by
  unfold pluginsOf
  rw [child?_seen]
  cases owner.child? "build" with
  | none => rfl
  | some build => exact itemsOf_seen build "plugin" "plugins"

/-! ## All views -/

/-- What the views of a profile read: its id and the plugins of its build block. -/
structure ProfileView where
  id : Option String
  plugins : List PluginEntry
  deriving DecidableEq, Repr

/-- What the views of a project read. -/
structure ProjectView where
  artifactId : Option String
  version : Option String
  dependencies : List Coordinates
  plugins : List PluginEntry
  profiles : List ProfileView
  /-- The profiles that declare a plugin. -/
  hosting : PluginKey → List ProfileView

/-- The plugins of the build block of a project or profile. -/
def pluginViews (owner : Node) : List PluginEntry :=
  (pluginsOf owner).map entryOf

/-- The views of a profile. -/
def profileView (profile : Node) : ProfileView :=
  ⟨profileId profile, pluginViews profile⟩

/-- All views of a descriptor. -/
def projectView (project : Node) : ProjectView where
  artifactId := artifactId project
  version := version project
  dependencies := dependencies project
  plugins := pluginViews project
  profiles := (profiles project).map profileView
  hosting key := (hosting key project).map profileView

theorem pluginViews_seen (owner : Node) : pluginViews (seen owner) = pluginViews owner := by
  unfold pluginViews
  rw [pluginsOf_seen, List.map_map]
  exact List.map_congr_left fun plugin _ => entryOf_seen plugin

theorem profileView_seen (profile : Node) : profileView (seen profile) = profileView profile := by
  unfold profileView profileId
  rw [childText_seen, pluginViews_seen]

theorem hostsPlugin_seen (key : PluginKey) (profile : Node) :
    hostsPlugin key (seen profile) = hostsPlugin key profile := by
  have hkey : ((fun plugin => pluginKey plugin == key) ∘ seen)
      = fun plugin => pluginKey plugin == key := by
    funext plugin
    rw [Function.comp_apply, pluginKey_seen]
  unfold hostsPlugin pluginOf?
  rw [pluginsOf_seen, List.find?_map, hkey, Option.isSome_map]

theorem version_seen (project : Node) : version (seen project) = version project := by
  unfold version
  rw [childText_seen, child?_seen]
  cases project.child? "parent" with
  | none => rfl
  | some parent =>
    rw [Option.map_some, Option.bind_some, Option.bind_some, childText_seen]

theorem dependencies_seen (project : Node) :
    dependencies (seen project) = dependencies project := by
  unfold dependencies
  rw [itemsOf_seen, List.map_map]
  refine List.map_congr_left fun dependency _ => ?_
  simp only [Function.comp_apply, coordinates, childText_seen]

/-- **The views read what is seen** and nothing else. -/
theorem projectView_seen (project : Node) : projectView (seen project) = projectView project := by
  have hprofiles : profiles (seen project) = (profiles project).map seen :=
    itemsOf_seen project "profile" "profiles"
  have hprofile : profileView ∘ seen = profileView := funext profileView_seen
  have hhosting : ∀ key, (hosting key (seen project)).map profileView
      = (hosting key project).map profileView := by
    intro key
    have hhosts : hostsPlugin key ∘ seen = hostsPlugin key := funext (hostsPlugin_seen key)
    unfold hosting
    rw [hprofiles, List.filter_map, hhosts, List.map_map, hprofile]
  have hartifact : artifactId (seen project) = artifactId project :=
    childText_seen project "artifactId"
  simp only [projectView, hartifact, version_seen, dependencies_seen, pluginViews_seen, hprofiles,
    List.map_map, hprofile, hhosting]

/-- **A comment put into a project** is not seen but for the text that it parts. -/
theorem exists_projectView_eq {mark project after : Node} {whole part : Option String}
    (hmark : mark.name? = none) (h : Inserted mark whole part project after) :
    ∃ cut, Shortened whole part project cut ∧ projectView after = projectView cut ∧
      (part.map Text.strip = whole.map Text.strip → projectView after = projectView project) := by
  obtain ⟨cut, hcut, hseen⟩ := exists_shortened hmark h
  have hviews : projectView after = projectView cut := by
    rw [← projectView_seen after, hseen, projectView_seen]
  refine ⟨cut, hcut, hviews, fun hstrip => ?_⟩
  rw [hviews, ← projectView_seen cut, seen_of_shortened hcut hstrip, projectView_seen]

end Pom

end Rollout
