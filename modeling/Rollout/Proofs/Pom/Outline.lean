import Rollout.Proofs.Pom.Children

/-!
# The outline of a descriptor

An outline holds what a descriptor says about plugins: the entries of every container, in order,
and for each entry its key, its version and its executions. The views read the first container
wherever there are several; the others are part of the outline so that it also says that they stay
as they are.

- `PluginEntry`, `ProfileOutline`, `Outline`: the data; `entryOf`, `profileOutline`, `outline` read
  it from a tree.
- `visible`, `Outline.listed`: the entries and profiles that the views see.
- `addEntry`, `updateEntry`: the two changes of the build blocks of one owner.
- `buildsOf_insertPlugin`, `buildsOf_changePlugin`: the edits of a build block, read as such
  changes.
- `outline_changeProfile`, `outline_changeProfiles`, `outline_insertProfile`: the edits of profiles.
-/

namespace Rollout.Pom

open Xml

/-! ## Data -/

/-- What a plugin entry declares. -/
structure PluginEntry where
  key : PluginKey
  version : Option String
  executions : List (Option String × List String)
  deriving DecidableEq, Repr

/-- The entries of a build block, for each of its lists of plugins. -/
abbrev BuildOutline := List (List PluginEntry)

/-- What a profile says: its id, and its build blocks. -/
structure ProfileOutline where
  id : Option String
  builds : List BuildOutline
  deriving DecidableEq, Repr

/-- What a project says: its build blocks, and the profiles of each of its lists of profiles. -/
structure Outline where
  builds : List BuildOutline
  profiles : List (List ProfileOutline)
  deriving DecidableEq, Repr

/-- What a plugin element declares. -/
def entryOf (plugin : Node) : PluginEntry :=
  ⟨pluginKey plugin, childText "version" plugin, executionsOf plugin⟩

/-- The entries of a list of plugins. -/
def entriesOf (plugins : Node) : List PluginEntry :=
  (plugins.childrenNamed "plugin").map entryOf

/-- The entries of a build block. -/
def buildOutline (build : Node) : BuildOutline :=
  (build.childrenNamed "plugins").map entriesOf

/-- The build blocks of a project or profile. -/
def buildsOf (owner : Node) : List BuildOutline :=
  (owner.childrenNamed "build").map buildOutline

/-- What a profile element says. -/
def profileOutline (profile : Node) : ProfileOutline :=
  ⟨profileId profile, buildsOf profile⟩

/-- The profiles of a list of profiles. -/
def profilesOf (block : Node) : List ProfileOutline :=
  (block.childrenNamed "profile").map profileOutline

/-- The outline of a project. -/
def outline (project : Node) : Outline :=
  ⟨buildsOf project, (project.childrenNamed "profiles").map profilesOf⟩

/-- The entries that lookups see: those of the first list of the first build block. -/
def visible (builds : List BuildOutline) : List PluginEntry :=
  (builds.headD []).headD []

/-- Whether lookups find an entry of this key. -/
def declares (key : PluginKey) (builds : List BuildOutline) : Bool :=
  (visible builds).any fun entry => entry.key == key

/-- The profiles that lookups see. -/
def Outline.listed (outline : Outline) : List ProfileOutline :=
  outline.profiles.headD []

/-! ## Changes of an outline -/

/-- The list with the first item that passes the test changed. -/
def updateFirst {α : Type} (test : α → Bool) (f : α → α) : List α → List α
  | [] => []
  | item :: items => if test item then f item :: items else item :: updateFirst test f items

/-- The build blocks with an entry at the end of the first list; what is missing is added. -/
def addEntry (entry : PluginEntry) : List BuildOutline → List BuildOutline
  | [] => [[[entry]]]
  | [] :: builds => [[entry]] :: builds
  | (entries :: lists) :: builds => ((entries ++ [entry]) :: lists) :: builds

/-- The build blocks with the first visible entry of a key changed. -/
def updateEntry (key : PluginKey) (f : PluginEntry → PluginEntry) :
    List BuildOutline → List BuildOutline
  | [] => []
  | [] :: builds => [] :: builds
  | (entries :: lists) :: builds =>
    (updateFirst (fun entry => entry.key == key) f entries :: lists) :: builds

/-- An entry with a version. -/
def PluginEntry.pinned (value : String) (entry : PluginEntry) : PluginEntry :=
  { entry with version := some value }

/-- A profile with its build blocks changed. -/
def ProfileOutline.change (f : List BuildOutline → List BuildOutline) (profile : ProfileOutline) :
    ProfileOutline :=
  { profile with builds := f profile.builds }

/-! ## Tails -/

theorem entryOf_tailFree : TailFree entryOf := fun _ _ => rfl

theorem entriesOf_tailFree : TailFree entriesOf := fun _ _ => rfl

theorem buildOutline_tailFree : TailFree buildOutline := fun _ _ => rfl

theorem profileOutline_tailFree : TailFree profileOutline := fun _ _ => rfl

theorem profilesOf_tailFree : TailFree profilesOf := fun _ _ => rfl

/-! ## Views and outlines -/

/-- The first match changed, seen through a function that turns the change into another. -/
theorem map_modifyFirst {β : Type} {g : Node → β} {f : Node → Node} {h : β → β}
    {test : Node → Bool} {test' : β → Bool} {nodes : List Node}
    (htest : ∀ node ∈ nodes, test node = test' (g node))
    (hf : ∀ node ∈ nodes, test node = true → g (f node) = h (g node)) :
    (modifyFirst test f nodes).map g = updateFirst test' h (nodes.map g) := by
  induction nodes with
  | nil => rfl
  | cons node nodes ih =>
    have hnode := htest node (List.mem_cons_self ..)
    have ih := ih (fun n hn => htest n (List.mem_cons_of_mem _ hn))
      fun n hn => hf n (List.mem_cons_of_mem _ hn)
    by_cases ht : test node = true
    · rw [modifyFirst, if_pos ht, List.map_cons, List.map_cons, updateFirst, if_pos (hnode ▸ ht),
        hf node (List.mem_cons_self ..) ht]
    · rw [modifyFirst, if_neg ht, List.map_cons, List.map_cons, updateFirst,
        if_neg (hnode ▸ ht), ih]

theorem map_pluginsOf (owner : Node) :
    (pluginsOf owner).map entryOf = visible (buildsOf owner) := by
  unfold pluginsOf visible buildsOf
  rw [child?_eq_head?]
  cases owner.childrenNamed "build" with
  | nil => rfl
  | cons build builds =>
    show (blockPlugins build).map entryOf = (buildOutline build).headD []
    unfold blockPlugins itemsOf buildOutline
    rw [child?_eq_head?]
    cases build.childrenNamed "plugins" <;> rfl

theorem map_profiles (project : Node) :
    (profiles project).map profileOutline = (outline project).listed := by
  unfold profiles itemsOf Outline.listed outline
  rw [child?_eq_head?]
  cases project.childrenNamed "profiles" <;> rfl

theorem isSome_pluginOf? (key : PluginKey) (owner : Node) :
    (pluginOf? key owner).isSome = declares key (buildsOf owner) := by
  unfold pluginOf? declares
  rw [List.isSome_find?, ← map_pluginsOf, List.any_map]
  rfl

/-! ## Build blocks after an edit -/

/-- The text of a child depends on the texts of the children of that name. -/
theorem childText_eq (name : String) (node : Node) :
    childText name node
      = (((node.childrenNamed name).map Node.text).headD none).map Text.strip := by
  unfold childText
  rw [child?_eq_head?]
  cases node.childrenNamed name <;> rfl

/-- The executions of a list of executions. -/
def runsOf (block : Node) : List (Option String × List String) :=
  (block.childrenNamed "execution").map fun execution =>
    (childText "id" execution, goalsOf execution)

theorem executionsOf_eq (plugin : Node) :
    executionsOf plugin = ((plugin.childrenNamed "executions").map runsOf).headD [] := by
  unfold executionsOf itemsOf
  rw [child?_eq_head?]
  cases plugin.childrenNamed "executions" <;> rfl

theorem inPlace_setVersion (value : String) (style : Style) (depth : Nat) :
    InPlace (setVersion value style depth) :=
  inPlace_withText ..

/-- A plugin with its version set declares what it did, with that version. -/
theorem entryOf_setVersion (value : String) (style : Style) (depth : Nat) (plugin : Node) :
    entryOf (setVersion value style depth plugin)
      = (entryOf plugin).pinned (Text.strip value) := by
  have htext : TailFree Node.text := fun _ _ => rfl
  have hruns : TailFree runsOf := fun _ _ => rfl
  -- all that is read apart from the version is under other names
  have hother : ∀ name, "version" ≠ name →
      childText name (setVersion value style depth plugin) = childText name plugin := by
    intro name hne
    rw [childText_eq, childText_eq, setVersion, map_childrenNamed_withText_of_ne _ _ htext hne]
  have hkey : pluginKey (setVersion value style depth plugin) = pluginKey plugin := by
    unfold pluginKey
    rw [hother "groupId" (by decide), hother "artifactId" (by decide)]
  have hexecutions : executionsOf (setVersion value style depth plugin) = executionsOf plugin := by
    rw [executionsOf_eq, executionsOf_eq, setVersion,
      map_childrenNamed_withText_of_ne _ _ hruns (by decide)]
  unfold entryOf
  rw [hkey, hexecutions, setVersion, childText_withText]
  rfl

theorem pluginKey_setVersion (value : String) (style : Style) (depth : Nat) (plugin : Node) :
    pluginKey (setVersion value style depth plugin) = pluginKey plugin :=
  congrArg PluginEntry.key (entryOf_setVersion value style depth plugin)

theorem inPlace_changePlugin (key : PluginKey) (f : Node → Node) : InPlace (changePlugin key f) :=
  inPlace_changeChild ..

/-- **A plugin changed in place**: the first visible entry of the key is changed. -/
theorem buildsOf_changePlugin {key : PluginKey} {f : Node → Node} {h : PluginEntry → PluginEntry}
    (hf : InPlace f) (hentry : ∀ plugin, entryOf (f plugin) = h (entryOf plugin)) (owner : Node) :
    buildsOf (changePlugin key f owner) = updateEntry key h (buildsOf owner) := by
  have hentries : ∀ block : Node,
      entriesOf { block with children := modifyFirst (isPlugin key) f block.children }
        = updateFirst (fun entry => entry.key == key) h (entriesOf block) := by
    intro block
    show ((modifyFirst (isPlugin key) f block.children).filter (Node.isNamed "plugin")).map entryOf
      = _
    -- a match is a plugin element, so the filter by name does not lose it
    have himp : ∀ node ∈ block.children, isPlugin key node = true → node.isNamed "plugin" = true :=
      fun _ _ ht => (Bool.and_eq_true_iff.mp ht).1
    rw [filter_modifyFirst_of_imp (fun n => isNamed_of_label (hf.label n) _) himp]
    refine map_modifyFirst (fun node hn => ?_) fun node _ _ => hentry node
    unfold isPlugin
    rw [(List.mem_filter.mp hn).2, Bool.true_and]
    rfl
  have hbuild : ∀ build : Node,
      buildOutline (changeChild "plugins"
          (fun block =>
            { block with children := modifyFirst (isPlugin key) f block.children }) build)
        = match buildOutline build with
          | [] => []
          | entries :: lists =>
            updateFirst (fun entry => entry.key == key) h entries :: lists := by
    intro build
    unfold buildOutline
    rw [childrenNamed_changeChild (inPlace_children _).label]
    cases build.childrenNamed "plugins" with
    | nil => rfl
    | cons block blocks =>
      show entriesOf _ :: blocks.map entriesOf = _
      rw [hentries]
      rfl
  unfold changePlugin buildsOf
  rw [childrenNamed_changeChild (inPlace_changeChild _ _).label]
  cases owner.childrenNamed "build" with
  | nil => rfl
  | cons build builds =>
    show buildOutline _ :: builds.map buildOutline = _
    rw [hbuild]
    show _ = updateEntry key h (buildOutline build :: builds.map buildOutline)
    cases buildOutline build <;> rfl

theorem inPlace_insertPlugin (plugin : Node) (style : Style) :
    InPlace (insertPlugin plugin style) :=
  inPlace_within ..

/-- **A plugin added to a profile**: its entry stands at the end of the visible ones. -/
theorem buildsOf_insertPlugin {plugin : Node} (hplugin : plugin.isNamed "plugin" = true)
    (style : Style) (profile : Node) :
    buildsOf (insertPlugin plugin style profile)
      = addEntry (entryOf (plugin.indented style.indent 5)) (buildsOf profile) := by
  have hentries : ∀ block : Node, entriesOf (style.insertLast 4 plugin block)
      = entriesOf block ++ [entryOf (plugin.indented style.indent 5)] := by
    intro block
    unfold entriesOf
    rw [map_childrenNamed_insertLast style 4 entryOf_tailFree, if_pos hplugin]
  have hbuild : ∀ build : Node,
      buildOutline (style.within 3 "plugins" (style.insertLast 4 plugin) build)
        = match buildOutline build with
          | [] => [[entryOf (plugin.indented style.indent 5)]]
          | entries :: lists =>
            (entries ++ [entryOf (plugin.indented style.indent 5)]) :: lists := by
    intro build
    unfold buildOutline
    rw [map_childrenNamed_within style 3 entriesOf_tailFree (inPlace_insertLast ..)]
    cases build.childrenNamed "plugins" with
    | nil => exact congrArg (fun entries => [entries]) (hentries _)
    | cons block blocks => exact congrArg (fun entries => entries :: _) (hentries block)
  unfold insertPlugin buildsOf
  rw [map_childrenNamed_within style 2 buildOutline_tailFree (inPlace_within ..)]
  cases profile.childrenNamed "build" with
  | nil => exact congrArg (fun build => [build]) (hbuild _)
  | cons build builds =>
    show buildOutline _ :: builds.map buildOutline
      = addEntry _ (buildOutline build :: builds.map buildOutline)
    rw [hbuild]
    cases buildOutline build <;> rfl

/-! ## Profiles after an edit -/

theorem childText_of_map_text {name : String} {a b : Node}
    (h : (a.childrenNamed name).map Node.text = (b.childrenNamed name).map Node.text) :
    childText name a = childText name b := by
  rw [childText_eq, childText_eq, h]

/-- A profile with a plugin changed. -/
theorem profileOutline_changePlugin {key : PluginKey} {f : Node → Node}
    {h : PluginEntry → PluginEntry} (hf : InPlace f)
    (hentry : ∀ plugin, entryOf (f plugin) = h (entryOf plugin)) (profile : Node) :
    profileOutline (changePlugin key f profile)
      = (profileOutline profile).change (updateEntry key h) := by
  have hid : profileId (changePlugin key f profile) = profileId profile := by
    refine childText_of_map_text ?_
    unfold changePlugin
    rw [childrenNamed_changeChild_of_ne (inPlace_changeChild _ _).label (by decide)]
  unfold profileOutline
  rw [hid, buildsOf_changePlugin hf hentry]
  rfl

/-- A profile with a plugin added. -/
theorem profileOutline_insertPlugin {plugin : Node} (hplugin : plugin.isNamed "plugin" = true)
    (style : Style) (profile : Node) :
    profileOutline (insertPlugin plugin style profile)
      = (profileOutline profile).change
          (addEntry (entryOf (plugin.indented style.indent 5))) := by
  have hid : profileId (insertPlugin plugin style profile) = profileId profile := by
    refine childText_of_map_text ?_
    unfold insertPlugin
    rw [map_childrenNamed_within_of_ne style 2 (fun _ _ => rfl) (inPlace_within ..) (by decide)]
  unfold profileOutline
  rw [hid, buildsOf_insertPlugin hplugin]
  rfl

/-- The outline with the profiles of the first list changed. -/
def Outline.changeListed (f : List ProfileOutline → List ProfileOutline) (outline : Outline) :
    Outline :=
  { outline with profiles := outline.profiles.modifyHead f }

/-- The lists of profiles with a profile at the end of the first one, which is added when there is
none. -/
def addProfile (profile : ProfileOutline) : List (List ProfileOutline) → List (List ProfileOutline)
  | [] => [[profile]]
  | first :: lists => (first ++ [profile]) :: lists

/-- A change of the first list of profiles, read from the outline. -/
theorem outline_changeBlock {f : Node → Node} {h : List ProfileOutline → List ProfileOutline}
    (hf : InPlace f) (hread : ∀ block, profilesOf (f block)
      = h (profilesOf block)) (project : Node) :
    outline (changeChild "profiles" f project) = (outline project).changeListed h := by
  unfold outline Outline.changeListed
  rw [childrenNamed_changeChild hf.label]
  unfold buildsOf
  rw [childrenNamed_changeChild_of_ne hf.label (by decide)]
  cases project.childrenNamed "profiles" with
  | nil => rfl
  | cons block blocks => exact congrArg (fun first => Outline.mk _ (first :: _)) (hread block)

/-- **One profile changed**: the first listed one that passes the test. -/
theorem outline_changeProfile {test : Node → Bool} {test' : ProfileOutline → Bool} {f : Node → Node}
    {h : ProfileOutline → ProfileOutline} (hf : InPlace f)
    (htest : ∀ profile, test profile = test' (profileOutline profile))
    (hread : ∀ profile, profileOutline (f profile) = h (profileOutline profile)) (project : Node) :
    outline (changeProfile test f project)
      = (outline project).changeListed (updateFirst test' h) := by
  refine outline_changeBlock (inPlace_children (modifyFirst _ f)) (fun block => ?_) project
  show ((modifyFirst _ f block.children).filter (Node.isNamed "profile")).map profileOutline = _
  rw [filter_modifyFirst_of_imp (fun n => isNamed_of_label (hf.label n) _)
    fun node _ ht => (Bool.and_eq_true_iff.mp ht).1]
  refine map_modifyFirst (fun node hn => ?_) fun node _ _ => hread node
  rw [(List.mem_filter.mp hn).2, Bool.true_and]
  exact htest node

/-- **All profiles changed**: every listed one. -/
theorem outline_changeProfiles {f : Node → Node} {h : ProfileOutline → ProfileOutline}
    (hf : InPlace f) (hread : ∀ profile, profileOutline (f profile) = h (profileOutline profile))
    (project : Node) :
    outline (changeProfiles f project) = (outline project).changeListed (List.map h) := by
  refine outline_changeBlock (inPlace_children (List.map _)) (fun block => ?_) project
  show ((block.children.map fun node => if node.isNamed "profile" then f node else node).filter
    (Node.isNamed "profile")).map profileOutline
    = ((block.children.filter (Node.isNamed "profile")).map profileOutline).map h
  induction block.children with
  | nil => rfl
  | cons node nodes ih =>
    by_cases hn : node.isNamed "profile" = true
    · have hfn : (f node).isNamed "profile" = true := (isNamed_of_label (hf.label node) _).trans hn
      simp only [List.map_cons, if_pos hn, List.filter_cons_of_pos hn, List.filter_cons_of_pos hfn,
        hread, ih]
    · simp only [List.map_cons, if_neg hn, List.filter_cons_of_neg hn, ih]

/-- A new profile says its id and nothing else. -/
theorem profileOutline_newProfile (id unit : String) (style : Style) (depth : Nat) :
    profileOutline ((newProfile id style).indented unit depth) = ⟨some (Text.strip id), []⟩ := rfl

/-- **A profile added**: it is the last listed one. -/
theorem outline_insertProfile (id : String) (style : Style) (project : Node) :
    outline (insertProfile id style project)
      = { outline project with
          profiles := addProfile ⟨some (Text.strip id), []⟩ (outline project).profiles } := by
  have hblock : ∀ block : Node, profilesOf (style.insertLast 1 (newProfile id style) block)
      = profilesOf block ++ [⟨some (Text.strip id), []⟩] := by
    intro block
    have hnamed : (newProfile id style).isNamed "profile" = true := rfl
    unfold profilesOf
    rw [map_childrenNamed_insertLast style 1 profileOutline_tailFree, if_pos hnamed,
      profileOutline_newProfile]
  have hinPlace := inPlace_insertLast style 1 (newProfile id style)
  unfold outline insertProfile
  rw [map_childrenNamed_within style 0 profilesOf_tailFree hinPlace]
  unfold buildsOf
  rw [map_childrenNamed_within_of_ne style 0 buildOutline_tailFree hinPlace (by decide)]
  cases project.childrenNamed "profiles" with
  | nil => exact congrArg (fun first => Outline.mk _ [first]) (hblock _)
  | cons block blocks => exact congrArg (fun first => Outline.mk _ (first :: _)) (hblock block)

/-- A plugin of the project changed leaves the profiles. -/
theorem outline_changePlugin {key : PluginKey} {f : Node → Node} {h : PluginEntry → PluginEntry}
    (hf : InPlace f) (hentry : ∀ plugin, entryOf (f plugin) = h (entryOf plugin)) (project : Node) :
    outline (changePlugin key f project)
      = { outline project with builds := updateEntry key h (outline project).builds } := by
  unfold outline
  rw [buildsOf_changePlugin hf hentry]
  unfold changePlugin
  rw [childrenNamed_changeChild_of_ne (inPlace_changeChild _ _).label (by decide)]

/-! ## The first match of a list -/

section UpdateFirst

variable {α : Type} {test : α → Bool} {f : α → α}

theorem updateFirst_of_none {items : List α} (h : ∀ item ∈ items, test item = false) :
    updateFirst test f items = items := by
  induction items with
  | nil => rfl
  | cons item items ih =>
    rw [updateFirst, h item (List.mem_cons_self ..), ih fun i hi => h i (List.mem_cons_of_mem _ hi)]
    rfl

/-- Behind items that do not match, the first match is changed. -/
theorem updateFirst_append {front : List α} (h : ∀ item ∈ front, test item = false)
    (items : List α) : updateFirst test f (front ++ items) = front ++ updateFirst test f items := by
  induction front with
  | nil => rfl
  | cons item front ih =>
    rw [List.cons_append, updateFirst, h item (List.mem_cons_self ..),
      ih fun i hi => h i (List.mem_cons_of_mem _ hi)]
    rfl

/-- **The first match** of a list that has one. -/
theorem exists_first {items : List α} (h : items.any test = true) :
    ∃ front item back, items = front ++ item :: back ∧ (∀ other ∈ front, test other = false) ∧
      test item = true := by
  induction items with
  | nil => exact absurd h Bool.false_ne_true
  | cons item items ih =>
    by_cases ht : test item = true
    · exact ⟨[], item, items, rfl, fun _ hm => (nomatch hm), ht⟩
    · rw [List.any_cons, Bool.eq_false_iff.mpr ht, Bool.false_or] at h
      obtain ⟨front, found, back, rfl, hfront, hfound⟩ := ih h
      refine ⟨item :: front, found, back, rfl, fun other ho => ?_, hfound⟩
      rcases List.mem_cons.mp ho with rfl | ho
      · exact Bool.eq_false_iff.mpr ht
      · exact hfront other ho

theorem updateFirst_split {front back : List α} {item : α}
    (hfront : ∀ other ∈ front, test other = false) (hitem : test item = true) :
    updateFirst test f (front ++ item :: back) = front ++ f item :: back := by
  rw [updateFirst_append hfront, updateFirst, if_pos hitem]

end UpdateFirst

/-- Without a visible entry of the key there is nothing to change. -/
theorem updateEntry_of_not_declares {key : PluginKey} {f : PluginEntry → PluginEntry}
    {builds : List BuildOutline} (h : declares key builds = false) :
    updateEntry key f builds = builds := by
  match builds, h with
  | [], _ => rfl
  | [] :: _, _ => rfl
  | (entries :: lists) :: builds, h =>
    rw [updateEntry, updateFirst_of_none fun entry hmem => ?_]
    exact Bool.eq_false_iff.mpr (List.any_eq_false.mp h entry hmem)

end Rollout.Pom
