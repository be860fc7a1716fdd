import Rollout.Proofs.Pom.Configuration

/-!
# Edits in a row

Each edit looks for its target in the tree that the edits before it left. What a project says about
its dependencies and its deployment plugin evolves without looking at the tree: the state after an
edit is computed from the state before it.

- `Edit`, `run`: edits, and a project after edits in a row.
- `State`, `stateOf`: what is followed of a project; `State.next` is the state after an edit.
- `perform?_stateOf`: **one edit** succeeds and leads to the next state.
- `run_stateOf`: **edits in a row** do, by induction.
- `State.foldl_next`: the state after edits in a row, in closed form.
- `run_pin_refines`: what a project says after a pin and any edits behind it.

A profile declares the deployment plugin from the first pin on; this is the invariant that the
induction carries, besides the namespace of the document.
-/

namespace Rollout.Pom

open Xml

/-! ## Edits -/

/-- An edit of a project. -/
inductive Edit
  | pin (version : String)
  | dependency (group artifact version : String)
  | configure (fragment : Node)

namespace Edit

/-- A version has no blanks around it, and a fragment is a configuration. -/
def Proper : Edit → Prop
  | pin version => Text.strip version = version
  | dependency _ _ _ => True
  | configure fragment => fragment.isNamed "configuration" = true

instance : DecidablePred Proper
  | pin version => inferInstanceAs (Decidable (Text.strip version = version))
  | dependency _ _ _ => inferInstanceAs (Decidable True)
  | configure fragment => inferInstanceAs (Decidable (fragment.isNamed "configuration" = true))

/-- The project after an edit; nothing when the edit fails. -/
def perform? (style : Style) (project : Node) : Edit → Option Node
  | pin version => some (Pom.pin version style project)
  | dependency group artifact version =>
    some (insertDependency group artifact version style project)
  | configure fragment => configure? fragment style project

/-- The version that is pinned. -/
def version? : Edit → Option String
  | pin version => some version
  | _ => none

/-- The coordinates of the dependency that is added. -/
def coordinates? : Edit → Option Coordinates
  | dependency group artifact version =>
    some ⟨some (Text.strip group), some (Text.strip artifact), some (Text.strip version)⟩
  | _ => none

/-- The fragment that is set. -/
def fragment? : Edit → Option Node
  | configure fragment => some fragment
  | _ => none

end Edit

/-- The project after edits in a row; nothing when one of them fails. New elements are in the
namespace of the project; `unit` is the unit of indentation that an edit finds in the tree before
it. -/
def run (unit : Node → String) (edits : List Edit) (project : Node) : Option Node :=
  edits.foldlM (fun tree edit => edit.perform? ⟨spaceOf tree, unit tree⟩ tree) project

/-! ## States -/

/-- What is followed of a project: its dependencies, what it says about plugins, and the
configuration of the deployment plugin without its layout. -/
structure State where
  dependencies : List Coordinates
  outline : Outline
  configuration : Option Node

/-- The state of a project. -/
def stateOf (project : Node) : State :=
  ⟨dependencies project, outline project, configuration? project⟩

/-- A fragment in a document of this namespace, without layout. -/
def adopted (space : String) (fragment : Node) : Node :=
  (Style.intoSpace ⟨space, defaultIndent⟩ fragment).bare

/-- The state after an edit, once a profile declares the deployment plugin. -/
def State.next (space : String) (state : State) : Edit → State
  | .pin version => { state with outline := state.outline.pinned version }
  | .dependency group artifact version =>
    { state with
      dependencies := state.dependencies
        ++ [⟨some (Text.strip group), some (Text.strip artifact), some (Text.strip version)⟩] }
  | .configure fragment => { state with configuration := some (adopted space fragment) }

/-! ## One edit -/

/-- A listed profile declares the deployment plugin. -/
def Hosted (project : Node) : Prop :=
  (hosting deployPlugin project).isEmpty = false

theorem hosted_iff {project : Node} :
    Hosted project ↔ (outline project).listed.any ProfileOutline.hosts = true := by
  unfold Hosted
  rw [hosting_isEmpty]
  simp

theorem Hosted.of_outline_eq {project after : Node} (h : Hosted project)
    (houtline : outline after = outline project) : Hosted after := by
  rw [hosted_iff] at h ⊢
  rwa [houtline]

/-- A pin leaves a profile that declares the deployment plugin. -/
theorem hosted_pin {version : String} (stripped : Text.strip version = version) (style : Style)
    (project : Node) : Hosted (pin version style project) := by
  rw [hosted_iff, outline_pin stripped]
  exact hosts_pinned version (exists_host_of_declares (declares_declared (outline project)))

theorem spaceOf_congr {a b : Node} (h : a.label = b.label) : spaceOf a = spaceOf b := by
  unfold spaceOf Node.name?
  rw [h]

/-- **One edit** of a project where a profile declares the deployment plugin. -/
theorem perform?_stateOf {edit : Edit} {project : Node} {unit : String} (hosted : Hosted project)
    (hunit : Text.allBlank unit = true) (hproper : edit.Proper) :
    ∃ after, edit.perform? ⟨spaceOf project, unit⟩ project = some after ∧
      stateOf after = (stateOf project).next (spaceOf project) edit ∧
      spaceOf after = spaceOf project ∧ Hosted after := by
  cases edit with
  | pin version =>
    have hdeclared : (outline project).declared = outline project := by
      unfold Outline.declared
      rw [if_pos (hosted_iff.mp hosted)]
    have hkept := @kept_pin ⟨spaceOf project, unit⟩ hunit version project
    refine ⟨_, rfl, ?_, spaceOf_congr hkept.label, hosted_pin hproper _ project⟩
    unfold stateOf State.next
    rw [dependencies_pin, outline_pin hproper, hdeclared, configuration?_pin hosted]
  | dependency group artifact version =>
    have hlabel : (insertDependency group artifact version ⟨spaceOf project, unit⟩ project).label
        = project.label := (inPlace_within ..).label project
    refine ⟨_, rfl, ?_, spaceOf_congr hlabel,
      hosted.of_outline_eq (outline_insertDependency ..)⟩
    unfold stateOf State.next
    rw [dependencies_insertDependency, outline_insertDependency,
      configuration?_insertDependency]
  | configure fragment =>
    have hafter := @configure?_eq_some ⟨spaceOf project, unit⟩ fragment project hosted
    have houtline := outline_configure hosted hproper hafter
    refine ⟨_, hafter, ?_, spaceOf_congr (label_configure hosted hafter),
      hosted.of_outline_eq houtline⟩
    unfold stateOf State.next
    rw [dependencies_configure hosted hafter, houtline,
      configuration?_configure hosted hproper hafter hunit]
    rfl

/-! ## Edits in a row -/

/-- **Edits in a row**: none fails, and the states follow each other. -/
theorem run_stateOf {unit : Node → String} (hunit : ∀ tree, Text.allBlank (unit tree) = true)
    {edits : List Edit} (hproper : ∀ edit ∈ edits, edit.Proper) {project : Node}
    (hosted : Hosted project) :
    ∃ after, run unit edits project = some after ∧
      stateOf after = edits.foldl (State.next (spaceOf project)) (stateOf project) ∧
      Hosted after := by
  induction edits generalizing project with
  | nil => exact ⟨project, rfl, rfl, hosted⟩
  | cons edit edits ih =>
    obtain ⟨hedit, hedits⟩ := List.forall_mem_cons.mp hproper
    obtain ⟨middle, hmiddle, hstate, hspace, hhosted⟩ :=
      perform?_stateOf hosted (hunit project) hedit
    obtain ⟨after, hrun, hafter, hhosted'⟩ := ih hedits hhosted
    refine ⟨after, ?_, ?_, hhosted'⟩
    · unfold run
      rw [List.foldlM_cons, hmiddle]
      exact hrun
    · rw [hafter, hspace, hstate]
      rfl

/-! ## The state in closed form -/

/-- A version that is set counts, whatever was set before. -/
theorem updateEntry_updateEntry {key : PluginKey} {f h : PluginEntry → PluginEntry}
    (hkey : ∀ entry, (f entry).key = entry.key) (builds : List BuildOutline) :
    updateEntry key h (updateEntry key f builds) = updateEntry key (h ∘ f) builds := by
  have hfirst : ∀ entries : List PluginEntry,
      updateFirst (fun entry => entry.key == key) h
          (updateFirst (fun entry => entry.key == key) f entries)
        = updateFirst (fun entry => entry.key == key) (h ∘ f) entries := by
    intro entries
    induction entries with
    | nil => rfl
    | cons entry entries ih =>
      by_cases ht : (entry.key == key) = true
      · rw [updateFirst, if_pos ht, updateFirst, hkey, if_pos ht, updateFirst, if_pos ht]
        rfl
      · rw [updateFirst, if_neg ht, updateFirst, if_neg ht, updateFirst, if_neg ht, ih]
  cases builds with
  | nil => rfl
  | cons first builds =>
    cases first with
    | nil => rfl
    | cons entries lists => rw [updateEntry, updateEntry, updateEntry, hfirst]

theorem pinBuilds_pinBuilds (first last : String) (builds : List BuildOutline) :
    pinBuilds last (pinBuilds first builds) = pinBuilds last builds := by
  have hkey : ∀ entry, (PluginEntry.pinned first entry).key = entry.key := fun _ => rfl
  exact updateEntry_updateEntry hkey builds

/-- Of two pins, the last one counts. -/
theorem pinned_pinned (first last : String) (outline : Outline) :
    (outline.pinned first).pinned last = outline.pinned last := by
  unfold Outline.pinned
  cases h : declares deployPlugin outline.builds with
  | true =>
    have hdeclares : declares deployPlugin (pinBuilds first outline.builds) = true :=
      (declares_pinBuilds first outline.builds).trans h
    rw [if_pos rfl, if_pos rfl, if_pos hdeclares, pinBuilds_pinBuilds]
  | false =>
    have hprofile : ProfileOutline.change (pinBuilds last)
        ∘ ProfileOutline.change (pinBuilds first) = ProfileOutline.change (pinBuilds last) :=
      funext fun profile => congrArg (ProfileOutline.mk profile.id)
        (pinBuilds_pinBuilds first last profile.builds)
    rw [if_neg Bool.false_ne_true, if_neg Bool.false_ne_true]
    unfold Outline.changeListed
    dsimp only
    rw [h, if_neg Bool.false_ne_true, List.modifyHead_modifyHead, List.map_comp_map, hprofile]

/-- **The state after edits in a row**: all dependencies that were added, the last version and the
last fragment. -/
theorem State.foldl_next (space : String) (edits : List Edit) (outline : Outline) (first : String)
    (dependencies : List Coordinates) (configuration : Option Node) :
    edits.foldl (State.next space) ⟨dependencies, outline.pinned first, configuration⟩
      = ⟨dependencies ++ edits.filterMap Edit.coordinates?,
          outline.pinned ((edits.filterMap Edit.version?).getLastD first),
          ((edits.filterMap Edit.fragment?).getLast?.map (adopted space)).or configuration⟩ := by
  induction edits generalizing first dependencies configuration with
  | nil => simp
  | cons edit edits ih =>
    rw [List.foldl_cons]
    cases edit with
    | pin version =>
      have hversions : ((Edit.pin version :: edits).filterMap Edit.version?).getLastD first
          = (edits.filterMap Edit.version?).getLastD version := List.getLastD_cons ..
      have hnext : State.next space ⟨dependencies, outline.pinned first, configuration⟩
          (.pin version) = ⟨dependencies, outline.pinned version, configuration⟩ :=
        congrArg (State.mk dependencies · configuration) (pinned_pinned first version outline)
      rw [hnext, ih, hversions]
      rfl
    | dependency group artifact version =>
      refine (ih first _ configuration).trans ?_
      rw [List.append_assoc]
      rfl
    | configure fragment =>
      have hfragments : ((Edit.configure fragment :: edits).filterMap Edit.fragment?).getLast?
          = some ((edits.filterMap Edit.fragment?).getLast?.getD fragment) := List.getLast?_cons
      refine (ih first dependencies _).trans ?_
      rw [hfragments]
      cases (edits.filterMap Edit.fragment?).getLast? <;> rfl

/-! ## What the views read -/

/-- The plugin that lookups find declares the first visible entry of its key. -/
theorem map_pluginOf? (key : PluginKey) (owner : Node) :
    (pluginOf? key owner).map entryOf
      = (visible (buildsOf owner)).find? fun entry => entry.key == key := by
  unfold pluginOf?
  rw [← map_pluginsOf, List.find?_map]
  rfl

/-- The first visible entry of the deployment plugin has the version that was set. -/
theorem version_of_pinsFirst {version : String} {before after : List BuildOutline}
    (h : PinsFirst version before after) {entry : PluginEntry}
    (hfind : (visible after).find? (fun entry => entry.key == deployPlugin) = some entry) :
    entry.version = some version := by
  cases h with
  | @first front back found lists builds hfront hkey =>
    have hnone : front.find? (fun entry => entry.key == deployPlugin) = none := by
      refine List.find?_eq_none.mpr fun other hother => ?_
      simpa using hfront other hother
    have hfound : (found.pinned version).key = deployPlugin := hkey
    have hvisible : visible (((front ++ found.pinned version :: back) :: lists) :: builds)
        = front ++ found.pinned version :: back := rfl
    rw [hvisible, List.find?_append, hnone, Option.none_or,
      List.find?_cons_of_pos (by simpa using hfound)] at hfind
    cases hfind
    rfl

/-- The plugin found where a version was set reads that version. -/
theorem childText_version_of_pinBuilds {version : String} {owner plugin : Node}
    {builds : List BuildOutline} (hbuilds : buildsOf owner = pinBuilds version builds)
    (hplugin : pluginOf? deployPlugin owner = some plugin) :
    childText "version" plugin = some version := by
  have hentry := map_pluginOf? deployPlugin owner
  rw [hplugin, hbuilds] at hentry
  have hdeclares : declares deployPlugin builds = true := by
    rw [← declares_pinBuilds version, ← hbuilds, ← isSome_pluginOf?, hplugin]
    rfl
  exact version_of_pinsFirst (pinsFirst_pinBuilds hdeclares) hentry.symm

/-- The entries that a pin sets read this version: the one of the project, or else the first one of
every profile that declares the plugin. -/
def PinnedTo (version : String) (project : Node) : Prop :=
  match Site.project.plugin? deployPlugin project with
  | some plugin => childText "version" plugin = some version
  | none => ∀ profile ∈ hosting deployPlugin project,
    ∃ plugin, pluginOf? deployPlugin profile = some plugin ∧
      childText "version" plugin = some version

theorem listed_changeListed {f : ProfileOutline → ProfileOutline} {outline : Outline} :
    (outline.changeListed (List.map f)).listed = outline.listed.map f := by
  obtain ⟨builds, lists⟩ := outline
  cases lists <;> rfl

theorem pinnedTo_of_outline {version : String} {project : Node} {before : Outline}
    (h : outline project = before.pinned version) : PinnedTo version project := by
  have hbuilds : buildsOf project = (before.pinned version).builds :=
    congrArg Outline.builds h
  have hlisted : (profiles project).map profileOutline = (before.pinned version).listed := by
    rw [map_profiles, h]
  unfold PinnedTo
  unfold Outline.pinned at hbuilds hlisted
  have hproject : Site.project.plugin? deployPlugin project = pluginOf? deployPlugin project := rfl
  cases hdeclares : declares deployPlugin before.builds with
  | true =>
    rw [hdeclares, if_pos rfl] at hbuilds
    obtain ⟨plugin, hplugin⟩ : ∃ plugin, pluginOf? deployPlugin project = some plugin := by
      rw [← Option.isSome_iff_exists, isSome_pluginOf?, hbuilds]
      exact (declares_pinBuilds version before.builds).trans hdeclares
    rw [hproject, hplugin]
    exact childText_version_of_pinBuilds hbuilds hplugin
  | false =>
    rw [hdeclares, if_neg Bool.false_ne_true] at hbuilds hlisted
    have hnone : pluginOf? deployPlugin project = none := by
      rw [← Option.isNone_iff_eq_none, ← Option.not_isSome, isSome_pluginOf?, hbuilds]
      exact congrArg not hdeclares
    rw [hproject, hnone]
    intro profile hprofile
    obtain ⟨hmem, hhosts⟩ := List.mem_filter.mp hprofile
    obtain ⟨plugin, hplugin⟩ := Option.isSome_iff_exists.mp hhosts
    refine ⟨plugin, hplugin, ?_⟩
    have houtline : profileOutline profile
        ∈ before.listed.map (ProfileOutline.change (pinBuilds version)) := by
      rw [← listed_changeListed, ← hlisted]
      exact List.mem_map_of_mem hmem
    obtain ⟨found, -, hfound⟩ := List.mem_map.mp houtline
    exact childText_version_of_pinBuilds (congrArg ProfileOutline.builds hfound).symm hplugin

/-- A profile and whether it declares the deployment plugin. -/
def standing (profile : Node) : Option String × Bool :=
  (profileId profile, hostsPlugin deployPlugin profile)

/-- A version that is set leaves the profiles and what they declare. -/
theorem map_standing_of_outline {version : String} {project : Node} {before : Outline}
    (h : outline project = before.pinned version) :
    (profiles project).map standing
      = before.listed.map fun profile => (profile.id, profile.hosts) := by
  have hstanding : ∀ profile, standing profile
      = ((profileOutline profile).id, (profileOutline profile).hosts) := fun profile =>
    congrArg (Prod.mk (profileId profile)) (isSome_pluginOf? deployPlugin profile)
  have hlisted : (profiles project).map standing
      = (before.pinned version).listed.map fun profile => (profile.id, profile.hosts) := by
    rw [← h, ← map_profiles, List.map_map]
    exact List.map_congr_left fun profile _ => hstanding profile
  rw [hlisted]
  unfold Outline.pinned
  split
  · rfl
  · rw [listed_changeListed, List.map_map]
    refine List.map_congr_left fun profile _ => ?_
    exact congrArg (Prod.mk profile.id) (declares_pinBuilds version profile.builds)

/-! ## Main statement -/

/-- **A pin and any edits behind it refine the state.** At no point does an edit fail. The
dependencies are the original ones and then those that were added, as they were called; the profiles
and what they declare are those that the first pin left; the entries that a pin sets read the last
version; and the configuration of the deployment plugin is the last fragment, moved into the
document, but for layout. -/
theorem run_pin_refines (unit : Node → String) (hunit : ∀ tree, Text.allBlank (unit tree) = true)
    (project : Node) (version : String) (edits : List Edit)
    (hproper : ∀ edit ∈ .pin version :: edits, edit.Proper) :
    ∀ done, done <+: edits → ∃ first after,
      run unit [.pin version] project = some first ∧
      run unit (.pin version :: done) project = some after ∧
      hosting deployPlugin after ≠ [] ∧
      dependencies after = dependencies project ++ done.filterMap Edit.coordinates? ∧
      (profiles after).map standing = (profiles first).map standing ∧
      PinnedTo ((done.filterMap Edit.version?).getLastD version) after ∧
      configuration? after
        = ((done.filterMap Edit.fragment?).getLast?.map (adopted (spaceOf project))).or
            (configuration? first) := by
  intro done hdone
  obtain ⟨hversion, hedits⟩ := List.forall_mem_cons.mp hproper
  have hstripped : Text.strip version = version := hversion
  generalize hfirst : pin version ⟨spaceOf project, unit project⟩ project = first
  have hrun : run unit [.pin version] project = some first := by
    rw [← hfirst]
    rfl
  have houtline : outline first = (outline project).declared.pinned version := by
    rw [← hfirst, outline_pin hstripped]
  have hspace : spaceOf first = spaceOf project := by
    have hkept := @kept_pin ⟨spaceOf project, unit project⟩ (hunit project) version project
    rw [← hfirst]
    exact spaceOf_congr hkept.label
  have hhosted : Hosted first := hfirst ▸ hosted_pin hstripped _ project
  have hdependencies : dependencies first = dependencies project := by
    rw [← hfirst, dependencies_pin]
  obtain ⟨after, hafter, hstate, hhosted'⟩ :=
    run_stateOf hunit (fun edit hedit => hedits edit (hdone.subset hedit)) hhosted
  -- the state of the first tree is the one the others start from
  have hclosed : stateOf after
      = ⟨dependencies project ++ done.filterMap Edit.coordinates?,
          (outline project).declared.pinned ((done.filterMap Edit.version?).getLastD version),
          ((done.filterMap Edit.fragment?).getLast?.map (adopted (spaceOf project))).or
            (configuration? first)⟩ := by
    rw [hstate, hspace, stateOf, houtline, hdependencies, State.foldl_next]
  have houtline' : outline after = (outline project).declared.pinned
      ((done.filterMap Edit.version?).getLastD version) := congrArg State.outline hclosed
  refine ⟨first, after, hrun, ?_, List.isEmpty_eq_false_iff.mp hhosted',
    congrArg State.dependencies hclosed, ?_, pinnedTo_of_outline houtline',
    congrArg State.configuration hclosed⟩
  · rw [← hafter, ← hfirst]
    rfl
  · rw [map_standing_of_outline houtline', map_standing_of_outline houtline]

/-- A dependency, a configuration and another version. -/
def bareEdits : List Edit :=
  [.dependency " org.example " "cart" "1", .configure (Node.element ⟨"", "configuration"⟩ none []),
    .pin "4.0"]

/-- The project without plugins after a pin and these edits. -/
theorem run_pin_refines_bare :
    ∃ after, run indentUnit (.pin "3.5" :: bareEdits) bareProject.root = some after ∧
      dependencies after = [⟨some "org.example", some "cart", some "1"⟩] ∧
      PinnedTo "4.0" after ∧
      configuration? after = some (Node.element ⟨"", "configuration"⟩ none []) := by
  have hproper : ∀ edit ∈ .pin "3.5" :: bareEdits, edit.Proper := by decide
  have hstrip : Text.strip " org.example " = "org.example" := by decide
  have hstrip' : Text.strip "cart" = "cart" := by decide
  have hstrip'' : Text.strip "1" = "1" := by decide
  obtain ⟨first, after, -, hafter, -, hdependencies, -, hpinned, hconfiguration⟩ :=
    run_pin_refines indentUnit allBlank_indentUnit bareProject.root "3.5" bareEdits hproper
      bareEdits (List.prefix_refl bareEdits)
  refine ⟨after, hafter, ?_, hpinned, hconfiguration⟩
  rw [hdependencies]
  show [Coordinates.mk (some (Text.strip _)) (some (Text.strip _)) (some (Text.strip _))] = _
  rw [hstrip, hstrip', hstrip'']

end Rollout.Pom
