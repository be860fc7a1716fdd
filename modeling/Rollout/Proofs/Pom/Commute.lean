import Rollout.Proofs.Pom.Sequence
import Rollout.Proofs.Pom.Swaps
import Rollout.Proofs.Pom.Units

/-!
# Edits that commute

Where a profile declares the deployment plugin, edits of different kinds give the same project in
either order, tails included. A pin and a configuration meet in one plugin; a dependency is added
to a child of the root that the other two leave alone.

- `Edit.kind`, `Edit.Configures`: which edit it is, and that a fragment is a configuration.
- `setVersion_setConfiguration`, `changePlugin_comm`: the two edits of one plugin.
- `pin_insertDependency`, `configure?_insertDependency`, `configure?_pin`: **the three pairs**.
- `perform?_comm`: two edits in either order, in one style.
- `styleOf_perform?`: an edit leaves the style that the next one finds.
- `edits_commute`: **edits of different kinds commute**, and so do their texts.
-/

namespace Rollout.Pom

open Xml

/-! ## Kinds of edits -/

/-- The kinds of edits. -/
inductive Kind
  | pin
  | dependency
  | configure
  deriving DecidableEq, Repr

namespace Edit

/-- Which edit it is. -/
def kind : Edit → Kind
  | pin _ => .pin
  | dependency _ _ _ => .dependency
  | configure _ => .configure

/-- A fragment, if the edit sets one, is a configuration. -/
def Configures (edit : Edit) : Prop :=
  ∀ fragment ∈ edit.fragment?, fragment.isNamed "configuration" = true

/-- Every fragment that is read is a configuration. -/
theorem configures_of_readFragment {text : String} {fragment : Node}
    (h : readFragment text = .ok fragment) : (configure fragment).Configures := by
  rintro _ ⟨⟩
  unfold readFragment at h
  split at h
  · cases h
  · split at h
    case isTrue hnamed =>
      cases h
      exact hnamed
    case isFalse => cases h

/-- The descriptor after an edit; nothing when the edit fails. -/
def applyTo? (descriptor : Descriptor) (edit : Edit) : Option Descriptor :=
  (edit.perform? descriptor.style descriptor.root).map fun root => { descriptor with root := root }

end Edit

/-- The descriptor after edits in a row, in the style it was read with. -/
def applyAll? (edits : List Edit) (descriptor : Descriptor) : Option Descriptor :=
  edits.foldlM Edit.applyTo? descriptor

/-! ## Plugins -/

section Plugins

variable {f g : Node → Node}

/-- **A version and a configuration of one plugin.** Its artifact is named, so that a new version
has a place. -/
theorem setVersion_setConfiguration {fragment plugin : Node}
    (hfragment : fragment.isNamed "configuration" = true)
    (hplugin : isPlugin deployPlugin plugin = true) (value : String) (style : Style) (depth : Nat) :
    setVersion value style depth (setConfiguration fragment style depth plugin)
      = setConfiguration fragment style depth (setVersion value style depth plugin) := by
  have hnamed : (style.intoSpace fragment).isNamed "configuration" = true :=
    (isNamed_intoSpace ..).trans hfragment
  have hkey : pluginKey plugin = deployPlugin := by
    simpa using (Bool.and_eq_true_iff.mp hplugin).2
  have hartifact : (plugin.child? "artifactId").isSome = true := by
    cases hchild : plugin.child? "artifactId" with
    | some artifact => rfl
    | none =>
      have hempty : (pluginKey plugin).artifact = "" := by
        unfold pluginKey childText
        rw [hchild]
        rfl
      rw [hkey] at hempty
      exact absurd hempty (by decide)
  have hplace : (["artifactId", "groupId"].findSome? plugin.childIndex?).isSome = true := by
    rw [← isSome_childIndex?] at hartifact
    obtain ⟨index, hindex⟩ := Option.isSome_iff_exists.mp hartifact
    rw [List.findSome?_cons, hindex]
    rfl
  exact withText_replaceChild hnamed (by decide) (by decide) hplace

/-- Two edits of the plugin of a key. -/
theorem changePlugin_comm {key : PluginKey} (hf : InPlace f) (hg : InPlace g)
    (hfkey : ∀ plugin, pluginKey (f plugin) = pluginKey plugin)
    (hgkey : ∀ plugin, pluginKey (g plugin) = pluginKey plugin)
    (hfg : ∀ plugin, isPlugin key plugin = true → f (g plugin) = g (f plugin)) (owner : Node) :
    changePlugin key f (changePlugin key g owner)
      = changePlugin key g (changePlugin key f owner) := by
  have hkept : ∀ {h : Node → Node}, InPlace h →
      (∀ plugin, pluginKey (h plugin) = pluginKey plugin) →
      ∀ plugin, isPlugin key (h plugin) = isPlugin key plugin := by
    intro h hinPlace hkey plugin
    unfold isPlugin
    rw [isNamed_of_label (hinPlace.label plugin), hkey]
  refine changeChild_comm (inPlace_changeChild _ _) (inPlace_changeChild _ _)
    (fun build _ => ?_) owner
  refine changeChild_comm (inPlace_children _) (inPlace_children _) (fun plugins _ => ?_) build
  exact congrArg (fun children => { plugins with children := children })
    (modifyFirst_comm (fun plugin _ => hkept hg hgkey plugin)
      (fun plugin _ => hkept hf hfkey plugin) (fun plugin hplugin _ => hfg plugin hplugin)
      plugins.children)

/-- An edit of the first profile that passes a test, and an edit of all profiles. -/
theorem changeProfile_changeProfiles {test : Node → Bool} (hf : InPlace f) (hg : InPlace g)
    (htest : ∀ profile, test (g profile) = test profile)
    (hfg : ∀ profile, f (g profile) = g (f profile)) (project : Node) :
    changeProfile test f (changeProfiles g project)
      = changeProfiles g (changeProfile test f project) := by
  refine changeChild_comm (inPlace_children _) (inPlace_children _) (fun block _ => ?_) project
  refine congrArg (fun children => { block with children := children })
    (modifyFirst_map_comm (fun node => ?_) (fun node hnode => ?_) block.children)
  · split
    · rw [htest, isNamed_of_label (hg.label node)]
    · rfl
  · have hnamed := (Bool.and_eq_true_iff.mp hnode).1
    rw [if_pos hnamed, if_pos (hf.isNamed hnamed), hfg]

end Plugins

/-! ## Projects where a profile declares the plugin -/

section Hosts

variable {project : Node}

theorem hosted_iff_any : Hosted project ↔
    (profiles project).any (hostsPlugin deployPlugin) = true := by
  unfold Hosted hosting
  rw [List.isEmpty_eq_false_iff_exists_mem, List.any_eq_true]
  simp only [List.mem_filter]

theorem Hosted.isSome_profiles (h : Hosted project) :
    (project.child? "profiles").isSome = true := by
  cases hblock : project.child? "profiles" with
  | some block => rfl
  | none =>
    rw [hosted_iff_any, profiles, itemsOf, hblock] at h
    cases h

theorem Hosted.children_ne_nil (h : Hosted project) : project.children ≠ [] := by
  intro hnil
  have hprofiles := h.isSome_profiles
  unfold Node.child? at hprofiles
  rw [hnil] at hprofiles
  cases hprofiles

/-- The plugin is declared in the project itself. -/
theorem isSome_build {project : Node}
    (h : (Site.project.plugin? deployPlugin project).isSome = true) :
    (project.child? "build").isSome = true := by
  have hplugins : (pluginOf? deployPlugin project).isSome = true := h
  cases hbuild : project.child? "build" with
  | some build => rfl
  | none =>
    rw [pluginOf?, pluginsOf, hbuild] at hplugins
    cases hplugins

theorem isSome_plugin?_of_outline_eq {a b : Node} (h : outline a = outline b) :
    (Site.project.plugin? deployPlugin a).isSome
      = (Site.project.plugin? deployPlugin b).isSome := by
  have hbuilds : buildsOf a = buildsOf b := congrArg Outline.builds h
  have ha : (Site.project.plugin? deployPlugin a).isSome = declares deployPlugin (buildsOf a) :=
    isSome_pluginOf? deployPlugin a
  rw [ha, hbuilds]
  exact (isSome_pluginOf? deployPlugin b).symm

/-- Where a profile declares the plugin, a pin only sets versions. -/
theorem pin_of_hosted (h : Hosted project) (value : String) (style : Style) :
    pin value style project
      = if (Site.project.plugin? deployPlugin project).isSome then
          changePlugin deployPlugin (setVersion value style 3) project
        else changeProfiles (changePlugin deployPlugin (setVersion value style 5)) project := by
  unfold pin
  dsimp only
  rw [h, if_neg Bool.false_ne_true]
  rfl

/-- A pin leaves the profiles that declare the plugin. -/
theorem Hosted.pin (h : Hosted project) (value : String) (style : Style) :
    Hosted (pin value style project) := by
  rw [hosted_iff_any] at h ⊢
  rw [pin_of_hosted (hosted_iff_any.mpr h)]
  split
  · have hprofiles : profiles (changePlugin deployPlugin (setVersion value style 3) project)
        = profiles project :=
      itemsOf_changeChild_of_ne (inPlace_changeChild _ _).label (by decide) project
    rw [hprofiles, h]
  · have hhosts : hostsPlugin deployPlugin ∘ changePlugin deployPlugin (setVersion value style 5)
        = hostsPlugin deployPlugin :=
      funext (hostsPlugin_changePlugin (inPlace_setVersion value style 5)
        (pluginKey_setVersion value style 5) deployPlugin)
    rw [profiles_changeProfiles (inPlace_changePlugin ..).label, List.any_map, hhosts, h]

end Hosts

/-! ## The three pairs -/

section Pairs

variable {project fragment : Node} {style : Style}

/-- **A pin and a dependency.** -/
theorem pin_insertDependency (hosted : Hosted project) (value group artifact version : String) :
    pin value style (insertDependency group artifact version style project)
      = insertDependency group artifact version style (pin value style project) := by
  have houtline := outline_insertDependency group artifact version style project
  rw [pin_of_hosted (hosted.of_outline_eq houtline), pin_of_hosted hosted,
    isSome_plugin?_of_outline_eq houtline]
  split
  case isTrue hproject =>
    exact (within_changeChild (inPlace_changeChild _ _) (inPlace_insertLast ..) (by decide)
      (isSome_build hproject)).symm
  case isFalse =>
    exact (within_changeChild (inPlace_children _) (inPlace_insertLast ..) (by decide)
      hosted.isSome_profiles).symm

/-- **A configuration and a dependency.** -/
theorem configure?_insertDependency (hosted : Hosted project)
    (group artifact version : String) :
    configure? fragment style (insertDependency group artifact version style project)
      = (configure? fragment style project).map
          (insertDependency group artifact version style) := by
  have houtline := outline_insertDependency group artifact version style project
  rw [configure?_eq_some (hosted.of_outline_eq houtline), configure?_eq_some hosted,
    Option.map_some, Option.some.injEq]
  exact (within_changeChild (inPlace_children _) (inPlace_insertLast ..) (by decide)
    hosted.isSome_profiles).symm

/-- **A configuration and a pin.** -/
theorem configure?_pin (hosted : Hosted project)
    (hfragment : fragment.isNamed "configuration" = true) (value : String) :
    configure? fragment style (pin value style project)
      = (configure? fragment style project).map (pin value style) := by
  have hconfigured := @configure?_eq_some style fragment project hosted
  have houtline := outline_configure hosted hfragment hconfigured
  rw [configure?_eq_some (hosted.pin value style), hconfigured, Option.map_some,
    Option.some.injEq, pin_of_hosted hosted, pin_of_hosted (hosted.of_outline_eq houtline),
    isSome_plugin?_of_outline_eq houtline]
  split
  · -- the version is set in the project, the configuration in a profile
    have hne : "profiles" ≠ "build" := by decide
    exact changeChild_comm_of_ne hne (fun _ => (inPlace_children _).isNamed)
      (fun _ => (inPlace_changeChild _ _).isNamed) project
  · have hversion := inPlace_setVersion value style 5
    have hconfiguration := inPlace_setConfiguration fragment style 5
    have hplugin : ∀ profile,
        changePlugin deployPlugin (setConfiguration fragment style 5)
            (changePlugin deployPlugin (setVersion value style 5) profile)
          = changePlugin deployPlugin (setVersion value style 5)
            (changePlugin deployPlugin (setConfiguration fragment style 5) profile) :=
      changePlugin_comm hconfiguration hversion (pluginKey_setConfiguration hfragment style 5)
        (pluginKey_setVersion value style 5) fun plugin hkey =>
          (setVersion_setConfiguration hfragment hkey value style 5).symm
    exact changeProfile_changeProfiles (inPlace_changePlugin ..) (inPlace_changePlugin ..)
      (hostsPlugin_changePlugin hversion (pluginKey_setVersion value style 5) deployPlugin)
      hplugin project

end Pairs

/-! ## Two edits in either order -/

section Either

variable {project after : Node} {style : Style}

/-- **Two edits in either order**, in one style. -/
theorem perform?_comm (hosted : Hosted project) {a b : Edit} (hkind : a.kind ≠ b.kind)
    (ha : a.Configures) (hb : b.Configures) :
    ((a.perform? style project).bind fun tree => b.perform? style tree)
      = (b.perform? style project).bind fun tree => a.perform? style tree := by
  have hbind : ∀ (f : Node → Node) (tree? : Option Node),
      (tree?.bind fun tree => some (f tree)) = tree?.map f := fun f tree? => by
    cases tree? <;> rfl
  cases a with
  | pin value =>
    cases b with
    | pin value' => exact absurd rfl hkind
    | dependency group artifact version =>
      exact congrArg some (pin_insertDependency hosted value group artifact version).symm
    | configure fragment =>
      exact (configure?_pin hosted (hb fragment rfl) value).trans (hbind _ _).symm
  | dependency group artifact version =>
    cases b with
    | pin value => exact congrArg some (pin_insertDependency hosted value group artifact version)
    | dependency group' artifact' version' => exact absurd rfl hkind
    | configure fragment =>
      exact (configure?_insertDependency hosted group artifact version).trans (hbind _ _).symm
  | configure fragment =>
    cases b with
    | pin value => exact (hbind _ _).trans (configure?_pin hosted (ha fragment rfl) value).symm
    | dependency group artifact version =>
      exact (hbind _ _).trans (configure?_insertDependency hosted group artifact version).symm
    | configure fragment' => exact absurd rfl hkind

/-- An edit succeeds, and a profile still declares the plugin. -/
theorem exists_perform? (hosted : Hosted project) {edit : Edit} (hedit : edit.Configures)
    (style : Style) : ∃ after, edit.perform? style project = some after ∧ Hosted after := by
  cases edit with
  | pin value => exact ⟨_, rfl, hosted.pin value style⟩
  | dependency group artifact version =>
    exact ⟨_, rfl, hosted.of_outline_eq (outline_insertDependency ..)⟩
  | configure fragment =>
    have hafter := @configure?_eq_some style fragment project hosted
    exact ⟨_, hafter, hosted.of_outline_eq (outline_configure hosted (hedit fragment rfl) hafter)⟩

/-- **An edit leaves the style** that the next one finds. -/
theorem styleOf_perform? (hosted : Hosted project) {edit : Edit}
    (h : edit.perform? style project = some after) : styleOf after = styleOf project := by
  have hsame : after.label = project.label ∧ after.text = project.text := by
    cases edit with
    | pin value =>
      cases h
      rw [pin_of_hosted hosted]
      split <;> exact ⟨rfl, rfl⟩
    | dependency group artifact version =>
      cases h
      refine ⟨(inPlace_within ..).label project, ?_⟩
      unfold insertDependency Style.within Style.withChild
      split
      · rfl
      · exact text_insertLast hosted.children_ne_nil 0 _
    | configure fragment =>
      have hafter := (configure?_eq_some hosted).symm.trans h
      cases hafter
      exact ⟨rfl, rfl⟩
  unfold styleOf indentUnit
  rw [spaceOf_congr hsame.1, hsame.2]

/-- Both orders succeed, with one project. -/
theorem exists_either (hosted : Hosted project) {a b : Edit} (hkind : a.kind ≠ b.kind)
    (ha : a.Configures) (hb : b.Configures) (style : Style) :
    ∃ after, ((a.perform? style project).bind fun tree => b.perform? style tree) = some after ∧
      ((b.perform? style project).bind fun tree => a.perform? style tree) = some after := by
  obtain ⟨middle, hmiddle, hhosted⟩ := exists_perform? hosted ha style
  obtain ⟨after, hafter, -⟩ := exists_perform? hhosted hb style
  have hrow : ((a.perform? style project).bind fun tree => b.perform? style tree)
      = some after := by
    rw [hmiddle]
    exact hafter
  exact ⟨after, hrow, (perform?_comm hosted hkind ha hb).symm.trans hrow⟩

/-- The second edit finds the style that the first one found. -/
theorem run_pair (hosted : Hosted project) (a b : Edit) :
    run indentUnit [a, b] project
      = (a.perform? (styleOf project) project).bind fun tree =>
          b.perform? (styleOf project) tree := by
  show ((a.perform? (styleOf project) project).bind fun tree =>
    (b.perform? (styleOf tree) tree).bind some) = _
  cases hmiddle : a.perform? (styleOf project) project with
  | none => rfl
  | some middle =>
    rw [Option.bind_some, Option.bind_some, Option.bind_fun_some,
      styleOf_perform? hosted hmiddle]

/-- The descriptor after two edits holds the project after them. -/
theorem applyAll?_pair (descriptor : Descriptor) (a b : Edit) :
    applyAll? [a, b] descriptor
      = ((a.perform? descriptor.style descriptor.root).bind fun tree =>
          b.perform? descriptor.style tree).map fun root => { descriptor with root := root } := by
  show (((a.perform? descriptor.style descriptor.root).map fun root =>
    { descriptor with root := root }).bind fun middle => (b.applyTo? middle).bind some) = _
  cases a.perform? descriptor.style descriptor.root with
  | none => rfl
  | some middle => exact Option.bind_fun_some _

end Either

/-! ## Main statement -/

/-- **Edits of different kinds commute.** Where a profile declares the deployment plugin, both
orders succeed with one descriptor, and so with one text under every register of prefixes. They do
as well when every edit looks for the unit of indentation in the tree before it. -/
theorem edits_commute {descriptor : Descriptor} (hosted : Hosted descriptor.root) {a b : Edit}
    (hkind : a.kind ≠ b.kind) (ha : a.Configures) (hb : b.Configures) :
    (∃ after, ∀ edits ∈ [[a, b], [b, a]],
      applyAll? edits descriptor = some after ∧
      ∀ register, (applyAll? edits descriptor).map (·.serialize register)
        = some (after.serialize register)) ∧
    ∃ root, run indentUnit [a, b] descriptor.root = some root ∧
      run indentUnit [b, a] descriptor.root = some root := by
  constructor
  · obtain ⟨root, hrow, hback⟩ := exists_either hosted hkind ha hb descriptor.style
    have hboth : ∀ edits ∈ [[a, b], [b, a]],
        applyAll? edits descriptor = some { descriptor with root := root } := by
      rw [List.forall_mem_cons, List.forall_mem_singleton, applyAll?_pair, applyAll?_pair, hrow,
        hback]
      exact ⟨rfl, rfl⟩
    exact ⟨_, fun edits hedits => ⟨hboth edits hedits, fun register => by
      rw [hboth edits hedits, Option.map_some]⟩⟩
  · rw [run_pair hosted, run_pair hosted]
    exact exists_either hosted hkind ha hb (styleOf descriptor.root)

/-- A pin and a configuration of a project whose only plugin has neither version nor
configuration. -/
theorem edits_commute_hostProject :
    let descriptor : Descriptor := ⟨hostProject, styleOf hostProject, "", "\n"⟩
    let version := Edit.pin "3.5"
    let configuration := Edit.configure (Node.element ⟨"", "configuration"⟩ (some "on") [])
    Hosted descriptor.root ∧ version.kind ≠ configuration.kind ∧
    version.Configures ∧ configuration.Configures ∧
    ∃ after, ∀ edits ∈ [[version, configuration], [configuration, version]],
      applyAll? edits descriptor = some after := by
  intro descriptor version configuration
  have hosted : Hosted descriptor.root := by
    show (hosting deployPlugin hostProject).isEmpty = false
    decide +kernel
  have hkind : version.kind ≠ configuration.kind := by decide
  have hversion : version.Configures := nofun
  have hconfiguration : configuration.Configures := fun fragment hfragment => by
    cases hfragment
    rfl
  obtain ⟨⟨after, hboth⟩, -⟩ := edits_commute hosted hkind hversion hconfiguration
  exact ⟨hosted, hkind, hversion, hconfiguration, after, fun edits hedits =>
    (hboth edits hedits).1⟩

end Rollout.Pom
