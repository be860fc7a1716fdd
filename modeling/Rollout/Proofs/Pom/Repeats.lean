import Rollout.Proofs.Pom.Commute

/-!
# Edits that are repeated

Of two edits that set the same thing the last one counts: the project is the one that it alone
leaves, tails included. The first edit may have added what the second one only changes.

- `modifyFirst_overwrite`, `changeChild_overwrite`: a change that covers what another one did.
- `changeChild_insertLast`, `changeChild_insertAfter`: a child that was just added, changed.
- `withText_withText`, `replaceChild_replaceChild`: the text of a child set twice, and a child
  replaced twice.
- `pin_pin`, `configure?_configure?`: **two pins** and **two configurations**.
- `run_covered`: the second edit finds the style that the first one found.
- `last_edit_counts`: **the last edit counts**, in one style and when every edit looks for the style
  in the tree before it.
-/

namespace Rollout.Pom

open Xml

/-! ## Changes that cover each other -/

section Overwrite

variable {p : Node → Bool} {f g : Node → Node} {name : String}

/-- A change of the first match that covers what another one did. -/
theorem modifyFirst_overwrite (hp : ∀ node, p node = true → p (g node) = true)
    (hfg : ∀ node, p node = true → f (g node) = f node) (nodes : List Node) :
    modifyFirst p f (modifyFirst p g nodes) = modifyFirst p f nodes := by
  induction nodes with
  | nil => rfl
  | cons node nodes ih =>
    by_cases hnode : p node = true
    · simp [modifyFirst, hnode, hp node hnode, hfg node hnode]
    · simp [modifyFirst, hnode, ih]

/-- A change of all nodes that covers what another one did. -/
theorem map_overwrite (hp : ∀ node, p node = true → p (g node) = true)
    (hfg : ∀ node, p node = true → f (g node) = f node) (nodes : List Node) :
    (nodes.map fun node => if p node then g node else node).map
        (fun node => if p node then f node else node)
      = nodes.map fun node => if p node then f node else node := by
  rw [List.map_map]
  refine List.map_congr_left fun node _ => ?_
  by_cases hnode : p node = true
  · simp [hnode, hp node hnode, hfg node hnode]
  · simp [hnode]

theorem changeChild_overwrite
    (hg : ∀ node, node.isNamed name = true → (g node).isNamed name = true)
    (hfg : ∀ node, node.isNamed name = true → f (g node) = f node) (node : Node) :
    changeChild name f (changeChild name g node) = changeChild name f node :=
  congrArg (fun children => { node with children := children })
    (modifyFirst_overwrite hg hfg node.children)

end Overwrite

/-! ## A child that was just added -/

section Added

variable {style : Style} {depth index : Nat} {child fresh node : Node} {f : Node → Node}
  {name : String}

theorem any_of_child?_eq_none (h : node.child? name = none) :
    node.children.any (Node.isNamed name) = false := by
  rw [Bool.eq_false_iff]
  intro hany
  rw [← List.isSome_find?] at hany
  have hsome : (node.child? name).isSome = true := hany
  rw [h] at hsome
  cases hsome

/-- A list with one match, which is put somewhere. -/
theorem modifyFirst_insertIdx_match {p : Node → Bool} (hchild : p child = true) :
    ∀ {nodes : List Node}, nodes.any p = false → ∀ index,
      modifyFirst p f (nodes.insertIdx index child) = nodes.insertIdx index (f child)
  | [], _, 0 => by simp [modifyFirst, hchild]
  | [], _, _ + 1 => rfl
  | node :: nodes, _, 0 => by simp [modifyFirst, hchild]
  | node :: nodes, h, index + 1 => by
    rw [List.any_cons, Bool.or_eq_false_iff] at h
    rw [List.insertIdx_succ_cons, List.insertIdx_succ_cons, modifyFirst,
      if_neg (by rw [h.1]; exact Bool.false_ne_true), modifyFirst_insertIdx_match hchild h.2]

variable (hmissing : node.child? name = none) (hchild : child.isNamed name = true)
  (hf : ∀ tail, f { child.indented style.indent (depth + 1) with tail := tail }
    = { fresh.indented style.indent (depth + 1) with tail := tail })

include hmissing hchild hf

/-- **A child added at the end and then changed** is as if it had been added changed. -/
theorem changeChild_insertLast :
    changeChild name f (style.insertLast depth child node)
      = style.insertLast depth fresh node := by
  have hplaced : ∀ tail, Node.isNamed name
      { child.indented style.indent (depth + 1) with tail := tail } = true := fun tail => by
    rw [isNamed_withTail, isNamed_of_label (indented_label ..), hchild]
  have hany := any_of_child?_eq_none hmissing
  rcases List.eq_nil_or_concat' node.children with hnil | ⟨front, last, hconcat⟩
  · unfold changeChild Style.insertLast
    simp only [hnil, List.getLast?_nil, modifyFirst, hplaced, if_true, hf]
  · rw [insertLast_concat node hconcat, insertLast_concat node hconcat]
    rw [hconcat, List.any_append, Bool.or_eq_false_iff] at hany
    have hlast : last.isNamed name = false := by simpa using hany.2
    refine congrArg (fun children => { node with children := children }) ?_
    dsimp only
    rw [modifyFirst_append, hany.1, if_neg Bool.false_ne_true, modifyFirst, isNamed_withTail, hlast,
      if_neg Bool.false_ne_true, modifyFirst, hplaced, if_pos rfl, hf]

/-- So is **a child added behind another one**. -/
theorem changeChild_insertAfter :
    changeChild name f (style.insertAfter depth index child node)
      = style.insertAfter depth index fresh node := by
  have hplaced : ∀ tail, Node.isNamed name
      { child.indented style.indent (depth + 1) with tail := tail } = true := fun tail => by
    rw [isNamed_withTail, isNamed_of_label (indented_label ..), hchild]
  unfold Style.insertAfter
  split
  · refine congrArg (fun children => { node with children := children }) ?_
    dsimp only
    rw [modifyFirst_insertIdx_match (hplaced _) (any_of_child?_eq_none hmissing), hf]
  · exact changeChild_insertLast hmissing hchild hf

end Added

/-! ## Children that are set twice -/

section Twice

variable {style : Style} {depth : Nat} {name : String}

/-- **The text of a child set twice.** A child that was missing is the one the second text goes
to. -/
theorem withText_withText (first last : String) (anchors : List String) (node : Node) :
    style.withText depth name last anchors (style.withText depth name first anchors node)
      = style.withText depth name last anchors node := by
  have hthere : ((style.withText depth name first anchors node).child? name).isSome = true := by
    cases hchild : (style.withText depth name first anchors node).child? name with
    | some child => rfl
    | none =>
      have htext := @childText_withText style depth name first anchors node
      rw [childText, hchild] at htext
      cases htext
  cases hold : (node.child? name).isSome with
  | true =>
    unfold Style.withText at hthere ⊢
    rw [hold, if_pos rfl] at hthere ⊢
    rw [if_pos hthere, if_pos rfl]
    apply changeChild_overwrite
    · exact fun _ hnamed => hnamed
    · exact fun _ _ => rfl
  | false =>
    have hmissing : node.child? name = none := by simpa using hold
    have hfresh : (style.newTextElement name (some first)).isNamed name = true :=
      beq_self_eq_true name
    have hplaced : ∀ tail : Option String,
        ({ ({ (style.newTextElement name (some first)).indented style.indent (depth + 1) with
            tail := tail } : Node) with text := some last } : Node)
          = { (style.newTextElement name (some last)).indented style.indent (depth + 1) with
            tail := tail } := fun _ => rfl
    have houter : style.withText depth name last anchors
          (style.withText depth name first anchors node)
        = changeChild name (fun child => { child with text := some last })
            (style.withText depth name first anchors node) := by
      rw [Style.withText, if_pos hthere]
    rw [houter]
    unfold Style.withText
    rw [hold, if_neg Bool.false_ne_true, if_neg Bool.false_ne_true]
    dsimp only
    split
    · exact changeChild_insertAfter hmissing hfresh hplaced
    · exact changeChild_insertLast hmissing hfresh hplaced

/-- **A child replaced twice.** A child that was missing is the one that is replaced. -/
theorem replaceChild_replaceChild {first : Node} (hfirst : first.isNamed name = true)
    (last node : Node) :
    style.replaceChild depth name last (style.replaceChild depth name first node)
      = style.replaceChild depth name last node := by
  have htails : TailFree fun _ : Node => () := fun _ _ => rfl
  have hthere : ((style.replaceChild depth name first node).child? name).isSome = true := by
    rw [← Option.isSome_map, map_child?_replaceChild htails style depth hfirst]
    rfl
  have houter : style.replaceChild depth name last (style.replaceChild depth name first node)
      = changeChild name
          (fun old => { last.indented style.indent (depth + 1) with tail := old.tail })
          (style.replaceChild depth name first node) := by
    rw [Style.replaceChild, if_pos hthere]
  rw [houter]
  unfold Style.replaceChild
  cases hold : (node.child? name).isSome with
  | true =>
    rw [if_pos rfl, if_pos rfl]
    apply changeChild_overwrite
    · intro old _
      rw [isNamed_withTail, isNamed_of_label (indented_label ..), hfirst]
    · exact fun _ _ => rfl
  | false =>
    rw [if_neg Bool.false_ne_true, if_neg Bool.false_ne_true]
    exact changeChild_insertLast (by simpa using hold) hfirst fun _ => rfl

end Twice

/-! ## Plugins that are set twice -/

section Plugins

variable {f g : Node → Node}

/-- A change of the plugin of a key that covers what another one did. -/
theorem changePlugin_overwrite {key : PluginKey} (hg : InPlace g)
    (hkey : ∀ plugin, pluginKey (g plugin) = pluginKey plugin)
    (hfg : ∀ plugin, f (g plugin) = f plugin) (owner : Node) :
    changePlugin key f (changePlugin key g owner) = changePlugin key f owner := by
  have hplugin : ∀ plugin, isPlugin key plugin = true → isPlugin key (g plugin) = true :=
    fun plugin h => by
      unfold isPlugin at h ⊢
      rwa [isNamed_of_label (hg.label plugin), hkey]
  have hnamed : ∀ (name : String) (k : List Node → List Node) (node : Node),
      node.isNamed name = true →
        Node.isNamed name { node with children := k node.children } = true :=
    fun _ _ _ h => h
  unfold changePlugin
  refine changeChild_overwrite (hnamed "build" _) (fun build _ => ?_) owner
  refine changeChild_overwrite (hnamed "plugins" _) (fun plugins _ => ?_) build
  exact congrArg (fun children => { plugins with children := children })
    (modifyFirst_overwrite hplugin (fun plugin _ => hfg plugin) plugins.children)

/-- A change of the first profile that passes a test. -/
theorem changeProfile_overwrite {test : Node → Bool} (hg : InPlace g)
    (htest : ∀ profile, test (g profile) = test profile)
    (hfg : ∀ profile, f (g profile) = f profile) (project : Node) :
    changeProfile test f (changeProfile test g project) = changeProfile test f project := by
  unfold changeProfile
  refine changeChild_overwrite ?_ (fun block _ => ?_) project
  · exact fun _ hnamed => hnamed
  refine congrArg (fun children => { block with children := children })
    (modifyFirst_overwrite (fun node hnode => ?_) (fun node _ => hfg node) block.children)
  rwa [isNamed_of_label (hg.label node), htest]

/-- A change of all profiles. -/
theorem changeProfiles_overwrite (hg : InPlace g) (hfg : ∀ profile, f (g profile) = f profile)
    (project : Node) :
    changeProfiles f (changeProfiles g project) = changeProfiles f project := by
  unfold changeProfiles
  refine changeChild_overwrite ?_ (fun block _ => ?_) project
  · exact fun _ hnamed => hnamed
  have hnamed : ∀ node, node.isNamed "profile" = true → (g node).isNamed "profile" = true :=
    fun _ => hg.isNamed
  exact congrArg (fun children => { block with children := children })
    (map_overwrite hnamed (fun node _ => hfg node) block.children)

end Plugins

/-! ## Two pins -/

section Pins

variable {project : Node} {style : Style}

/-- The project with the deployment plugin declared, unless a profile declares it. -/
def declared (style : Style) (project : Node) : Node :=
  if (hosting deployPlugin project).isEmpty then declareHost style project else project

theorem hosted_declared (style : Style) (project : Node) : Hosted (declared style project) := by
  unfold declared
  cases hhosts : (hosting deployPlugin project).isEmpty with
  | false => exact hhosts
  | true =>
    have hnone : (outline project).listed.any ProfileOutline.hosts = false := by
      rw [hosting_isEmpty] at hhosts
      simpa using hhosts
    have houtline : (outline project).declared = (outline project).withHost := by
      rw [Outline.declared, hnone, if_neg Bool.false_ne_true]
    obtain ⟨profile, hmem, hhost⟩ := exists_host_of_declares (declares_declared (outline project))
    rw [if_pos rfl, hosted_iff, outline_declareHost, ← houtline]
    exact List.any_eq_true.mpr ⟨profile, hmem, hhost⟩

/-- A pin declares the plugin, and then only sets versions. -/
theorem pin_declared (value : String) (style : Style) (project : Node) :
    pin value style project = pin value style (declared style project) := by
  have hhosted := hosted_declared style project
  conv_rhs => unfold pin
  rw [hhosted]
  rfl

theorem pin_pin_of_hosted (hosted : Hosted project) (first last : String) :
    pin last style (pin first style project) = pin last style project := by
  have hkey := pluginKey_setVersion first style
  have hset : ∀ depth plugin, setVersion last style depth (setVersion first style depth plugin)
      = setVersion last style depth plugin := fun _ => withText_withText first last _
  rw [pin_of_hosted (hosted.pin first style), pin_of_hosted hosted, pin_of_hosted hosted]
  cases hproject : (Site.project.plugin? deployPlugin project).isSome with
  | true =>
    have hstill : (Site.project.plugin? deployPlugin
        (changePlugin deployPlugin (setVersion first style 3) project)).isSome = true :=
      (hostsPlugin_changePlugin (inPlace_setVersion first style 3) (hkey 3) deployPlugin
        project).trans hproject
    rw [if_pos rfl, if_pos hstill, if_pos rfl]
    exact changePlugin_overwrite (inPlace_setVersion first style 3) (hkey 3) (hset 3) project
  | false =>
    -- the profiles are changed, and the plugins of the project are those of another child
    have hne : "profiles" ≠ "build" := by decide
    have hstill : (Site.project.plugin? deployPlugin
        (changeProfiles (changePlugin deployPlugin (setVersion first style 5)) project)).isSome
          = false := by
      have hbuild : Node.child? "build"
          (changeProfiles (changePlugin deployPlugin (setVersion first style 5)) project)
            = project.child? "build" := by
        rw [child?_eq_head?, child?_eq_head?, changeProfiles,
          childrenNamed_changeChild_of_ne (inPlace_children _).label hne]
      rw [← hproject]
      show (pluginOf? deployPlugin _).isSome = (pluginOf? deployPlugin _).isSome
      unfold pluginOf? pluginsOf
      rw [hbuild]
    simp only [Bool.false_eq_true, if_false, hstill]
    exact changeProfiles_overwrite (inPlace_changePlugin ..)
      (changePlugin_overwrite (inPlace_setVersion first style 5) (hkey 5) (hset 5)) project

/-- **Two pins**: the second one counts, whatever the first one had to declare. -/
theorem pin_pin (first last : String) (style : Style) (project : Node) :
    pin last style (pin first style project) = pin last style project := by
  rw [pin_declared first, pin_declared last style project,
    pin_pin_of_hosted (hosted_declared style project)]

/-- **Two configurations**: the second one counts. -/
theorem configure?_configure? (hosted : Hosted project) {first : Node}
    (hfirst : first.isNamed "configuration" = true) (last : Node) :
    (configure? first style project).bind (configure? last style)
      = configure? last style project := by
  have hnamed : (style.intoSpace first).isNamed "configuration" = true :=
    (isNamed_intoSpace ..).trans hfirst
  have hset : ∀ plugin, setConfiguration last style 5 (setConfiguration first style 5 plugin)
      = setConfiguration last style 5 plugin := replaceChild_replaceChild hnamed _
  have hafter := @configure?_eq_some style first project hosted
  have hstill := hosted.of_outline_eq (outline_configure hosted hfirst hafter)
  have hinPlace := inPlace_setConfiguration first style 5
  have hkey := pluginKey_setConfiguration hfirst style 5
  rw [hafter, Option.bind_some, configure?_eq_some hstill, configure?_eq_some hosted,
    Option.some.injEq]
  exact changeProfile_overwrite (inPlace_changePlugin ..)
    (hostsPlugin_changePlugin hinPlace hkey deployPlugin)
    (changePlugin_overwrite hinPlace hkey hset) project

end Pins

/-! ## Main statement -/

section Covered

variable {first last : Edit} {descriptor : Descriptor}

/-- Two edits in a row succeed and leave what the last one alone leaves: in the style that the
descriptor was read with, and when every edit looks for the style in the tree before it. -/
def LastCounts (descriptor : Descriptor) (first last : Edit) : Prop :=
  (∃ after, ∀ edits ∈ [[first, last], [last]], applyAll? edits descriptor = some after) ∧
    ∃ root, ∀ edits ∈ [[first, last], [last]], run indentUnit edits descriptor.root = some root

theorem applyAll?_single (descriptor : Descriptor) (edit : Edit) :
    applyAll? [edit] descriptor
      = (edit.perform? descriptor.style descriptor.root).map fun root =>
          { descriptor with root := root } :=
  Option.bind_fun_some _

theorem run_single (project : Node) (edit : Edit) :
    run indentUnit [edit] project = edit.perform? (styleOf project) project :=
  Option.bind_fun_some _

/-- The second edit finds the style that the first one found. -/
theorem run_covered {project middle : Node}
    (hfirst : first.perform? (styleOf project) project = some middle)
    (hstyle : styleOf middle = styleOf project) :
    run indentUnit [first, last] project = last.perform? (styleOf project) middle := by
  show (first.perform? (styleOf project) project).bind
    (fun tree => run indentUnit [last] tree) = _
  rw [hfirst, Option.bind_some, run_single, hstyle]

/-- It is enough that the last edit covers the first one in every style. -/
theorem lastCounts_of_covers
    (hcovers : ∀ style, ∃ middle after,
      first.perform? style descriptor.root = some middle ∧
      last.perform? style middle = some after ∧
      last.perform? style descriptor.root = some after)
    (hstyle : ∀ middle, first.perform? (styleOf descriptor.root) descriptor.root = some middle →
      styleOf middle = styleOf descriptor.root) :
    LastCounts descriptor first last := by
  constructor
  · obtain ⟨middle, after, hmiddle, hboth, halone⟩ := hcovers descriptor.style
    refine ⟨{ descriptor with root := after }, ?_⟩
    rw [List.forall_mem_cons, List.forall_mem_singleton, applyAll?_pair, applyAll?_single, hmiddle,
      Option.bind_some, hboth, halone]
    exact ⟨rfl, rfl⟩
  · obtain ⟨middle, after, hmiddle, hboth, halone⟩ := hcovers (styleOf descriptor.root)
    refine ⟨after, ?_⟩
    rw [List.forall_mem_cons, List.forall_mem_singleton, run_single,
      run_covered hmiddle (hstyle middle hmiddle)]
    exact ⟨hboth, halone⟩

end Covered

/-- **The last edit counts.** Of two pins the first one leaves no trace, whatever it had to declare;
where a profile declares the deployment plugin, neither does the first of two configurations,
whether or not the plugin had one before. -/
theorem last_edit_counts (descriptor : Descriptor) :
    (∀ first last : String, LastCounts descriptor (.pin first) (.pin last)) ∧
    (Hosted descriptor.root → ∀ first last : Node, first.isNamed "configuration" = true →
      LastCounts descriptor (.configure first) (.configure last)) := by
  constructor
  · intro first last
    refine lastCounts_of_covers (fun style => ⟨_, _, rfl, rfl, ?_⟩) ?_
    · exact congrArg some (pin_pin first last style descriptor.root).symm
    · rintro middle ⟨⟩
      have hkept := @kept_pin (styleOf descriptor.root) (allBlank_indentUnit _) first
        descriptor.root
      have hunit := @indentUnit_pin (styleOf descriptor.root) descriptor.root rfl first
      exact congrArg₂ Style.mk (spaceOf_congr hkept.label) hunit
  · intro hosted first last hfirst
    have hproper : (Edit.configure first).Configures := by
      rintro fragment ⟨⟩
      exact hfirst
    refine lastCounts_of_covers (fun style => ?_) fun middle => styleOf_perform? hosted
    obtain ⟨middle, hmiddle, -⟩ := exists_perform? hosted hproper style
    have hcovers := @configure?_configure? descriptor.root style hosted first hfirst last
    have hlast := @configure?_eq_some style last descriptor.root hosted
    have hconfigured : configure? first style descriptor.root = some middle := hmiddle
    rw [hconfigured, hlast] at hcovers
    exact ⟨middle, _, hmiddle, hcovers, hlast⟩

/-- Two pins and two configurations of a project whose only plugin has neither version nor
configuration, so that the first edit adds what the second one changes. -/
theorem last_edit_counts_hostProject :
    let descriptor : Descriptor := ⟨hostProject, styleOf hostProject, "", "\n"⟩
    let configuration (text : String) : Node :=
      Node.element ⟨"", "configuration"⟩ (some text) []
    Hosted descriptor.root ∧ (configuration "off").isNamed "configuration" = true ∧
    LastCounts descriptor (.pin "3.4") (.pin "3.5") ∧
    LastCounts descriptor (.configure (configuration "off"))
      (.configure (configuration "on")) := by
  intro descriptor configuration
  have hosted : Hosted descriptor.root := by
    show (hosting deployPlugin hostProject).isEmpty = false
    decide +kernel
  have hnamed : (configuration "off").isNamed "configuration" = true := rfl
  obtain ⟨hpins, hconfigurations⟩ := last_edit_counts descriptor
  exact ⟨hosted, hnamed, hpins "3.4" "3.5",
    hconfigurations hosted (configuration "off") (configuration "on") hnamed⟩

end Rollout.Pom
