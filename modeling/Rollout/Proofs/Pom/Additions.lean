import Rollout.Proofs.Pom.Frame
import Rollout.Proofs.Pom.Names
import Rollout.Proofs.Xml.Layout
import Rollout.Proofs.Xml.Reread

/-!
# Elements that are added to a document

What an edit adds is in the namespace of the document, which has the empty prefix. So it needs no
declaration, and its start tags open elements wherever it stands.

- `opens_insertLast`, `opens_within`: start tags still open elements once some are added.
- `Outside`, `assign_of_outside`: names of the document's own namespace do not matter for the
  prefixes that are assigned.
- `legible_insertLast`, `legible_within`: what is added to a legible tree leaves it legible.
- `opens_insertDependency`, `outside_insertDependency`, `legible_insertDependency`: the three for
  **a dependency that is added**.
-/

namespace Rollout.Pom

open Xml

/-! ## Children after an edit -/

section Children

variable {P : Node → Prop} {style : Style} {depth : Nat} {child parent : Node}

theorem forall_insertLast (hold : ∀ each ∈ parent.children, P each)
    (htail : ∀ each, P each → P { each with tail := some (lineBreak style.indent (depth + 1)) })
    (hnew : ∀ tail, (tail = some (lineBreak style.indent depth) ∨
        ∃ last ∈ parent.children, tail = last.tail) →
      P { child.indented style.indent (depth + 1) with tail := tail }) :
    ∀ each ∈ (style.insertLast depth child parent).children, P each := by
  unfold Style.insertLast
  dsimp only
  cases hlast : parent.children.getLast? with
  | none => exact List.forall_mem_singleton.mpr (hnew _ (.inl rfl))
  | some last =>
    obtain ⟨front, hfront⟩ := List.getLast?_eq_some_iff.mp hlast
    dsimp only
    rw [hfront] at hold
    obtain ⟨hfronts, hlasts⟩ := List.forall_mem_append.mp hold
    rw [hfront, modifyLast_append_singleton]
    refine List.forall_mem_append.mpr ⟨List.forall_mem_append.mpr ⟨hfronts, ?_⟩, ?_⟩
    · exact List.forall_mem_singleton.mpr (htail last (List.forall_mem_singleton.mp hlasts))
    · exact List.forall_mem_singleton.mpr
        (hnew _ (.inr ⟨last, List.mem_of_getLast? hlast, rfl⟩))

theorem forall_modifyFirst {test : Node → Bool} {f : Node → Node} {nodes : List Node}
    (h : ∀ each ∈ nodes, P each) (hf : ∀ each, test each = true → P each → P (f each)) :
    ∀ each ∈ modifyFirst test f nodes, P each := by
  induction nodes with
  | nil => exact nofun
  | cons node nodes ih =>
    obtain ⟨hfirst, hothers⟩ := List.forall_mem_cons.mp h
    rw [modifyFirst]
    split
    case isTrue htest => exact List.forall_mem_cons.mpr ⟨hf node htest hfirst, hothers⟩
    case isFalse => exact List.forall_mem_cons.mpr ⟨hfirst, ih hothers⟩

end Children

/-! ## Start tags -/

section Opens

variable {tagOf : QName → TagName} {declarations : List (TagName × String)} {scope : Scope}
  {style : Style} {depth : Nat} {child parent node : Node}

theorem opens_withTail (h : Opens tagOf declarations scope node) (tail : Option String) :
    Opens tagOf declarations scope { node with tail := tail } := by
  cases h with
  | intro opened inside => exact .intro opened inside

theorem opens_indented (h : Opens tagOf declarations scope node) (unit : String) (depth : Nat) :
    Opens tagOf declarations scope (node.indented unit depth) := by
  induction h generalizing depth with
  | intro opened _ ih =>
    refine .intro ((indented_label ..).symm ▸ opened) ?_
    rw [children_indented]
    intro each heach
    obtain ⟨child, hchild, after, rfl⟩ := exists_of_mem_indentedAll heach
    exact opens_withTail (ih child hchild (depth + 1)) _

theorem opens_insertLast (h : Opens tagOf declarations scope parent)
    (hchild : ∀ scope, Opens tagOf [] scope child) :
    Opens tagOf declarations scope (style.insertLast depth child parent) := by
  cases h with
  | intro opened inside =>
    refine .intro ((inPlace_insertLast style depth child).label parent ▸ opened) ?_
    exact forall_insertLast inside (fun _ heach => opens_withTail heach _)
      fun _ _ => opens_withTail (opens_indented (hchild _) ..) _

/-- **An edit inside a child** that is there or added. -/
theorem opens_within {name : String} {f : Node → Node} (h : Opens tagOf declarations scope node)
    (hnew : ∀ scope, Opens tagOf [] scope (style.newElement name []))
    (hf : ∀ scope each, Opens tagOf [] scope each → Opens tagOf [] scope (f each)) :
    Opens tagOf declarations scope (style.within depth name f node) := by
  have hchild : Opens tagOf declarations scope (style.withChild depth name node) := by
    unfold Style.withChild
    split
    · exact h
    · exact opens_insertLast h hnew
  cases hchild with
  | intro opened inside =>
    exact .intro opened (forall_modifyFirst inside fun each _ => hf _ each)

/-- Elements without attributes whose tags have no prefix are opened in every scope. -/
theorem opens_of_bare (h : node.Every fun each =>
    ∃ name, each.label = .element name [] ∧ (tagOf name).pfx = []) :
    ∀ scope, Opens tagOf [] scope node := by
  induction h with
  | @intro node here _ ih =>
    intro scope
    obtain ⟨name, hlabel, hpfx⟩ := here
    obtain ⟨found, hfound⟩ : ∃ found, scope.elementName (tagOf name) = some found := by
      unfold Scope.elementName
      rw [hpfx]
      cases scope.lookup [] with
      | none => exact ⟨_, rfl⟩
      | some space => exact ⟨_, rfl⟩
    have hopened : reopen tagOf [] scope node.label = some (scope, .element found []) := by
      rw [hlabel]
      exact openElement_eq_some.mpr ⟨[], [], found, attributeValues_written _ [] _,
        List.nodup_nil, rfl, rfl, List.nodup_nil, hfound, rfl⟩
    exact .intro hopened fun child hchild => ih child hchild scope

end Opens

/-! ## Names outside a namespace -/

/-- The names of a tree that are not in the namespace. -/
def Outside (space : String) (node : Node) : List QName :=
  node.names.filter fun name => name.space ≠ space

section Outside

variable {space : String} {style : Style} {depth : Nat} {child parent node : Node}

theorem outside_eq (space : String) (node : Node) : Outside space node
    = (node.label.names.filter fun name => name.space ≠ space)
      ++ node.children.flatMap (Outside space) := by
  unfold Outside Node.names
  rw [Node.labels_eq, List.flatMap_cons, List.filter_append, Node.labelsAll_eq_flatMap,
    List.flatMap_assoc, List.filter_flatMap]

theorem outside_of_inSpace {node : Node} (h : node.Every fun each =>
    ∃ name, each.label = .element ⟨space, name⟩ []) : Outside space node = [] := by
  induction h with
  | @intro node here _ ih =>
    obtain ⟨name, hlabel⟩ := here
    rw [outside_eq, hlabel, List.flatMap_eq_nil_iff.mpr ih]
    simp [Label.names]

theorem labels_insertLast (style : Style) (depth : Nat) (child parent : Node) :
    (style.insertLast depth child parent).labels = parent.labels ++ child.labels := by
  rw [Node.labels_eq, Node.labels_eq parent, (inPlace_insertLast style depth child).label,
    List.cons_append, Node.labelsAll_eq_flatMap, Node.labelsAll_eq_flatMap]
  unfold Style.insertLast
  dsimp only
  cases hlast : parent.children.getLast? with
  | none =>
    simp only [List.getLast?_eq_none_iff.mp hlast, List.flatMap_cons, List.flatMap_nil,
      List.append_nil, List.nil_append, Node.labels_withTail, labels_indented]
  | some last =>
    obtain ⟨front, hfront⟩ := List.getLast?_eq_some_iff.mp hlast
    dsimp only
    rw [hfront, modifyLast_append_singleton]
    simp only [List.flatMap_append, List.flatMap_cons, List.flatMap_nil, List.append_nil,
      Node.labels_withTail, labels_indented]

theorem outside_insertLast (hchild : Outside space child = []) :
    Outside space (style.insertLast depth child parent) = Outside space parent := by
  have happend : Outside space (style.insertLast depth child parent)
      = Outside space parent ++ Outside space child := by
    unfold Outside Node.names
    rw [labels_insertLast, List.flatMap_append, List.filter_append]
  rw [happend, hchild, List.append_nil]

theorem outside_changeChild {name : String} {f : Node → Node}
    (hf : ∀ each, Outside space (f each) = Outside space each) :
    Outside space (changeChild name f node) = Outside space node := by
  have hchildren : ∀ nodes : List Node, (modifyFirst (Node.isNamed name) f nodes).flatMap
      (Outside space) = nodes.flatMap (Outside space) := by
    intro nodes
    induction nodes with
    | nil => rfl
    | cons node nodes ih =>
      rw [modifyFirst]
      split <;> simp [hf, ih]
  rw [outside_eq, outside_eq space node]
  exact congrArg _ (hchildren node.children)

theorem outside_within {name : String} {f : Node → Node}
    (hf : ∀ each, Outside style.space (f each) = Outside style.space each) :
    Outside style.space (style.within depth name f node) = Outside style.space node := by
  have hnew : Outside style.space (style.newElement name []) = [] :=
    outside_of_inSpace (.intro ⟨name, rfl⟩ nofun)
  refine (outside_changeChild hf).trans ?_
  unfold Style.withChild
  split
  · rfl
  · exact outside_insertLast hnew

end Outside

section Assign

variable {register assigned : Prefixes} {space : String}

/-- A name in a namespace that has a prefix brings none. -/
theorem foldl_assignName_outside (names : List QName)
    (h : space = "" ∨ (assigned.lookup space).isSome = true) :
    names.foldl (assignName register) assigned
      = (names.filter fun name => name.space ≠ space).foldl (assignName register) assigned := by
  induction names generalizing assigned with
  | nil => rfl
  | cons name names ih =>
    by_cases hname : name.space = space
    · have hsame : assignName register assigned name = assigned := by
        unfold assignName
        rw [hname, if_pos]
        simpa using h
      rw [List.filter_cons_of_neg (by simpa using hname), List.foldl_cons, hsame]
      exact ih h
    · rw [List.filter_cons_of_pos (by simpa using hname), List.foldl_cons, List.foldl_cons]
      exact ih (h.imp_right fun hfound => isSome_lookup_assignName hfound name)

/-- **Names of the root's namespace** do not matter for the prefixes that are assigned, when it
holds the empty prefix. -/
theorem assign_of_outside {root root' : Node} {name : QName} {attributes : Attributes}
    (hlabel : root.label = .element name attributes) (hsame : root'.label = root.label)
    (hown : OwnsPrefix register name)
    (houtside : Outside name.space root' = Outside name.space root) :
    assign register root' = assign register root := by
  obtain ⟨more, hmore⟩ := exists_names hlabel
  obtain ⟨more', hmore'⟩ := exists_names (hsame.trans hlabel)
  have hcovered : name.space = "" ∨
      ((assignName register [] name).lookup name.space).isSome = true := by
    refine or_iff_not_imp_left.mpr fun hspace => ?_
    have hempty : prefixFor register [] name.space = "" := by
      unfold prefixFor
      rw [hown.resolve_left hspace]
      rfl
    unfold assignName
    simp [hspace, hempty]
  have hrest : (more'.filter fun other => other.space ≠ name.space)
      = more.filter fun other => other.space ≠ name.space := by
    unfold Outside at houtside
    rw [hmore, hmore', List.filter_cons_of_neg (by simp), List.filter_cons_of_neg (by simp)]
      at houtside
    exact houtside
  show root'.names.foldl _ [] = root.names.foldl _ []
  rw [hmore, hmore', List.foldl_cons, List.foldl_cons, foldl_assignName_outside more' hcovered,
    foldl_assignName_outside more hcovered, hrest]

end Assign

/-! ## Legible trees -/

section Legible

variable {style : Style} {depth : Nat} {child parent node : Node}

theorem legible_withTail (h : Legible node) {tail : Option String} (htail : LegalText tail) :
    Legible { node with tail := tail } := by
  have hterse :
      Node.terse { node with tail := tail } = { node.terse with tail := filled tail } := by
    obtain ⟨label, text, children, old⟩ := node
    cases label <;> rfl
  unfold Legible
  rw [hterse]
  exact Sound.withTail h (soundText_filled htail)

theorem legalText_tail (h : Legible node) : LegalText node.tail := by
  have hterse : node.terse.tail = filled node.tail := by
    obtain ⟨label, text, children, tail⟩ := node
    cases label <;> rfl
  have hbehind := Sound.behind h
  rw [hterse] at hbehind
  exact legalText_of_filled hbehind

/-- An element may be given any text that is legal, and any children. -/
theorem legible_withContent (h : Legible node) (helement : node.name?.isSome = true)
    {text : Option String} (htext : LegalText text) (children : List Node) :
    Legible { node with text := text, children := children } := by
  obtain ⟨label, old, olds, tail⟩ := node
  cases label with
  | comment => cases helement
  | instruction => cases helement
  | element name attributes =>
    obtain ⟨hnamed, -, htail⟩ := legible_element_iff.mp h
    exact legible_element_iff.mpr ⟨hnamed, htext, htail⟩

/-- Nothing but elements has children. -/
theorem isSome_name?_of_legible (h : Legible node) (hne : node.children ≠ []) :
    node.name?.isSome = true := by
  have hleaf : ∀ {each : Node}, Sound each → each.children ≠ [] → each.name?.isSome = true := by
    rintro each hsound hchildren
    cases hsound with
    | element => rfl
    | comment => exact absurd rfl hchildren
    | instruction => exact absurd rfl hchildren
  have helement := hleaf h (by rw [retexts_terse.children]; simpa using hne)
  unfold Node.name? at helement ⊢
  rwa [retexts_terse.label] at helement

theorem legalText_text (h : Legible node) (helement : node.name?.isSome = true) :
    LegalText node.text := by
  obtain ⟨label, text, children, tail⟩ := node
  cases label with
  | comment => cases helement
  | instruction => cases helement
  | element name attributes => exact (legible_element_iff.mp h).2.1

theorem legal_lineBreak {unit : String} (h : Legal unit.toList) (depth : Nat) :
    LegalText (some (lineBreak unit depth)) :=
  forall_mem_lineBreak (by decide) h depth

theorem legalText_unlessBlank {text : Option String} {replacement : String} (h : LegalText text)
    (hreplacement : LegalText (some replacement)) : LegalText (unlessBlank text replacement) := by
  unfold unlessBlank
  split
  · split
    · exact hreplacement
    · exact h
  · exact hreplacement

/-- Indentation leaves a tree legible. -/
theorem legible_indented {unit : String} (hunit : Legal unit.toList) (h : node.Every Legible)
    (depth : Nat) : (node.indented unit depth).Every Legible := by
  refine every_indented (fun each depth heach => ?_) (fun each depth hne heach => ?_) h depth
  · exact legible_withTail heach
      (legalText_unlessBlank (legalText_tail heach) (legal_lineBreak hunit depth))
  · have helement := isSome_name?_of_legible heach hne
    exact legible_withContent heach helement (legalText_unlessBlank
      (legalText_text heach helement) (legal_lineBreak hunit (depth + 1))) _

theorem every_legible_withTail (h : node.Every Legible) {tail : Option String}
    (htail : LegalText tail) : Node.Every Legible { node with tail := tail } :=
  .intro (legible_withTail h.here htail) h.inside

theorem legible_insertLast (hunit : Legal style.indent.toList) (hparent : parent.Every Legible)
    (helement : parent.name?.isSome = true) (hchild : child.Every Legible) :
    (style.insertLast depth child parent).Every Legible := by
  refine .intro ?_ (forall_insertLast hparent.inside (fun each heach => ?_) fun tail htail => ?_)
  · unfold Style.insertLast
    dsimp only
    split
    · exact legible_withContent hparent.here helement (legalText_text hparent.here helement) _
    · exact legible_withContent hparent.here helement (legal_lineBreak hunit _) _
  · exact every_legible_withTail heach (legal_lineBreak hunit _)
  · refine every_legible_withTail (legible_indented hunit hchild _) ?_
    rcases htail with rfl | ⟨last, hlast, rfl⟩
    · exact legal_lineBreak hunit _
    · exact legalText_tail (hparent.inside last hlast).here

theorem isSome_name?_of_isNamed {name : String} (h : node.isNamed name = true) :
    node.name?.isSome = true := by
  unfold Node.isNamed at h
  obtain ⟨found, hfound, -⟩ := (Option.any_eq_true ..).mp h
  exact Option.isSome_of_eq_some hfound

theorem legible_within {name : String} {f : Node → Node} (hunit : Legal style.indent.toList)
    (hnode : node.Every Legible) (helement : node.name?.isSome = true)
    (hnew : (style.newElement name []).Every Legible)
    (hf : ∀ each : Node, each.name?.isSome = true → each.Every Legible → (f each).Every Legible) :
    (style.within depth name f node).Every Legible := by
  have hchild : (style.withChild depth name node).Every Legible := by
    unfold Style.withChild
    split
    · exact hnode
    · exact legible_insertLast hunit hnode helement hnew
  have hlabel := (inPlace_withChild style depth name).label node
  have hhere := hchild.here
  refine .intro ?_ (forall_modifyFirst hchild.inside fun each hnamed =>
    hf each (isSome_name?_of_isNamed hnamed))
  have helement' : (style.withChild depth name node).name?.isSome = true := by
    unfold Node.name? at helement ⊢
    rwa [hlabel]
  exact legible_withContent hhere helement' (legalText_text hhere helement') _

end Legible

/-! ## A dependency that is added -/

section Dependency

variable {style : Style} {project : Node} (group artifact version : String)

/-- The element of a dependency. -/
def dependencyElement (group artifact version : String) (style : Style) : Node :=
  style.newElement "dependency"
    [style.newTextElement "groupId" (some group), style.newTextElement "artifactId" (some artifact),
      style.newTextElement "version" (some version)]

theorem bare_dependencyElement : (dependencyElement group artifact version style).Every fun each =>
    ∃ name, each.label = .element ⟨style.space, name⟩ [] := by
  have htext : ∀ name text, (style.newTextElement name text).Every fun each =>
      ∃ name, each.label = .element ⟨style.space, name⟩ [] := fun name text =>
    .intro ⟨name, rfl⟩ (List.forall_mem_nil _)
  exact .intro ⟨_, rfl⟩ (List.forall_mem_cons.mpr ⟨htext .., List.forall_mem_cons.mpr
    ⟨htext .., List.forall_mem_singleton.mpr (htext ..)⟩⟩)

theorem opens_insertDependency {tagOf : QName → TagName} {declarations : List (TagName × String)}
    {scope : Scope} (hown : ∀ name, (tagOf ⟨style.space, name⟩).pfx = [])
    (h : Opens tagOf declarations scope project) :
    Opens tagOf declarations scope (insertDependency group artifact version style project) := by
  have hbare : ∀ {node : Node}, (node.Every fun each =>
      ∃ name, each.label = .element ⟨style.space, name⟩ []) →
      ∀ scope, Opens tagOf [] scope node := fun hnode =>
    opens_of_bare (hnode.mono fun _ ⟨name, hlabel⟩ => ⟨_, hlabel, hown name⟩)
  exact opens_within h (hbare (.intro ⟨_, rfl⟩ nofun)) fun scope each heach =>
    opens_insertLast heach (hbare (bare_dependencyElement group artifact version))

theorem outside_insertDependency :
    Outside style.space (insertDependency group artifact version style project)
      = Outside style.space project :=
  outside_within fun _ =>
    outside_insertLast (outside_of_inSpace (bare_dependencyElement group artifact version))

theorem legible_insertDependency (hspace : Bindable style.space) (hunit : Legal style.indent.toList)
    (hproject : project.Every Legible) (helement : project.name?.isSome = true)
    (hgroup : Legal group.toList) (hartifact : Legal artifact.toList)
    (hversion : Legal version.toList) :
    (insertDependency group artifact version style project).Every Legible := by
  have hnew : ∀ {name : String}, IsName name.toList → ∀ {text : Option String}
      {children : List Node}, LegalText text → (∀ child ∈ children, child.Every Legible) →
      Node.Every Legible (.element (style.qualified name) text children) :=
    fun hname _ _ htext hchildren => .intro (legible_element_iff.mpr
      ⟨⟨hname, hspace, List.forall_mem_nil _, List.forall_mem_nil _, List.nodup_nil⟩, htext,
        List.forall_mem_nil _⟩) hchildren
  have htext : ∀ {name text : String}, IsName name.toList → Legal text.toList →
      (style.newTextElement name (some text)).Every Legible := fun hname hlegal =>
    hnew hname hlegal (List.forall_mem_nil _)
  have hdependency : (dependencyElement group artifact version style).Every Legible :=
    hnew (by decide +kernel) (List.forall_mem_nil _) (List.forall_mem_cons.mpr
      ⟨htext (by decide +kernel) hgroup, List.forall_mem_cons.mpr
        ⟨htext (by decide +kernel) hartifact,
          List.forall_mem_singleton.mpr (htext (by decide +kernel) hversion)⟩⟩)
  exact legible_within hunit hproject helement
    (hnew (by decide +kernel) (List.forall_mem_nil _) (List.forall_mem_nil _))
    fun each heach hlegible => legible_insertLast hunit hlegible heach hdependency

end Dependency

end Rollout.Pom
