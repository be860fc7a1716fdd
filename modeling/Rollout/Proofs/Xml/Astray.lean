import Rollout.Proofs.Xml.Declarations

/-!
# Names that go astray

Where the namespace of the root has the empty prefix, an attribute of that namespace is written
without a prefix, and an attribute without a prefix is in no namespace. So no attribute is read in
the namespace of the root, whatever the document holds.

- `Growth.Keeps`: what the reader holds when its scopes and the labels that it read have a property.
- `keeps_of_grow`: **one part of the content** keeps it when the elements that are opened have it.
- `bare_of_buildTree`: **no attribute is read** in the namespace of the root.
- `buildTree_reserved`: a root in the namespace that is reserved for `xml` is not read at all.
-/

namespace Rollout.Xml

/-! ## Properties of what is read -/

/-- The scopes of the open elements and the labels that were read have these properties. -/
structure Growth.Keeps (inScope : Scope → Prop) (read : Label → Prop) (growth : Growth) : Prop where
  frames : ∀ frame ∈ growth.frames,
    inScope frame.scope ∧ ∀ label ∈ frame.node.labels, read label
  root : ∀ root ∈ growth.root, ∀ label ∈ root.labels, read label

/-- An element that the part opens in a scope with the one property has both. -/
def Piece.Opens (inScope : Scope → Prop) (read : Label → Prop) (piece : Piece) : Prop :=
  ∀ tag, piece = .start tag → ∀ scope scope' label, inScope scope →
    openElement Dtd.empty scope tag = some (scope', label) → inScope scope' ∧ read label

theorem labels_addChild (node child : Node) :
    (node.addChild child).labels = node.labels ++ child.labels := by
  rw [Node.labels_eq, Node.labels_eq, Node.labelsAll_eq_flatMap, Node.labelsAll_eq_flatMap]
  unfold Node.addChild
  rw [List.flatMap_append, List.flatMap_singleton, List.cons_append]

/-- Text changes no label. -/
theorem labels_addText (node : Node) (cs : List Char) : (node.addText cs).labels = node.labels := by
  obtain ⟨label, text, children, tail⟩ := node
  unfold Node.addText
  split
  case h_1 last hlast =>
    have hchildren : children = children.dropLast ++ [last] :=
      (List.dropLast_append_getLast? _ hlast).symm
    have hlabels := Node.labels_withTail last (appendText last.tail cs)
    rw [Node.labels_eq, Node.labels_eq, Node.labelsAll_eq_flatMap, Node.labelsAll_eq_flatMap]
    dsimp only
    conv_rhs => rw [hchildren]
    rw [List.flatMap_append, List.flatMap_append, List.flatMap_singleton, List.flatMap_singleton,
      hlabels]
  case h_2 => rw [Node.labels_eq, Node.labels_eq]

section Keeps

variable {inScope : Scope → Prop} {read : Label → Prop}

theorem keeps_place {node : Node} {frames : List Frame} (hnode : ∀ label ∈ node.labels, read label)
    (hframes : ∀ frame ∈ frames, inScope frame.scope ∧ ∀ label ∈ frame.node.labels, read label) :
    (Growth.place node frames).Keeps inScope read := by
  cases frames with
  | nil =>
    refine ⟨hframes, ?_⟩
    rintro _ ⟨⟩
    exact hnode
  | cons frame frames =>
    obtain ⟨⟨hscope, hlabels⟩, hothers⟩ := List.forall_mem_cons.mp hframes
    refine ⟨List.forall_mem_cons.mpr ⟨⟨hscope, fun label hlabel => ?_⟩, hothers⟩, nofun⟩
    have hlabel : label ∈ (frame.node.addChild node).labels := hlabel
    rw [labels_addChild] at hlabel
    exact (List.mem_append.mp hlabel).elim (hlabels label) (hnode label)

theorem mem_labels_leaf {label label' : Label} {text tail : Option String}
    (h : label' ∈ Node.labels ⟨label, text, [], tail⟩) : label' = label :=
  List.mem_singleton.mp h

/-- **One part of the content** keeps the properties, when an element that it opens has them. -/
theorem keeps_of_grow {growth growth' : Growth} {piece : Piece}
    (h : grow Dtd.empty growth piece = some growth') (hgrowth : growth.Keeps inScope read)
    (hinitial : inScope Scope.initial) (hopens : piece.Opens inScope read)
    (hcomment : read .comment) (hinstruction : read .instruction) :
    growth'.Keeps inScope read := by
  obtain ⟨frames, root⟩ := growth
  have hframes := hgrowth.frames
  cases piece with
  | start tag =>
    obtain ⟨⟨scope, label⟩, hopened, hread⟩ := Option.bind_eq_some_iff.mp h
    have hscope : inScope (Growth.scope ⟨frames, root⟩) := by
      cases frames with
      | nil => exact hinitial
      | cons frame frames => exact (hframes frame (List.mem_cons_self ..)).1
    obtain ⟨hinner, hlabel⟩ := hopens tag rfl _ _ _ hscope hopened
    have hleaf : ∀ label' ∈ Node.labels ⟨label, none, [], none⟩, read label' := fun _ hmem =>
      mem_labels_leaf hmem ▸ hlabel
    dsimp only at hread
    split at hread
    case isTrue =>
      cases hread
      exact keeps_place hleaf hframes
    case isFalse =>
      cases hread
      exact ⟨List.forall_mem_cons.mpr ⟨⟨hinner, hleaf⟩, hframes⟩, nofun⟩
  | finish name =>
    cases frames with
    | nil => cases h
    | cons frame frames =>
      obtain ⟨⟨-, hlabels⟩, hothers⟩ := List.forall_mem_cons.mp hframes
      dsimp only [grow] at h
      split at h
      case isTrue =>
        cases h
        exact keeps_place hlabels hothers
      case isFalse => cases h
  | text cs =>
    cases frames with
    | nil => cases h
    | cons frame frames =>
      obtain ⟨⟨hscope, hlabels⟩, hothers⟩ := List.forall_mem_cons.mp hframes
      cases h
      refine ⟨List.forall_mem_cons.mpr ⟨⟨hscope, fun label hlabel => ?_⟩, hothers⟩, nofun⟩
      exact hlabels label (labels_addText frame.node cs ▸ hlabel)
  | comment cs =>
    cases frames with
    | nil => cases h
    | cons frame frames =>
      cases h
      exact keeps_place (fun _ hmem => mem_labels_leaf hmem ▸ hcomment) hframes
  | instruction target data =>
    cases frames with
    | nil => cases h
    | cons frame frames =>
      cases h
      exact keeps_place (fun _ hmem => mem_labels_leaf hmem ▸ hinstruction) hframes
  | entity name => cases h

theorem keeps_of_foldlM {pieces : List Piece} (hinitial : inScope Scope.initial)
    (hcomment : read .comment) (hinstruction : read .instruction) :
    ∀ {growth growth' : Growth}, pieces.foldlM (grow Dtd.empty) growth = some growth' →
      growth.Keeps inScope read → (∀ piece ∈ pieces, piece.Opens inScope read) →
      growth'.Keeps inScope read := by
  induction pieces with
  | nil =>
    rintro growth _ ⟨⟩ hgrowth -
    exact hgrowth
  | cons piece pieces ih =>
    intro growth growth' h hgrowth hpieces
    rw [List.foldlM_cons] at h
    obtain ⟨next, hnext, hrest⟩ := Option.bind_eq_some_iff.mp h
    obtain ⟨hfirst, hothers⟩ := List.forall_mem_cons.mp hpieces
    exact ih hrest (keeps_of_grow hnext hgrowth hinitial hfirst hcomment hinstruction) hothers

/-- **The labels of a tree** have a property that every element has when it is opened. -/
theorem read_of_buildTree {pieces : List Piece} {root : Node} (hinitial : inScope Scope.initial)
    (hcomment : read .comment) (hinstruction : read .instruction)
    (hpieces : ∀ piece ∈ pieces, piece.Opens inScope read)
    (h : buildTree Dtd.empty pieces = some root) : ∀ label ∈ root.labels, read label := by
  obtain ⟨growth, hgrow, hroot⟩ := Option.bind_eq_some_iff.mp h
  have hkeeps := keeps_of_foldlM hinitial hcomment hinstruction hgrow ⟨nofun, nofun⟩ hpieces
  exact hkeeps.root root hroot

end Keeps

/-! ## Attributes of the root's namespace -/

theorem eq_cons_of_bind {scope scope' : Scope} {pfx : List Char} {address : String}
    (h : scope.bind pfx address = some scope') : scope' = (pfx, address) :: scope := by
  unfold Scope.bind at h
  split at h
  · cases h
  · split at h
    · cases h
    · split at h
      · cases h
      · split at h
        · cases h
        · exact (Option.some.inj h).symm

/-- No prefix but the empty one stands for the namespace. -/
def Apart (space : String) (scope : Scope) : Prop :=
  ∀ pfx, pfx ≠ [] → scope.lookup pfx ≠ some space

/-- No attribute is in the namespace. -/
def Bare (space : String) (label : Label) : Prop :=
  ∀ name attributes, label = .element name attributes →
    ∀ entry ∈ attributes, entry.1.space ≠ space

section Apart

variable {space : String} {scope scope' : Scope}

theorem Apart.declare (h : Apart space scope) {entry : TagName × String}
    (hentry : ∀ pfx, declaredPrefix? entry.1 = some pfx → pfx ≠ [] → entry.2 ≠ space)
    (hdeclare : scope.declare entry = some scope') : Apart space scope' := by
  unfold Scope.declare at hdeclare
  split at hdeclare
  case h_1 declared hdeclared =>
    rw [eq_cons_of_bind hdeclare]
    intro pfx hpfx
    rw [List.lookup_cons]
    split
    case h_1 hsame =>
      obtain rfl : pfx = declared := by simpa using hsame
      exact fun heq => hentry pfx hdeclared hpfx (Option.some.inj heq)
    case h_2 => exact h pfx hpfx
  case h_2 =>
    cases hdeclare
    exact h

theorem Apart.declareAll {values : List (TagName × String)} (h : Apart space scope)
    (hvalues : ∀ entry ∈ values, ∀ pfx, declaredPrefix? entry.1 = some pfx → pfx ≠ [] →
      entry.2 ≠ space)
    (hdeclare : values.foldlM Scope.declare scope = some scope') : Apart space scope' := by
  induction values generalizing scope with
  | nil =>
    cases hdeclare
    exact h
  | cons entry values ih =>
    rw [List.foldlM_cons] at hdeclare
    obtain ⟨next, hnext, hrest⟩ := Option.bind_eq_some_iff.mp hdeclare
    obtain ⟨hfirst, hothers⟩ := List.forall_mem_cons.mp hvalues
    exact ih (h.declare hfirst hnext) hothers hrest

/-- An attribute without a prefix is in no namespace, and no other prefix stands for this one. -/
theorem Apart.attributeName (h : Apart space scope) (hspace : space ≠ "") {tag : TagName}
    {name : QName} (hname : scope.attributeName tag = some name) : name.space ≠ space := by
  unfold Scope.attributeName at hname
  split at hname
  case isTrue =>
    cases hname
    exact hspace.symm
  case isFalse hne =>
    obtain ⟨address, haddress, rfl⟩ := Option.map_eq_some_iff.mp hname
    rintro rfl
    exact h tag.pfx (by simpa using hne) haddress

/-- **An element that is opened** has no attribute of the namespace, when its start tag declares no
prefix for it. -/
theorem Apart.opens {piece : Piece} (hspace : space ≠ "")
    (hpiece : ∀ tag, piece = .start tag → ∃ values, attributeValues Dtd.empty tag = some values ∧
      ∀ entry ∈ values, ∀ pfx, declaredPrefix? entry.1 = some pfx → pfx ≠ [] → entry.2 ≠ space) :
    piece.Opens (Apart space) (Bare space) := by
  rintro tag htag scope scope' label h hopened
  obtain ⟨values, hvalues, hfree⟩ := hpiece tag htag
  obtain ⟨values', attributes, name, hvalues', -, hdeclare, hattributes, -, -, rfl⟩ :=
    openElement_eq_some.mp hopened
  obtain rfl : values' = values := Option.some.inj (hvalues'.symm.trans hvalues)
  have hapart := h.declareAll hfree hdeclare
  refine ⟨hapart, ?_⟩
  rintro _ _ ⟨⟩ entry hentry
  obtain ⟨value, -, hresolved⟩ := exists_item_of_mapM hattributes entry hentry
  obtain ⟨resolved, hresolvedName, rfl⟩ := Option.map_eq_some_iff.mp hresolved
  exact hapart.attributeName hspace hresolvedName

end Apart

/-! ## Documents -/

section Documents

variable {space : String} {root again : Node}

/-- A declaration of a prefix other than the empty one does not declare the root's namespace. -/
theorem Assigned.ne_of_declared {assigned : Prefixes} (h : Assigned space assigned)
    {declared : TagName × String} (hdeclared : declared ∈ declaredEntries assigned)
    {pfx : List Char} (hpfx : declaredPrefix? declared.1 = some pfx) (hne : pfx ≠ []) :
    declared.2 ≠ space := by
  obtain ⟨entry, hentry, rfl⟩ := mem_declaredEntries hdeclared
  rw [declaredPrefix?_declarationTag] at hpfx
  intro heq
  refine hne ?_
  rw [← Option.some.inj hpfx, h.empty_of_eq hentry heq]
  rfl

/-- A tag with another prefix than that of declarations declares the empty one at most. -/
theorem eq_nil_of_declaredPrefix? {tag : TagName} {pfx : List Char}
    (htag : tag.pfx ≠ "xmlns".toList) (h : declaredPrefix? tag = some pfx) : pfx = [] := by
  unfold declaredPrefix? at h
  rw [if_neg htag] at h
  split at h
  · exact (Option.some.inj h).symm
  · cases h

/-- The start tags of a document declare no other prefix for the namespace of the root. -/
theorem opens_of_mem_rootPieces (hspace : space ≠ "") (hsound : root.Every Sound) {piece : Piece}
    (hpiece : piece ∈ rootPieces space root) : piece.Opens (Apart space) (Bare space) := by
  obtain ⟨hassigned, hcovered⟩ := assigned_assign space hsound
  refine Apart.opens hspace fun tag htag => ?_
  rcases mem_pieces root _ hpiece with hplain | ⟨declared, name, attributes, closed, hdeclared,
    hlabel, hstart⟩
  · exact absurd htag (hplain.1 tag)
  obtain rfl : tag = _ := Piece.start.inj (htag.symm.trans hstart)
  refine ⟨_, attributeValues_written _ _ _, List.forall_mem_append.mpr ⟨?_, ?_⟩⟩
  · intro entry hentry pfx hpfx hne
    rcases hdeclared with rfl | rfl
    · exact hassigned.ne_of_declared hentry hpfx hne
    · cases hentry
  · intro entry hentry pfx hpfx hne
    obtain ⟨original, horiginal, rfl⟩ := List.mem_map.mp hentry
    have hcoveredName := (covered_of_mem_labels hcovered hlabel).2 original horiginal
    exact absurd (eq_nil_of_declaredPrefix? (pfx_writtenTag_ne hassigned hcoveredName) hpfx) hne

/-- **No attribute is read** in the namespace of the root. -/
theorem bare_of_buildTree (hspace : space ≠ "") (hreserved : space ≠ xmlSpace)
    (hsound : root.Every Sound) (h : buildTree Dtd.empty (rootPieces space root) = some again) :
    ∀ label ∈ again.labels, Bare space label := by
  have hinitial : Apart space Scope.initial := fun pfx _ hfound =>
    hreserved (Prod.mk.inj (List.mem_singleton.mp (mem_of_lookup hfound))).2
  exact read_of_buildTree hinitial nofun nofun
    (fun piece hpiece => opens_of_mem_rootPieces hspace hsound hpiece) h

/-! ## The reserved namespace -/

theorem declare_of_foldlM {values : List (TagName × String)} {scope scope' : Scope}
    (h : values.foldlM Scope.declare scope = some scope') :
    ∀ entry ∈ values, ∃ outer inner, Scope.declare outer entry = some inner := by
  induction values generalizing scope with
  | nil => exact fun _ hentry => absurd hentry List.not_mem_nil
  | cons entry values ih =>
    rw [List.foldlM_cons] at h
    obtain ⟨next, hnext, hrest⟩ := Option.bind_eq_some_iff.mp h
    exact List.forall_mem_cons.mpr ⟨⟨scope, next, hnext⟩, ih hrest⟩

/-- The namespace that is reserved for `xml` cannot be the default one. -/
theorem declare_reserved (scope : Scope) : scope.declare (declarationTag "", xmlSpace) = none := by
  have hother : ((([] : List Char) = "xml".toList : Bool) != (xmlSpace == xmlSpace)) = true := by
    decide
  show scope.bind [] xmlSpace = none
  unfold Scope.bind
  rw [if_neg (by decide), if_pos hother]

/-- The first part of a root is its start tag. -/
theorem exists_rootPieces (space : String) {name : QName} {attributes : Attributes}
    (hlabel : root.label = .element name attributes) :
    ∃ tagOf closed more, rootPieces space root
      = startPiece tagOf (declaredEntries (assign (Prefixes.held space) root)) name attributes
          closed :: more := by
  obtain ⟨label, text, children, tail⟩ := root
  obtain rfl : label = .element name attributes := hlabel
  unfold rootPieces
  by_cases hempty : text = none ∧ children = []
  · obtain ⟨rfl, rfl⟩ := hempty
    exact ⟨_, true, _, pieces_closed ..⟩
  · dsimp only
    rw [pieces_open _ _ _ _ _ hempty]
    exact ⟨_, false, _, rfl⟩

/-- **A root in the reserved namespace** is not read, once it is written. -/
theorem buildTree_reserved {name : QName} {attributes : Attributes} (hsound : root.Every Sound)
    (hlabel : root.label = .element name attributes) (hname : name.space = xmlSpace) :
    buildTree Dtd.empty (rootPieces xmlSpace root) = none := by
  obtain ⟨hassigned, hcovered⟩ := assigned_assign xmlSpace hsound
  have hheld : (Prefixes.held xmlSpace).lookup xmlSpace = some "" := lookup_held_self (by decide)
  -- its namespace holds the empty prefix, and is declared like any other
  have hdeclared : (declarationTag "", xmlSpace)
      ∈ declaredEntries (assign (Prefixes.held xmlSpace) root) := by
    have hroot := (covered_of_mem_labels hcovered
      (Node.mem_labels.mpr (.inl hlabel.symm))).1
    unfold Covered at hroot
    rw [hname, hheld] at hroot
    have hsome := (hroot.resolve_left (by decide)).resolve_left (by decide)
    obtain ⟨pfx, hpfx⟩ := Option.isSome_iff_exists.mp hsome
    have hmem := mem_of_lookup hpfx
    obtain rfl : pfx = "" := hassigned.empty_of_eq hmem rfl
    exact List.mem_map.mpr ⟨_, (perm_declarations _).mem_iff.mpr hmem, rfl⟩
  obtain ⟨tagOf, closed, more, hpieces⟩ := exists_rootPieces xmlSpace hlabel
  rw [Option.eq_none_iff_forall_ne_some]
  intro again hbuild
  obtain ⟨growth, hgrow, -⟩ := Option.bind_eq_some_iff.mp hbuild
  rw [hpieces, List.foldlM_cons] at hgrow
  obtain ⟨next, hnext, -⟩ := Option.bind_eq_some_iff.mp hgrow
  obtain ⟨⟨scope, label⟩, hopened, -⟩ := Option.bind_eq_some_iff.mp hnext
  obtain ⟨values, _, _, hvalues, -, hdeclare, -⟩ := openElement_eq_some.mp hopened
  rw [attributeValues_written] at hvalues
  obtain rfl := Option.some.inj hvalues
  obtain ⟨outer, inner, hinner⟩ :=
    declare_of_foldlM hdeclare _ (List.mem_append_left _ hdeclared)
  rw [declare_reserved] at hinner
  cases hinner

end Documents

end Rollout.Xml
