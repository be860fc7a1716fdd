import Rollout.Proofs.Pom.RoundTrip
import Rollout.Proofs.Xml.Astray

/-!
# Names of a descriptor that is written

The namespace of the root is written with the empty prefix. An element in no namespace is written
without a prefix as well, and so it is read again as one of the document's namespace; an attribute
of the document's namespace loses it.

- `rootPieces_intoSpace`: elements in no namespace are written like those of the document.
- `buildTree_intoSpace`: **a tree without own attributes** is read with its elements moved into the
  namespace of the document.
- `names_kept_iff`: **when every name is kept**.
-/

namespace Rollout.Pom

open Xml

/-! ## Elements that are moved -/

/-- A name moved into a namespace, unless it is in one already. -/
def movedName (space : String) (name : QName) : QName :=
  if name.space.isEmpty then ⟨space, name.name⟩ else name

theorem labelIntoSpace_element (style : Style) (name : QName) (attributes : Attributes) :
    style.labelIntoSpace (.element name attributes)
      = .element (movedName style.space name) attributes := by
  unfold Style.labelIntoSpace movedName
  dsimp only
  split <;> rfl

theorem movedName_of_ne {space : String} {name : QName} (h : name.space ≠ "") :
    movedName space name = name :=
  if_neg (by simpa using h)

theorem movedName_space {space : String} {name : QName} (h : name.space = "") :
    movedName space name = ⟨space, name.name⟩ :=
  if_pos (by simpa using h)

theorem movedName_movedName (space : String) (name : QName) :
    movedName space (movedName space name) = movedName space name := by
  unfold movedName
  by_cases h : name.space.isEmpty = true
  · rw [if_pos h]
    split <;> rfl
  · rw [if_neg h, if_neg h]

section Moved

variable {space : String} {assigned : Prefixes}

/-- The namespace of the root has a prefix when a name of it is covered. -/
theorem isSome_of_covered {name : QName} (hspace : space ≠ "") (hname : name.space = space)
    (h : Covered space assigned name) : (assigned.lookup space).isSome = true := by
  rcases h with hempty | hxml | hfound
  · exact absurd (hname.symm.trans hempty) hspace
  · rw [hname, lookup_held_self hspace] at hxml
    exact absurd (Option.some.inj hxml) (by decide)
  · rwa [hname] at hfound

/-- A moved name brings no prefix but that of its original, once the namespace has its own. -/
theorem assignName_movedName (h : (assigned.lookup space).isSome = true) (name : QName) :
    assignName (Prefixes.held space) assigned (movedName space name)
      = assignName (Prefixes.held space) assigned name := by
  by_cases hempty : name.space = ""
  · have hmoved : ∀ {moved : QName},
        (moved.space.isEmpty || (assigned.lookup moved.space).isSome) = true →
        assignName (Prefixes.held space) assigned moved = assigned := fun hdone => if_pos hdone
    rw [movedName_space hempty, hmoved (by simp [h]), hmoved (by simp [hempty])]
  · rw [movedName_of_ne hempty]

theorem foldl_assignName_movedName (h : (assigned.lookup space).isSome = true)
    (names : List QName) :
    (names.map (movedName space)).foldl (assignName (Prefixes.held space)) assigned
      = names.foldl (assignName (Prefixes.held space)) assigned := by
  induction names generalizing assigned with
  | nil => rfl
  | cons name names ih =>
    rw [List.map_cons, List.foldl_cons, List.foldl_cons, assignName_movedName h]
    exact ih (isSome_lookup_assignName h name)

/-- A moved name is written like its original. -/
theorem writtenTag_movedName (hassigned : Assigned space assigned)
    (h : (assigned.lookup space).isSome = true) (name : QName) :
    writtenTag (Prefixes.held space) assigned (movedName space name)
      = writtenTag (Prefixes.held space) assigned name := by
  by_cases hempty : name.space = ""
  · have hcovered : Covered space assigned ⟨space, name.name⟩ := .inr (.inr h)
    have hmoved : writtenTag (Prefixes.held space) assigned ⟨space, name.name⟩
        = ⟨[], name.name.toList⟩ := writtenTag_own hassigned hcovered rfl
    rw [movedName_space hempty, hmoved]
    unfold writtenTag
    rw [hempty]
    rfl
  · rw [movedName_of_ne hempty]

end Moved

mutual

theorem pieces_mapLabels {tagOf : QName → TagName} {style : Style}
    (h : ∀ name, tagOf (movedName style.space name) = tagOf name) :
    (node : Node) → (declarations : List (TagName × String)) →
    (node.mapLabels style.labelIntoSpace).pieces tagOf declarations
      = node.pieces tagOf declarations
  | ⟨.comment, text, children, tail⟩, declarations => by
    rw [Node.mapLabels]
    show Node.pieces tagOf declarations ⟨.comment, text, _, tail⟩ = _
    rw [Node.pieces, Node.pieces]
  | ⟨.instruction, text, children, tail⟩, declarations => by
    rw [Node.mapLabels]
    show Node.pieces tagOf declarations ⟨.instruction, text, _, tail⟩ = _
    rw [Node.pieces, Node.pieces]
  | ⟨.element name attributes, text, children, tail⟩, declarations => by
    have hempty : (Node.mapLabelsAll style.labelIntoSpace children).isEmpty = children.isEmpty := by
      cases children <;> rfl
    rw [Node.mapLabels, labelIntoSpace_element, Node.pieces, Node.pieces, hempty,
      piecesAll_mapLabelsAll h children]
    unfold startPiece
    rw [h name]

theorem piecesAll_mapLabelsAll {tagOf : QName → TagName} {style : Style}
    (h : ∀ name, tagOf (movedName style.space name) = tagOf name) :
    (nodes : List Node) →
    piecesAll tagOf (Node.mapLabelsAll style.labelIntoSpace nodes) = piecesAll tagOf nodes
  | [] => rfl
  | node :: nodes => by
    rw [Node.mapLabelsAll, piecesAll, piecesAll, pieces_mapLabels h node,
      piecesAll_mapLabelsAll h nodes]

end

section Trees

variable {style : Style} {root : Node} {name : QName} {attributes : Attributes}

/-- The names of a moved tree are moved names. -/
theorem map_movedName_names (style : Style) (root : Node) :
    (style.intoSpace root).names.map (movedName style.space)
      = root.names.map (movedName style.space) := by
  unfold Node.names Style.intoSpace
  rw [Node.labels_mapLabels, List.map_flatMap, List.map_flatMap, List.flatMap_map]
  refine List.flatMap_congr fun label _ => ?_
  cases label with
  | element name attributes =>
    rw [labelIntoSpace_element]
    show movedName _ (movedName _ name) :: _ = movedName _ name :: _
    rw [movedName_movedName]
  | comment => rfl
  | instruction => rfl

theorem exists_names (hlabel : root.label = .element name attributes) :
    ∃ more, root.names = name :: more := by
  unfold Node.names
  rw [Node.labels_eq, hlabel]
  exact ⟨_, rfl⟩

/-- The root of a document stays as it is. -/
theorem label_intoSpace (hspace : style.space ≠ "") (hlabel : root.label = .element name attributes)
    (hname : name.space = style.space) :
    (style.intoSpace root).label = .element name attributes := by
  obtain ⟨label, text, children, tail⟩ := root
  obtain rfl : label = _ := hlabel
  unfold Style.intoSpace
  rw [Node.mapLabels]
  dsimp only
  rw [labelIntoSpace_element, movedName_of_ne (hname ▸ hspace)]

/-- The moved tree is assigned the same prefixes. -/
theorem assign_intoSpace (hspace : style.space ≠ "")
    (hlabel : root.label = .element name attributes) (hname : name.space = style.space) :
    assign (Prefixes.held style.space) (style.intoSpace root)
      = assign (Prefixes.held style.space) root := by
  obtain ⟨more, hmore⟩ := exists_names hlabel
  obtain ⟨more', hmore'⟩ := exists_names (label_intoSpace hspace hlabel hname)
  have hmoved := map_movedName_names style root
  rw [hmore, hmore', List.map_cons, List.map_cons] at hmoved
  have hown : ((assignName (Prefixes.held style.space) [] name).lookup style.space).isSome = true :=
    isSome_of_covered hspace hname (covered_assignName name)
  have hfold := foldl_assignName_movedName hown
  show (style.intoSpace root).names.foldl _ [] = root.names.foldl _ []
  rw [hmore, hmore', List.foldl_cons, List.foldl_cons, ← hfold more', ← hfold more,
    (List.cons.inj hmoved).2]

/-- **Elements in no namespace** are written like those of the document. -/
theorem rootPieces_intoSpace (hspace : style.space ≠ "") (hsound : root.Every Sound)
    (hlabel : root.label = .element name attributes) (hname : name.space = style.space) :
    rootPieces style.space (style.intoSpace root) = rootPieces style.space root := by
  obtain ⟨hassigned, hcovered⟩ := assigned_assign style.space hsound
  have hown := (covered_of_mem_labels hcovered (Node.mem_labels.mpr (.inl hlabel.symm))).1
  unfold rootPieces
  rw [assign_intoSpace hspace hlabel hname]
  exact pieces_mapLabels
    (writtenTag_movedName hassigned (isSome_of_covered hspace hname hown)) root _

/-! ## The moved tree -/

theorem every_intoSpace {P Q : Node → Prop} (h : root.Every P)
    (hmoved : ∀ label text children tail, P ⟨label, text, children, tail⟩ →
      Q ⟨style.labelIntoSpace label, text, Node.mapLabelsAll style.labelIntoSpace children, tail⟩) :
    (style.intoSpace root).Every Q := by
  unfold Style.intoSpace
  induction h with
  | @intro node here _ ih =>
    obtain ⟨label, text, children, tail⟩ := node
    rw [Node.mapLabels]
    refine .intro (hmoved label text children tail here) ?_
    have hall : ∀ {nodes : List Node}, (∀ child ∈ nodes, Node.Every Q
        (child.mapLabels style.labelIntoSpace)) →
        ∀ child ∈ Node.mapLabelsAll style.labelIntoSpace nodes, child.Every Q := by
      intro nodes
      induction nodes with
      | nil => exact fun _ _ hchild => absurd hchild List.not_mem_nil
      | cons node nodes more =>
        intro hnodes
        obtain ⟨hfirst, hothers⟩ := List.forall_mem_cons.mp hnodes
        exact List.forall_mem_cons.mpr ⟨hfirst, more hothers⟩
    exact hall ih

theorem sound_intoSpace (hspace : Bindable style.space) (hsound : root.Every Sound) :
    (style.intoSpace root).Every Sound := by
  refine every_intoSpace hsound fun label text children tail h => ?_
  cases h with
  | @element name attributes _ _ _ named content behind =>
    rw [labelIntoSpace_element]
    refine .element ⟨?_, ?_, named.entries, named.spaces, named.nodup⟩ content behind
    · unfold movedName
      split <;> exact named.isName
    · unfold movedName
      split
      · exact hspace
      · exact named.space
  | comment content behind => exact .comment content behind
  | instruction content behind => exact .instruction content behind

theorem expressible_intoSpace (hbare : root.Every fun node => Bare style.space node.label) :
    (style.intoSpace root).Every (Expressible style.space) := by
  refine every_intoSpace hbare fun label text children tail h => ?_
  rintro moved attributes hmoved
  cases label with
  | element name attributes' =>
    rw [show _ = _ from labelIntoSpace_element style name attributes'] at hmoved
    cases hmoved
    refine ⟨fun hempty => ?_, fun entry hentry => .inr (h name _ rfl entry hentry)⟩
    by_cases hname : name.space = ""
    · rwa [movedName_space hname] at hempty
    · rw [movedName_of_ne hname] at hempty
      exact absurd hempty hname
  | comment => cases hmoved
  | instruction => cases hmoved

/-- **A tree without attributes of the document's namespace** is read with its elements moved into
that namespace. -/
theorem buildTree_intoSpace (hspace : style.space ≠ "") (hreserved : style.space ≠ xmlSpace)
    (hroot : root.IsRoot) (hsound : root.Every Sound)
    (hname : ∀ name, root.name? = some name → name.space = style.space)
    (hbare : root.Every fun node => Bare style.space node.label) :
    buildTree Dtd.empty (rootPieces style.space root)
      = some (style.intoSpace root).unified := by
  obtain ⟨name, attributes, text, children, rfl⟩ := hroot
  have hnameSpace := hname name rfl
  have hbindable : Bindable style.space := hnameSpace ▸ (hsound.here.named rfl).space
  rw [← rootPieces_intoSpace hspace hsound rfl hnameSpace]
  refine buildTree_rootPieces hreserved ?_ (sound_intoSpace hbindable hsound)
    (expressible_intoSpace hbare)
  unfold Style.intoSpace
  rw [Node.mapLabels, labelIntoSpace_element]
  exact ⟨_, _, _, _, rfl⟩

/-! ## Names that are kept -/

/-- An element whose names can be expressed is in the namespace that it is moved to. -/
theorem names_labelIntoSpace_iff {label : Label} (hspace : style.space ≠ "") :
    (style.labelIntoSpace label).names = label.names ↔
      ∀ name attributes, label = .element name attributes → name.space ≠ "" := by
  cases label with
  | element name attributes =>
    rw [labelIntoSpace_element]
    constructor
    · rintro h _ _ ⟨⟩ hempty
      have hmoved : movedName style.space name = name := (List.cons.inj h).1
      rw [movedName_space hempty] at hmoved
      exact hspace ((congrArg QName.space hmoved).trans hempty)
    · intro h
      rw [movedName_of_ne (h name attributes rfl)]
  | comment => exact iff_of_true rfl nofun
  | instruction => exact iff_of_true rfl nofun

/-- **When every name is kept**: the tree that is built has the names of the tree that was written
just when they can be expressed, and the namespace of the root is not reserved. -/
theorem names_build_iff (hroot : root.IsRoot) (hsound : root.Every Sound)
    (hname : ∀ name, root.name? = some name → name.space = style.space) :
    (∃ again, buildTree Dtd.empty (rootPieces style.space root) = some again ∧
        again.labels.map Label.names = root.labels.map Label.names) ↔
      style.space ≠ xmlSpace ∧ root.Every (Expressible style.space) := by
  constructor
  · rintro ⟨again, hbuild, hnames⟩
    have hreserved : style.space ≠ xmlSpace := by
      intro hxml
      obtain ⟨name, attributes, text, children, rfl⟩ := hroot
      rw [hxml, buildTree_reserved hsound rfl ((hname name rfl).trans hxml)] at hbuild
      cases hbuild
    refine ⟨hreserved, ?_⟩
    by_cases hspace : style.space = ""
    · refine hsound.mono fun each _ name attributes _ => ⟨fun _ => hspace, fun entry _ => ?_⟩
      rw [hspace]
      exact Classical.em _
    -- no attribute that is read is in the namespace of the root, so none was
    have hbare : root.Every fun node => Bare style.space node.label := by
      refine (every_mem_labels hsound).mono fun each hmem => ?_
      rintro name attributes hlabel entry hentry
      have hkept : each.label.names ∈ again.labels.map Label.names :=
        hnames ▸ List.mem_map_of_mem hmem
      obtain ⟨read, hread, hsame⟩ := List.mem_map.mp hkept
      have hreadBare := bare_of_buildTree hspace hreserved hsound hbuild read hread
      rw [hlabel] at hsame
      cases read with
      | element name' attributes' =>
        have hattributes : attributes'.map Prod.fst = attributes.map Prod.fst :=
          (List.cons.inj hsame).2
        obtain ⟨entry', hentry', hfst⟩ := List.mem_map.mp
          (hattributes ▸ List.mem_map_of_mem hentry : entry.1 ∈ attributes'.map Prod.fst)
        rw [← hfst]
        exact hreadBare name' attributes' rfl entry' hentry'
      | comment => cases hsame
      | instruction => cases hsame
    -- so the elements are moved, and those in no namespace would have another name
    rw [buildTree_intoSpace hspace hreserved hroot hsound hname hbare] at hbuild
    cases hbuild
    unfold Style.intoSpace at hnames
    rw [labels_unified, Node.labels_mapLabels, List.map_map] at hnames
    refine (hbare.and (every_mem_labels hsound)).mono fun each ⟨heach, hmem⟩ => ?_
    have hsame := List.map_inj_left.mp hnames each.label hmem
    intro name attributes hlabel
    have hne := (names_labelIntoSpace_iff hspace).mp hsame name attributes hlabel
    exact ⟨fun hempty => absurd hempty hne, fun entry hentry =>
      .inr (heach name attributes hlabel entry hentry)⟩
  · rintro ⟨hreserved, hexpress⟩
    exact ⟨root.unified, buildTree_rootPieces hreserved hroot hsound hexpress, by
      rw [labels_unified]⟩

end Trees

/-! ## Descriptors -/

section Descriptors

variable {text : String} {descriptor : Descriptor}

/-- The root that a descriptor keeps is the root that was read. -/
theorem eq_of_reading {root : Node} (r : Xml.Reading text.toList root)
    (h : Descriptor.parse? text = some descriptor) (huntyped : r.declaresType = false) :
    descriptor = ⟨root, ⟨spaceOf root, indentUnit root⟩, String.ofList (splitProlog text.toList).1,
      String.ofList (epilogOf text.toList (splitProlog text.toList).2)⟩ := by
  have hread := nonempty_reading_iff.mp ⟨r⟩
  have hbare : ({ root with tail := none } : Node) = root := by
    obtain ⟨⟨name, attributes, content, children, rfl⟩, -⟩ := r.sound huntyped
    rfl
  unfold Descriptor.parse? at h
  rw [hread] at h
  have heq := (Option.some.inj h).symm
  rwa [hbare] at heq

/-- **What a descriptor is written as** is read as what the parts of its root build. -/
theorem readDocument?_serialize {root : Node} {r : Xml.Reading text.toList root}
    (h : Descriptor.parse? text = some descriptor) (huntyped : r.declaresType = false)
    (hepilog : descriptor.epilog = "" ∨ descriptor.epilog = String.ofList r.after) :
    readDocument? (descriptor.serialize Prefixes.standard).1
      = buildTree Dtd.empty (rootPieces (spaceOf root) root) := by
  have hdescriptor := eq_of_reading r h huntyped
  have hkept : epilogOf text.toList (splitProlog text.toList).2 = r.after ∨
      epilogOf text.toList (splitProlog text.toList).2 = [] := by
    rw [hdescriptor] at hepilog
    refine hepilog.symm.imp (fun heq => String.ofList_injective heq) fun heq => ?_
    exact String.ofList_injective (heq.trans String.ofList_nil.symm)
  have hwritten : (descriptor.serialize Prefixes.standard).1
      = String.ofList ((splitProlog text.toList).1
        ++ (writeRoot (Prefixes.held (spaceOf root)) root
          ++ epilogOf text.toList (splitProlog text.toList).2)) := by
    have hserialize : (descriptor.serialize Prefixes.standard).1 = String.ofList
        (descriptor.prolog.toList ++ writeRoot (Prefixes.held descriptor.style.space)
          descriptor.root ++ descriptor.epilog.toList) := rfl
    rw [hserialize, hdescriptor]
    dsimp only
    rw [String.toList_ofList, String.toList_ofList, List.append_assoc]
  rw [hwritten]
  exact (assembled_written huntyped hkept).readDocument?_eq

/-- A text holds a descriptor with the labels of the root that is read from it. -/
theorem exists_parse?_iff (text : String) {P : List Label → Prop} :
    (∃ again, Descriptor.parse? text = some again ∧ P again.root.labels) ↔
      ∃ root, readDocument? text = some root ∧ P root.labels := by
  unfold Descriptor.parse?
  cases readDocument? text with
  | none => exact iff_of_false (fun ⟨_, h, _⟩ => nomatch h) (fun ⟨_, h, _⟩ => nomatch h)
  | some root =>
    have hlabels : Node.labels { root with tail := none } = root.labels :=
      Node.labels_withTail root none
    constructor
    · rintro ⟨_, ⟨⟩, hP⟩
      exact ⟨root, rfl, hlabels ▸ hP⟩
    · rintro ⟨_, ⟨⟩, hP⟩
      exact ⟨_, rfl, hlabels.symm ▸ hP⟩

/-- **When every name is kept.** A descriptor of a document without a type declaration, which keeps
the text behind its root or nothing of it, is written as a text from which every element and every
attribute is read with its own namespace and name, just when the namespace of the root is not the
reserved one, no attribute is in it, and no element is in no namespace unless the root is. -/
theorem names_kept_iff {root : Node} {r : Xml.Reading text.toList root}
    (h : Descriptor.parse? text = some descriptor) (huntyped : r.declaresType = false)
    (hepilog : descriptor.epilog = "" ∨ descriptor.epilog = String.ofList r.after) :
    (∃ again, Descriptor.parse? (descriptor.serialize Prefixes.standard).1 = some again ∧
        again.root.labels.map Label.names = descriptor.root.labels.map Label.names) ↔
      descriptor.style.space ≠ xmlSpace ∧
        descriptor.root.Every (Expressible descriptor.style.space) := by
  have hwritten := readDocument?_serialize h huntyped hepilog
  have hdescriptor := eq_of_reading r h huntyped
  obtain ⟨hroot, hsound⟩ := r.sound huntyped
  have hname : ∀ name, root.name? = some name → name.space = descriptor.style.space := by
    rw [hdescriptor]
    exact fun _ => space_of_name?
  have hread : (∃ again, Descriptor.parse? (descriptor.serialize Prefixes.standard).1 = some again ∧
        again.root.labels.map Label.names = descriptor.root.labels.map Label.names) ↔
      ∃ again, readDocument? (descriptor.serialize Prefixes.standard).1 = some again ∧
        again.labels.map Label.names = descriptor.root.labels.map Label.names :=
    exists_parse?_iff _ (P := fun labels => labels.map Label.names = _)
  have hspace : spaceOf root = descriptor.style.space := by rw [hdescriptor]
  have hkept : descriptor.root = root := by rw [hdescriptor]
  rw [hread, hwritten, hspace, hkept]
  exact names_build_iff hroot hsound hname

/-! ## Two projects with two namespaces -/

/-- A project with an element and an attribute of another namespace. -/
def mixedText : String :=
  "<project xmlns=\"a\" xmlns:p=\"b\"><p:x p:k=\"1\"/></project>"

/-- That project as it is read. -/
def mixedProject : Descriptor :=
  ⟨⟨.element ⟨"a", "project"⟩ [], none, [⟨.element ⟨"b", "x"⟩ [(⟨"b", "k"⟩, "1")], none, [], none⟩],
    none⟩, ⟨"a", defaultIndent⟩, "", ""⟩

/-- The parts of its root. -/
def mixedPieces : List Piece :=
  [.start ⟨⟨[], "project".toList⟩,
      [(⟨[], "xmlns".toList⟩, ['a']), (⟨"xmlns".toList, ['p']⟩, ['b'])], false⟩,
    .start ⟨⟨['p'], ['x']⟩, [(⟨['p'], ['k']⟩, ['1'])], true⟩, .finish ⟨[], "project".toList⟩]

/-- The steps by which it is read. -/
def mixedReading : Xml.Reading mixedText.toList mixedProject.root where
  standalone := false
  afterDeclaration := mixedText.toList
  afterMisc := mixedText.toList
  dtd := Dtd.empty
  afterType := mixedText.toList
  fromRoot := mixedText.toList
  pieces := mixedPieces
  after := []
  whole := mixedPieces
  legal := by decide +kernel
  declaration := rfl
  misc := rfl
  doctype := rfl
  moreMisc := rfl
  start := by decide +kernel
  scan := by decide +kernel
  expand := rfl
  trailing := rfl
  build := rfl

/-- A project with an element in no namespace. -/
def strayText : String :=
  "<project xmlns=\"a\"><x xmlns=\"\"/></project>"

/-- That project as it is read. -/
def strayProject : Descriptor :=
  ⟨Node.element ⟨"a", "project"⟩ none [Node.element ⟨"", "x"⟩ none []], ⟨"a", defaultIndent⟩,
    "", ""⟩

/-- The parts of its root. -/
def strayPieces : List Piece :=
  [.start ⟨⟨[], "project".toList⟩, [(⟨[], "xmlns".toList⟩, ['a'])], false⟩,
    .start ⟨⟨[], ['x']⟩, [(⟨[], "xmlns".toList⟩, [])], true⟩, .finish ⟨[], "project".toList⟩]

/-- The steps by which it is read. -/
def strayReading : Xml.Reading strayText.toList strayProject.root where
  standalone := false
  afterDeclaration := strayText.toList
  afterMisc := strayText.toList
  dtd := Dtd.empty
  afterType := strayText.toList
  fromRoot := strayText.toList
  pieces := strayPieces
  after := []
  whole := strayPieces
  legal := by decide +kernel
  declaration := rfl
  misc := rfl
  doctype := rfl
  moreMisc := rfl
  start := by decide +kernel
  scan := by decide +kernel
  expand := rfl
  trailing := rfl
  build := rfl

theorem expressible_mixedProject : mixedProject.root.Every (Expressible "a") := by
  have hx : Node.Every (Expressible "a")
      ⟨.element ⟨"b", "x"⟩ [(⟨"b", "k"⟩, "1")], none, [], none⟩ := by
    refine .intro ?_ fun _ hchild => absurd hchild List.not_mem_nil
    rintro _ _ ⟨⟩
    exact ⟨fun hempty => absurd hempty (by decide),
      List.forall_mem_singleton.mpr (.inr (by decide))⟩
  refine .intro ?_ (List.forall_mem_singleton.mpr hx)
  rintro _ _ ⟨⟩
  exact ⟨fun hempty => absurd hempty (by decide), fun _ hentry => absurd hentry List.not_mem_nil⟩

theorem not_expressible_strayProject : ¬ strayProject.root.Every (Expressible "a") := by
  intro h
  have hx := (h.inside _ (List.mem_singleton.mpr rfl)).here
  exact absurd ((hx ⟨"", "x"⟩ [] rfl).1 rfl) (by decide)

set_option maxRecDepth 8000 in
/-- The names of the one project are kept, with a numbered prefix; the other project is written
without the declaration that kept its element out of the namespace. -/
theorem names_kept_iff_mixed :
    (Descriptor.parse? mixedText = some mixedProject ∧ mixedReading.declaresType = false ∧
      mixedProject.epilog = "" ∧
      (mixedProject.serialize Prefixes.standard).1
        = "<project xmlns=\"a\" xmlns:ns1=\"b\"><ns1:x ns1:k=\"1\" /></project>" ∧
      ∃ again, Descriptor.parse? (mixedProject.serialize Prefixes.standard).1 = some again ∧
        again.root.labels.map Label.names = mixedProject.root.labels.map Label.names) ∧
    (Descriptor.parse? strayText = some strayProject ∧ strayReading.declaresType = false ∧
      strayProject.epilog = "" ∧
      (strayProject.serialize Prefixes.standard).1 = "<project xmlns=\"a\"><x /></project>" ∧
      ¬ ∃ again, Descriptor.parse? (strayProject.serialize Prefixes.standard).1 = some again ∧
        again.root.labels.map Label.names = strayProject.root.labels.map Label.names) := by
  have hmixed : Descriptor.parse? mixedText = some mixedProject := rfl
  have hstray : Descriptor.parse? strayText = some strayProject := rfl
  have huntyped : mixedReading.declaresType = false ∧ strayReading.declaresType = false := by
    decide +kernel
  refine ⟨⟨hmixed, huntyped.1, rfl, by decide +kernel, ?_⟩, hstray, huntyped.2, rfl,
    by decide +kernel, ?_⟩
  · exact (names_kept_iff hmixed huntyped.1 (.inl rfl)).mpr ⟨by decide, expressible_mixedProject⟩
  · exact fun hkept => not_expressible_strayProject
      ((names_kept_iff hstray huntyped.2 (.inl rfl)).mp hkept).2

end Descriptors

end Rollout.Pom
