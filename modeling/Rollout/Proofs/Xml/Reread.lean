import Rollout.Proofs.Xml.Registers

/-!
# Trees under other names

A tree that is written under a register of prefixes is read again whenever its prefixes stand for
something, although perhaps with other namespaces. Its local names and its texts stay.

- `Opens`: every prefix in a tree stands for something; `isSome_reread_iff` says that the tree is
  read exactly then, whatever its texts are.
- `Retexts`: changes of the texts in a tree, which leave its labels and what it opens.
- `Label.localized`, `localized_reread`: the local names that are read.
- `Node.terse`, `write_terse`: empty texts are written as no text.
- `Legible`: the nodes that are written as sound ones; `legal_inside` is a converse.
- `rereadRoot`, `scanRoot_register`, `buildTree_register`: **a root** that is written under a
  register.
-/

namespace Rollout.Xml

section Reread

variable {tagOf : QName → TagName} {declarations : List (TagName × String)} {scope : Scope}
  {node : Node}

/-! ## Prefixes that stand for something -/

/-- Every start tag of the tree opens an element, the first one with `declarations` in it. -/
inductive Opens (tagOf : QName → TagName) : List (TagName × String) → Scope → Node → Prop
  | intro {declarations : List (TagName × String)} {scope inner : Scope} {node : Node}
      {read : Label} (opened : reopen tagOf declarations scope node.label = some (inner, read))
      (inside : ∀ child ∈ node.children, Opens tagOf [] inner child) :
      Opens tagOf declarations scope node

theorem opens_iff : Opens tagOf declarations scope node ↔
    ∃ inner read, reopen tagOf declarations scope node.label = some (inner, read) ∧
      ∀ child ∈ node.children, Opens tagOf [] inner child := by
  constructor
  · rintro ⟨opened, inside⟩
    exact ⟨_, _, opened, inside⟩
  · rintro ⟨inner, read, opened, inside⟩
    exact .intro opened inside

mutual

/-- **A tree is read again** exactly when its start tags open elements. -/
theorem isSome_reread_iff {declarations : List (TagName × String)} {scope : Scope} :
    (node : Node) →
      ((node.reread tagOf declarations scope).isSome = true ↔ Opens tagOf declarations scope node)
  | ⟨label, text, children, tail⟩ => by
    rw [Node.reread, opens_iff]
    dsimp only
    cases reopen tagOf declarations scope label with
    | none => simp
    | some opened =>
      obtain ⟨inner, read⟩ := opened
      have hchildren := @isSome_rereadAll_iff inner children
      cases hinside : rereadAll tagOf inner children with
      | none => simpa [hinside] using hchildren
      | some inside => simpa [hinside] using hchildren

theorem isSome_rereadAll_iff {scope : Scope} : (nodes : List Node) →
    ((rereadAll tagOf scope nodes).isSome = true ↔ ∀ node ∈ nodes, Opens tagOf [] scope node)
  | [] => by simp [rereadAll]
  | node :: nodes => by
    have hfirst := @isSome_reread_iff [] scope node
    have hothers := @isSome_rereadAll_iff scope nodes
    rw [rereadAll, List.forall_mem_cons, ← hfirst, ← hothers]
    cases node.reread tagOf [] scope <;> cases rereadAll tagOf scope nodes <;> simp

end

/-! ## Texts of a tree -/

/-- A change of the texts in a tree. Its labels stay. -/
structure Retexts (f : Node → Node) : Prop where
  label : ∀ node, (f node).label = node.label
  children : ∀ node, (f node).children = node.children.map f

section Retexts

variable {f g : Node → Node}

theorem Retexts.comp (hf : Retexts f) (hg : Retexts g) : Retexts fun node => f (g node) where
  label node := (hf.label (g node)).trans (hg.label node)
  children node := by rw [hf.children, hg.children, List.map_map]; rfl

mutual

theorem Retexts.labels_eq (h : Retexts f) : (node : Node) → (f node).labels = node.labels
  | ⟨label, text, children, tail⟩ => by
    rw [Node.labels_eq, Node.labels_eq, h.label, h.children, h.labelsAll_eq children]

theorem Retexts.labelsAll_eq (h : Retexts f) : (nodes : List Node) →
    Node.labelsAll (nodes.map f) = Node.labelsAll nodes
  | [] => rfl
  | node :: nodes => by
    rw [List.map_cons, Node.labelsAll, Node.labelsAll, h.labels_eq node, h.labelsAll_eq nodes]

end

mutual

/-- **Texts** do not matter for what a tree opens. -/
theorem Retexts.opens_iff (h : Retexts f) : (node : Node) →
    ∀ {declarations : List (TagName × String)} {scope : Scope},
      Opens tagOf declarations scope (f node) ↔ Opens tagOf declarations scope node
  | ⟨label, text, children, tail⟩, declarations, scope => by
    rw [Rollout.Xml.opens_iff, Rollout.Xml.opens_iff, h.label, h.children]
    exact exists₂_congr fun inner read => and_congr_right fun _ => h.opensAll_iff children

theorem Retexts.opensAll_iff (h : Retexts f) {scope : Scope} : (nodes : List Node) →
    ((∀ node ∈ nodes.map f, Opens tagOf [] scope node) ↔ ∀ node ∈ nodes, Opens tagOf [] scope node)
  | [] => Iff.rfl
  | node :: nodes => by
    rw [List.map_cons, List.forall_mem_cons, List.forall_mem_cons, h.opens_iff node,
      h.opensAll_iff nodes]

end

end Retexts

/-! ## Local names -/

/-- The label with the local name of an element and nothing else. -/
def Label.localized : Label → Label
  | .element name _ => .element ⟨"", name.name⟩ []
  | label => label

/-- Tags write the local name of an element behind its prefix. -/
def KeepsLocal (tagOf : QName → TagName) : Prop :=
  ∀ name, (tagOf name).name = name.name.toList

theorem name_of_elementName {tag : TagName} {name : QName}
    (h : scope.elementName tag = some name) : name.name = String.ofList tag.name := by
  unfold Scope.elementName at h
  split at h
  case h_1 =>
    cases h
    rfl
  case h_2 =>
    split at h
    case isTrue =>
      cases h
      rfl
    case isFalse => cases h

theorem localized_reopen (hlocal : KeepsLocal tagOf) {label read : Label} {inner : Scope}
    (h : reopen tagOf declarations scope label = some (inner, read)) :
    read.localized = label.localized := by
  cases label with
  | comment =>
    cases h
    rfl
  | instruction =>
    cases h
    rfl
  | element name attributes =>
    obtain ⟨values, entries, found, -, -, -, -, -, hname, rfl⟩ := openElement_eq_some.mp h
    have hfound : found.name = name.name := by
      rw [name_of_elementName hname, hlocal, String.ofList_toList]
    show Label.element ⟨"", found.name⟩ [] = .element ⟨"", name.name⟩ []
    rw [hfound]

mutual

/-- **The local names** of a tree that is read again are those of the tree, and its texts are the
same up to their line ends. -/
theorem localized_reread (hlocal : KeepsLocal tagOf) {declarations : List (TagName × String)}
    {scope : Scope} : (node : Node) → ∀ {read : Node},
      node.reread tagOf declarations scope = some read →
        read.mapLabels Label.localized = node.unified.mapLabels Label.localized
  | ⟨label, text, children, tail⟩, read, h => by
    rw [Node.reread] at h
    obtain ⟨⟨inner, found⟩, hopen, hrest⟩ := Option.bind_eq_some_iff.mp h
    obtain ⟨inside, hinside, hread⟩ := Option.bind_eq_some_iff.mp hrest
    cases hread
    rw [Node.unified, Node.mapLabels, Node.mapLabels, localized_reopen hlocal hopen,
      localized_rereadAll hlocal children hinside]

theorem localized_rereadAll (hlocal : KeepsLocal tagOf) {scope : Scope} : (nodes : List Node) →
    ∀ {reads : List Node}, rereadAll tagOf scope nodes = some reads →
      Node.mapLabelsAll Label.localized reads
        = Node.mapLabelsAll Label.localized (unifiedAll nodes)
  | [], reads, h => by
    rw [rereadAll] at h
    cases h
    rfl
  | node :: nodes, reads, h => by
    rw [rereadAll] at h
    obtain ⟨first, hfirst, hrest⟩ := Option.bind_eq_some_iff.mp h
    obtain ⟨others, hothers, hreads⟩ := Option.bind_eq_some_iff.mp hrest
    cases hreads
    rw [unifiedAll, Node.mapLabelsAll, Node.mapLabelsAll, localized_reread hlocal node hfirst,
      localized_rereadAll hlocal nodes hothers]

end

end Reread

/-! ## Texts that are empty -/

/-- The text, unless it is empty. -/
def filled (text : Option String) : Option String :=
  text.filter (· ≠ "")

mutual

/-- The tree with no text where its text or a tail is empty. -/
def Node.terse : Node → Node
  | ⟨.element name attributes, text, children, tail⟩ =>
    ⟨.element name attributes, filled text, terseAll children, filled tail⟩
  | ⟨label, text, children, tail⟩ => ⟨label, text, terseAll children, filled tail⟩

/-- The trees with no text where a text or a tail is empty. -/
def terseAll : List Node → List Node
  | [] => []
  | node :: nodes => node.terse :: terseAll nodes

end

theorem terseAll_eq_map (nodes : List Node) : terseAll nodes = nodes.map Node.terse := by
  induction nodes with
  | nil => rfl
  | cons node nodes ih => rw [terseAll, List.map_cons, ih]

theorem retexts_terse : Retexts Node.terse where
  label node := by
    obtain ⟨label, text, children, tail⟩ := node
    cases label <;> rfl
  children node := by
    rw [← terseAll_eq_map]
    obtain ⟨label, text, children, tail⟩ := node
    cases label <;> rfl

theorem escapeOptional_filled (text : Option String) :
    escapeOptional (filled text) = escapeOptional text := by
  cases text with
  | none => rfl
  | some s =>
    by_cases hs : s = ""
    · rw [hs]
      rfl
    · unfold filled
      rw [Option.filter_some, if_pos (by simpa using hs)]

mutual

/-- **Empty texts** are written as no text. -/
theorem write_terse {nameOf : QName → List Char} (declarations : List Char) : (node : Node) →
    node.terse.write nameOf declarations = node.write nameOf declarations
  | ⟨.comment, text, children, tail⟩ => by
    rw [Node.terse, Node.write, Node.write, escapeOptional_filled]
    all_goals nofun
  | ⟨.instruction, text, children, tail⟩ => by
    rw [Node.terse, Node.write, Node.write, escapeOptional_filled]
    all_goals nofun
  | ⟨.element name attributes, text, children, tail⟩ => by
    have hempty : (terseAll children).isEmpty = children.isEmpty := by cases children <;> rfl
    rw [Node.terse, Node.write, Node.write, escapeOptional_filled, escapeOptional_filled,
      writeAll_terseAll children, hempty]

theorem writeAll_terseAll {nameOf : QName → List Char} : (nodes : List Node) →
    writeAll nameOf (terseAll nodes) = writeAll nameOf nodes
  | [] => rfl
  | node :: nodes => by
    rw [terseAll, writeAll, writeAll, write_terse [] node, writeAll_terseAll nodes]

end

/-! ## Legible trees -/

/-- A text of characters that a document may hold; it may be missing or empty. -/
def LegalText (text : Option String) : Prop :=
  Legal (text.getD "").toList

/-- A node that is written as a sound one. -/
def Legible (node : Node) : Prop :=
  Sound node.terse

theorem soundText_filled {text : Option String} (h : LegalText text) : SoundText (filled text) := by
  intro s hs
  obtain ⟨hmem, hne⟩ := Option.mem_filter_iff.mp hs
  obtain rfl : text = some s := hmem
  exact ⟨by simpa using hne, h⟩

theorem legalText_of_filled {text : Option String} (h : SoundText (filled text)) :
    LegalText text := by
  cases text with
  | none => exact nofun
  | some s =>
    by_cases hs : s = ""
    · rw [hs]
      exact nofun
    · exact (h s (Option.mem_filter_iff.mpr ⟨rfl, by simpa using hs⟩)).2

theorem filled_of_soundText {text : Option String} (h : SoundText text) : filled text = text := by
  cases text with
  | none => rfl
  | some s =>
    unfold filled
    rw [Option.filter_some, if_pos]
    simpa using (h s rfl).1

theorem legible_element_iff {name : QName} {attributes : Attributes} {text tail : Option String}
    {children : List Node} : Legible ⟨.element name attributes, text, children, tail⟩ ↔
      SoundElement name attributes ∧ LegalText text ∧ LegalText tail := by
  constructor
  · intro h
    cases h with
    | element named content behind =>
      exact ⟨named, legalText_of_filled content, legalText_of_filled behind⟩
  · rintro ⟨named, content, behind⟩
    exact .element named (soundText_filled content) (soundText_filled behind)

theorem Sound.legible {node : Node} (h : Sound node) : Legible node := by
  unfold Legible
  cases h with
  | element named content behind =>
    rw [Node.terse, filled_of_soundText content, filled_of_soundText behind]
    exact .element named content behind
  | comment content behind =>
    rw [Node.terse, filled_of_soundText behind]
    · exact .comment content behind
    all_goals nofun
  | instruction content behind =>
    rw [Node.terse, filled_of_soundText behind]
    · exact .instruction content behind
    all_goals nofun

/-- **A legible tree** is written as a sound one. -/
theorem every_terse {node : Node} (h : node.Every Legible) : node.terse.Every Sound := by
  induction h with
  | intro here _ ih =>
    refine .intro here ?_
    rw [retexts_terse.children]
    exact List.forall_mem_map.mpr ih

/-! ## Characters that are written -/

theorem legal_of_escapeOptional {text : Option String} (h : Legal (escapeOptional text)) :
    LegalText text := by
  rw [escapeOptional_eq] at h
  intro c hc
  by_cases hverbatim : isVerbatim c = true
  · refine h c (List.mem_flatMap.mpr ⟨c, hc, ?_⟩)
    rw [escapeChar_of_isVerbatim hverbatim]
    exact List.mem_singleton_self c
  · -- the characters that are written as references may stand in a document
    have hrefers : c = '&' ∨ c = '<' ∨ c = '>' := by
      by_contra hne
      push Not at hne
      exact hverbatim (isVerbatim_iff.mpr hne)
    rcases hrefers with rfl | rfl | rfl <;> decide

theorem legal_of_mem_writeAll {nameOf : QName → List Char} {nodes : List Node}
    (h : Legal (writeAll nameOf nodes)) : ∀ node ∈ nodes, Legal (node.write nameOf []) := by
  induction nodes with
  | nil => exact nofun
  | cons node nodes ih =>
    rw [writeAll] at h
    obtain ⟨hfirst, hothers⟩ := legal_append.mp h
    exact List.forall_mem_cons.mpr ⟨hfirst, ih hothers⟩

/-- **The inside of an element** is legal when its text is. -/
theorem legal_inside {nameOf : QName → List Char} {declarations : List Char} {node : Node}
    (h : Legal (node.write nameOf declarations)) (helement : node.name?.isSome = true) :
    LegalText node.text ∧ ∀ child ∈ node.children, Legal (child.write nameOf []) := by
  obtain ⟨label, text, children, tail⟩ := node
  cases label with
  | comment => cases helement
  | instruction => cases helement
  | element name attributes =>
    rw [Node.write] at h
    have hbody := (legal_append.mp (legal_append.mp h).1).2
    split at hbody
    case isTrue hempty =>
      obtain ⟨htext, hchildren⟩ := Bool.and_eq_true_iff.mp hempty
      obtain rfl : children = [] := List.isEmpty_iff.mp hchildren
      refine ⟨legal_of_escapeOptional ?_, nofun⟩
      rw [List.isEmpty_iff.mp htext]
      exact nofun
    case isFalse =>
      have hcontent := (legal_append.mp (legal_append.mp (legal_append.mp hbody).1).1).1
      obtain ⟨htext, hchildren⟩ := legal_append.mp hcontent
      exact ⟨legal_of_escapeOptional (List.forall_mem_cons.mp htext).2,
        legal_of_mem_writeAll hchildren⟩

/-! ## Roots -/

/-- What a root is read as when it is written under a register. -/
def rereadRoot (register : Prefixes) (root : Node) : Option Node :=
  root.reread (writtenTag register (assign register root))
    (declaredEntries (assign register root)) Scope.initial

/-- The parts of a root that is written under a register. -/
def piecesUnder (register : Prefixes) (root : Node) : List Piece :=
  root.pieces (writtenTag register (assign register root))
    (declaredEntries (assign register root))

/-- Trees with the same labels are assigned the same prefixes. -/
theorem assign_of_labels {root root' : Node} (h : root'.labels = root.labels)
    (register : Prefixes) : assign register root' = assign register root := by
  unfold assign
  rw [h]

theorem writeRoot_terse (register : Prefixes) (root : Node) :
    writeRoot register root.terse = writeRoot register root := by
  unfold writeRoot
  dsimp only
  rw [assign_of_labels (retexts_terse.labels_eq root), write_terse]

theorem mem_assignName_space {register assigned : Prefixes} {name : QName}
    {entry : String × String} (h : entry ∈ assignName register assigned name) :
    entry ∈ assigned ∨ entry.1 = name.space := by
  unfold assignName at h
  dsimp only at h
  split at h
  · exact .inl h
  · split at h
    · exact .inl h
    · refine (List.mem_append.mp h).imp_right fun hnew => ?_
      rw [List.mem_singleton.mp hnew]

/-- A prefix is assigned for the namespace of a name. -/
theorem exists_name_of_mem_assign {register : Prefixes} {root : Node} :
    ∀ entry ∈ assign register root, ∃ name ∈ root.names, name.space = entry.1 := by
  have hfold : ∀ (names : List QName) (assigned : Prefixes),
      ∀ entry ∈ names.foldl (assignName register) assigned,
        entry ∈ assigned ∨ ∃ name ∈ names, name.space = entry.1 := by
    intro names
    induction names with
    | nil => exact fun _ _ hentry => .inl hentry
    | cons first names ih =>
      intro assigned entry hentry
      rcases ih _ entry hentry with hbefore | ⟨name, hname, hspace⟩
      · rcases mem_assignName_space hbefore with hold | hspace
        · exact .inl hold
        · exact .inr ⟨first, List.mem_cons_self .., hspace.symm⟩
      · exact .inr ⟨name, List.mem_cons_of_mem _ hname, hspace⟩
  exact fun entry hentry => (hfold root.names [] entry hentry).resolve_left List.not_mem_nil

section Roots

variable {register : Prefixes} {root : Node}

/-- The names of a sound tree can be written under any register. -/
theorem spellable_register (hregister : register.Regular) (hsound : root.Every Sound) :
    root.Every (Spellable (writtenTag register (assign register root))) := by
  have hfits := fun entry hentry => (fits_assign register root entry hentry).1
  have htag : ∀ {name : QName}, IsName name.name.toList →
      IsTagName (writtenTag register (assign register root) name) := by
    intro name hname
    refine ⟨hname, ?_⟩
    show (if name.space.isEmpty then [] else _) = [] ∨ IsName (if name.space.isEmpty then [] else _)
    split
    case isTrue => exact .inl rfl
    case isFalse =>
      exact ((fits_prefixFor hfits name.space).isName hregister).imp_left
        fun hnil => String.toList_eq_nil_iff.mpr hnil
  refine hsound.mono fun each heach => ⟨heach, fun name attributes hlabel => ?_⟩
  have hnamed := heach.named hlabel
  exact ⟨htag hnamed.isName, fun entry hentry => htag (hnamed.entries entry hentry).1⟩

/-- The declarations of a sound root, under any register. -/
theorem spelled_declared (hregister : register.Regular) (hsound : root.Every Sound) :
    ∀ entry ∈ declaredEntries (assign register root), IsTagName entry.1 ∧ Legal entry.2.toList := by
  intro declared hdeclared
  obtain ⟨entry, hentry, rfl⟩ := mem_declaredEntries hdeclared
  obtain ⟨name, hname, hspace⟩ := exists_name_of_mem_assign entry hentry
  exact ⟨isTagName_declarationTag ((fits_assign register root entry hentry).1.isName hregister),
    hspace ▸ (bindable_of_mem_names hsound name hname).legal⟩

/-- **A root** that is written under a register is scanned to its parts. -/
theorem scanRoot_register (hregister : register.Regular) (hroot : root.IsRoot)
    (hsound : root.Every Sound) :
    let written := writeRoot register root
    Legal written ∧ (∀ rest, atStartTag (written ++ rest) = true) ∧
      ∀ rest, scanRoot ((written ++ rest).length + 1) 0 (written ++ rest)
        = some (piecesUnder register root, rest) := by
  intro written
  have hspellable := spellable_register hregister hsound
  have hdeclared := spelled_declared hregister hsound
  have hwritten : written = root.write (rawName (writtenTag register (assign register root)))
      ((declaredEntries (assign register root)).flatMap entryText) := by
    show writeRoot register root = _
    unfold writeRoot
    dsimp only
    rw [writtenName_eq, writeDeclarations_eq]
  unfold piecesUnder
  generalize declaredEntries (assign register root) = declarations at *
  generalize writtenTag register (assign register root) = tagOf at *
  obtain ⟨name, attributes, text, children, rfl⟩ := hroot
  rw [hwritten]
  refine ⟨legal_write hspellable fun c hc => ?_, fun rest => ?_, fun rest =>
    scanRoot_write (fun entry hentry => (hdeclared entry hentry).1) hspellable rest⟩
  · obtain ⟨entry, hentry, hc⟩ := List.mem_flatMap.mp hc
    exact legal_entryText (hdeclared entry hentry).1 (hdeclared entry hentry).2 c hc
  · obtain ⟨c, more, hraw, hc⟩ := (hspellable.here.tags name attributes rfl).1.exists_raw
    have hname : rawName tagOf name = c :: more := hraw
    rw [Node.write, hname]
    exact hc

/-- **A root** is read from its parts, when its prefixes stand for something. -/
theorem buildTree_register (hroot : root.IsRoot) (hsound : root.Every Sound) :
    buildTree Dtd.empty (piecesUnder register root) = rereadRoot register root :=
  buildTree_reread hroot hsound _

end Roots

end Rollout.Xml
