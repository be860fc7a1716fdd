import Rollout.Proofs.Xml.Prefixes
import Rollout.Proofs.Xml.ReadBack

/-!
# Documents under their declarations

The root's start tag declares every prefix that was assigned, so that the whole document is read in
one scope.

- `writtenTag_cases`: how a name is written.
- `declaredEntries`, `writeDeclarations_eq`: the declarations in the start tag of the root.
- `declareAll_eq`: **the scope** in which the document is read again.
- `elementName_written`, `attributeName_written`: **every name** that can be expressed is found
  again there.
- `scanRoot_writeRoot`, `buildTree_rootPieces`: the root of a document as it is scanned, and as it
  is built when its names can be expressed.
-/

namespace Rollout.Xml

/-! ## Names as they are written -/

/-- A name as tags write it under a register and the assigned prefixes. -/
def writtenTag (register assigned : Prefixes) (name : QName) : TagName :=
  ⟨if name.space.isEmpty then [] else (prefixFor register assigned name.space).toList,
    name.name.toList⟩

theorem writtenName_eq (register assigned : Prefixes) :
    writtenName register assigned = rawName (writtenTag register assigned) := by
  funext name
  unfold writtenName rawName writtenTag TagName.raw
  by_cases hempty : name.space.isEmpty = true
  · simp [hempty]
  · rw [if_neg hempty, if_neg hempty]
    generalize prefixFor register assigned name.space = found
    by_cases hfound : found = ""
    · subst hfound
      rfl
    · have hne : ¬ found.toList.isEmpty = true := by simpa using hfound
      rw [if_neg hne]
      split
      case h_1 => exact absurd rfl hfound
      case h_2 => rfl

section Tags

variable {space : String} {assigned : Prefixes} {name : QName}

theorem mem_of_lookup {α β : Type} [BEq α] [LawfulBEq α] {entries : List (α × β)} {key : α}
    {value : β} (h : entries.lookup key = some value) : (key, value) ∈ entries := by
  obtain ⟨front, back, rfl, -⟩ := List.lookup_eq_some_iff.mp h
  simp

/-- **The tag of a name** has no prefix in no namespace, and else the one that its namespace was
assigned, or `xml`. -/
theorem writtenTag_cases (h : Assigned space assigned) (hcovered : Covered space assigned name) :
    name.space = "" ∧
        writtenTag (Prefixes.held space) assigned name = ⟨[], name.name.toList⟩ ∨
      name.space = xmlSpace ∧ space ≠ xmlSpace ∧
        writtenTag (Prefixes.held space) assigned name = ⟨"xml".toList, name.name.toList⟩ ∨
      ∃ found, (name.space, found) ∈ assigned ∧
        writtenTag (Prefixes.held space) assigned name = ⟨found.toList, name.name.toList⟩ := by
  unfold writtenTag
  by_cases hempty : name.space = ""
  · refine .inl ⟨hempty, ?_⟩
    rw [hempty]
    rfl
  refine .inr ?_
  have hne : ¬ name.space.isEmpty = true := by simpa using hempty
  rw [if_neg hne]
  unfold prefixFor
  cases hlookup : assigned.lookup name.space with
  | some found => exact .inr ⟨found, mem_of_lookup hlookup, rfl⟩
  | none =>
    -- only the namespace of `xml` is written without being assigned
    have hxml : (Prefixes.held space).lookup name.space = some "xml" := by
      refine (hcovered.resolve_left hempty).resolve_right ?_
      rw [hlookup]
      exact Bool.false_ne_true
    have hstandard : ∀ entry ∈ Prefixes.standard, entry.2 = "xml" → entry.1 = xmlSpace := by decide
    rw [hxml]
    refine .inl ?_
    rcases lookup_held_cases hxml with ⟨-, -, hnil⟩ | hmem
    · exact absurd hnil (by decide)
    · have hspace : name.space = xmlSpace := hstandard _ hmem rfl
      refine ⟨hspace, ?_, rfl⟩
      rintro rfl
      rw [hspace, lookup_held_self (by decide)] at hxml
      exact absurd (Option.some.inj hxml) (by decide)

theorem isTagName_writtenTag (h : Assigned space assigned) (hcovered : Covered space assigned name)
    (hname : IsName name.name.toList) :
    IsTagName (writtenTag (Prefixes.held space) assigned name) := by
  rcases writtenTag_cases h hcovered with ⟨-, htag⟩ | ⟨-, -, htag⟩ | ⟨found, hmem, htag⟩
  · rw [htag]
    exact ⟨hname, .inl rfl⟩
  · rw [htag]
    exact ⟨hname, .inr (show IsName "xml".toList by decide +kernel)⟩
  · rw [htag]
    refine ⟨hname, (h.isName hmem).imp ?_ And.left⟩
    rintro ⟨hnil, -⟩
    show found.toList = []
    rw [show found = "" from hnil]
    rfl

/-- No tag has the prefix of declarations. -/
theorem pfx_writtenTag_ne (h : Assigned space assigned) (hcovered : Covered space assigned name) :
    (writtenTag (Prefixes.held space) assigned name).pfx ≠ "xmlns".toList := by
  rcases writtenTag_cases h hcovered with ⟨-, htag⟩ | ⟨-, -, htag⟩ | ⟨found, hmem, htag⟩
  · rw [htag]
    exact show ([] : List Char) ≠ "xmlns".toList by decide
  · rw [htag]
    exact show "xml".toList ≠ "xmlns".toList by decide
  · rw [htag]
    intro heq
    obtain rfl : found = "xmlns" := String.toList_inj.mp heq
    rcases h.isName hmem with ⟨hnil, -⟩ | ⟨-, hne⟩
    · exact absurd (show "xmlns" = "" from hnil) (by decide)
    · exact hne rfl

/-- Names of the root's namespace are written as they are. -/
theorem writtenTag_own (h : Assigned space assigned) (hcovered : Covered space assigned name)
    (hname : name.space = space) :
    writtenTag (Prefixes.held space) assigned name = ⟨[], name.name.toList⟩ := by
  rcases writtenTag_cases h hcovered with ⟨-, htag⟩ | ⟨hxml, hne, -⟩ | ⟨found, hmem, htag⟩
  · exact htag
  · exact absurd (hname.symm.trans hxml) hne
  · obtain rfl : found = "" := h.empty_of_eq hmem hname
    exact htag

end Tags

/-! ## Declarations -/

/-- The name of a declaration of a prefix. -/
def declarationTag (pfx : String) : TagName :=
  if pfx.isEmpty then ⟨[], "xmlns".toList⟩ else ⟨"xmlns".toList, pfx.toList⟩

theorem isTagName_declarationTag {pfx : String} (h : pfx = "" ∨ IsName pfx.toList) :
    IsTagName (declarationTag pfx) := by
  have hxmlns : IsName "xmlns".toList := by decide +kernel
  unfold declarationTag
  split
  case isTrue => exact ⟨hxmlns, .inl rfl⟩
  case isFalse hne =>
    exact ⟨h.resolve_left fun hnil => hne (by rw [hnil]; rfl), .inr hxmlns⟩

/-- The declarations of prefixes as attributes, in the order in which they are written. -/
def declaredEntries (assigned : Prefixes) : List (TagName × String) :=
  (assigned.foldr insertDeclaration []).map fun entry => (declarationTag entry.2, entry.1)

theorem writeDeclaration_eq (entry : String × String) :
    writeDeclaration entry = entryText (declarationTag entry.2, entry.1) := by
  unfold writeDeclaration entryText declarationTag TagName.raw
  by_cases hempty : entry.2.isEmpty = true
  · simp [hempty]
  · simp [hempty]

theorem writeDeclarations_eq (assigned : Prefixes) :
    writeDeclarations assigned = (declaredEntries assigned).flatMap entryText := by
  unfold writeDeclarations declaredEntries
  rw [List.flatMap_map]
  exact congrArg (fun f => List.flatMap f _) (funext writeDeclaration_eq)

theorem perm_insertDeclaration (entry : String × String) (assigned : Prefixes) :
    (insertDeclaration entry assigned).Perm (entry :: assigned) := by
  induction assigned with
  | nil => exact .refl _
  | cons head rest ih =>
    rw [insertDeclaration]
    split
    · exact (ih.cons head).trans (.swap ..)
    · exact .refl _

/-- The declarations are those of the assigned prefixes, in another order. -/
theorem perm_declarations (assigned : Prefixes) :
    (assigned.foldr insertDeclaration []).Perm assigned := by
  induction assigned with
  | nil => exact .refl _
  | cons entry assigned ih =>
    rw [List.foldr_cons]
    exact (perm_insertDeclaration entry _).trans (ih.cons entry)

theorem declaredPrefix?_declarationTag (pfx : String) :
    declaredPrefix? (declarationTag pfx) = some pfx.toList := by
  unfold declarationTag
  by_cases hempty : pfx = ""
  · subst hempty
    rfl
  · have hne : ¬ pfx.isEmpty = true := by simpa using hempty
    rw [if_neg hne]
    unfold declaredPrefix?
    rw [if_pos rfl]

theorem mem_declaredEntries {assigned : Prefixes} {declared : TagName × String}
    (h : declared ∈ declaredEntries assigned) :
    ∃ entry ∈ assigned, declared = (declarationTag entry.2, entry.1) := by
  obtain ⟨entry, hentry, rfl⟩ := List.mem_map.mp h
  exact ⟨entry, (perm_declarations assigned).mem_iff.mp hentry, rfl⟩

theorem declares_of_mem_declaredEntries {assigned : Prefixes} {declared : TagName × String}
    (h : declared ∈ declaredEntries assigned) : (declaredPrefix? declared.1).isSome = true := by
  obtain ⟨entry, -, rfl⟩ := mem_declaredEntries h
  rw [declaredPrefix?_declarationTag]
  rfl

section Declarations

variable {space : String} {assigned : Prefixes}

theorem Assigned.isTagName (h : Assigned space assigned) {declared : TagName × String}
    (hdeclared : declared ∈ declaredEntries assigned) : IsTagName declared.1 := by
  obtain ⟨entry, hentry, rfl⟩ := mem_declaredEntries hdeclared
  exact isTagName_declarationTag ((h.isName hentry).imp And.left And.left)

theorem Assigned.legal (h : Assigned space assigned) {declared : TagName × String}
    (hdeclared : declared ∈ declaredEntries assigned) : Legal declared.2.toList := by
  obtain ⟨entry, hentry, rfl⟩ := mem_declaredEntries hdeclared
  exact (h.spaces entry hentry).2.legal

theorem Assigned.nodup (h : Assigned space assigned) :
    ((declaredEntries assigned).map Prod.fst).Nodup := by
  have hmap : (declaredEntries assigned).map Prod.fst
      = ((assigned.foldr insertDeclaration []).map Prod.snd).map declarationTag := by
    unfold declaredEntries
    rw [List.map_map, List.map_map]
    rfl
  rw [hmap]
  refine List.Nodup.map_on ?_ (((perm_declarations assigned).map Prod.snd).nodup_iff.mpr h.distinct)
  -- a declaration tells which prefix it declares
  intro a _ b _ heq
  have hdeclared := congrArg declaredPrefix? heq
  rw [declaredPrefix?_declarationTag, declaredPrefix?_declarationTag] at hdeclared
  exact String.toList_inj.mp (Option.some.inj hdeclared)

/-! ## The scope -/

/-- The scope after declarations. -/
def scopeOf (declared : Prefixes) (scope : Scope) : Scope :=
  (declared.map fun entry => (entry.2.toList, entry.1)).reverse ++ scope

theorem bind_eq_some {scope : Scope} {pfx : List Char} {address : String}
    (hpfx : pfx ≠ "xmlns".toList) (haddress : Bindable address) (hne : address ≠ "")
    (hxml : pfx ≠ "xml".toList) (hxmlSpace : address ≠ xmlSpace) :
    scope.bind pfx address = some ((pfx, address) :: scope) := by
  have hreserved : ¬ ((pfx = "xmlns".toList : Bool) || address == declarationSpace) = true := by
    simpa using ⟨hpfx, haddress.free⟩
  have hneither : ¬ ((pfx = "xml".toList : Bool) != (address == xmlSpace)) = true := by
    rw [beq_eq_false_iff_ne.mpr hxmlSpace, decide_eq_false hxml]
    decide
  have hempty : ¬ (address.isEmpty && !pfx.isEmpty) = true := by simp [hne]
  have hbrace : ¬ address.toList.contains '\x7d' = true := by simpa using haddress.brace
  unfold Scope.bind
  rw [if_neg hreserved, if_neg hneither, if_neg hempty, if_neg hbrace]

theorem declareAll_of_bind {declared : Prefixes} {scope : Scope}
    (h : ∀ entry ∈ declared, ∀ scope : Scope,
      scope.bind entry.2.toList entry.1 = some ((entry.2.toList, entry.1) :: scope)) :
    (declared.map fun entry => (declarationTag entry.2, entry.1)).foldlM Scope.declare scope
      = some (scopeOf declared scope) := by
  induction declared generalizing scope with
  | nil => rfl
  | cons entry declared ih =>
    obtain ⟨hfirst, hothers⟩ := List.forall_mem_cons.mp h
    have hdeclare : scope.declare (declarationTag entry.2, entry.1)
        = some ((entry.2.toList, entry.1) :: scope) := by
      unfold Scope.declare
      rw [declaredPrefix?_declarationTag]
      exact hfirst scope
    rw [List.map_cons, List.foldlM_cons, hdeclare]
    refine (ih hothers).trans ?_
    unfold scopeOf
    rw [List.map_cons, List.reverse_cons, List.append_assoc]
    rfl

/-- The scope of a document. -/
def Prefixes.scope (assigned : Prefixes) : Scope :=
  scopeOf (assigned.foldr insertDeclaration []) Scope.initial

/-- **The declarations** of a document are accepted, and give its scope. -/
theorem declareAll_eq (h : Assigned space assigned) (hspace : space ≠ xmlSpace) :
    (declaredEntries assigned).foldlM Scope.declare Scope.initial = some assigned.scope := by
  refine declareAll_of_bind fun entry hentry scope => ?_
  have hentry := (perm_declarations assigned).mem_iff.mp hentry
  obtain ⟨hne, hbindable⟩ := h.spaces entry hentry
  refine bind_eq_some ?_ hbindable hne ?_ (h.ne_xmlSpace hspace hentry)
  · intro heq
    rcases h.isName hentry with ⟨hnil, -⟩ | ⟨-, hxmlns⟩
    · rw [hnil] at heq
      cases heq
    · exact hxmlns (String.toList_inj.mp heq)
  · exact fun heq => h.unreserved entry hentry (String.toList_inj.mp heq)

/-- The prefixes that differ stand for what they were declared for. -/
theorem lookup_of_mem {scope : Scope} {declared : Prefixes}
    (hdistinct : (declared.map Prod.snd).Nodup)
    {entry : String × String} (hentry : entry ∈ declared) :
    (scopeOf declared scope).lookup entry.2.toList = some entry.1 := by
  induction declared generalizing scope with
  | nil => cases hentry
  | cons first declared ih =>
    obtain ⟨hfirst, hothers⟩ := List.nodup_cons.mp hdistinct
    have hstep : scopeOf (first :: declared) scope
        = scopeOf declared ((first.2.toList, first.1) :: scope) := by
      unfold scopeOf
      rw [List.map_cons, List.reverse_cons, List.append_assoc]
      rfl
    rw [hstep]
    rcases List.mem_cons.mp hentry with rfl | hmem
    · refine List.lookup_eq_some_iff.mpr ⟨_, scope, rfl, fun bound hbound => ?_⟩
      obtain ⟨later, hlater, rfl⟩ := List.mem_map.mp (List.mem_reverse.mp hbound)
      refine bne_iff_ne.mpr fun heq => hfirst ?_
      rw [String.toList_inj.mp heq]
      exact List.mem_map_of_mem hlater
    · exact ih hothers hmem

/-- What is not declared stands for what it stood for. -/
theorem lookup_of_not_mem {scope : Scope} {declared : Prefixes} {pfx : List Char}
    (h : ∀ entry ∈ declared, entry.2.toList ≠ pfx) :
    (scopeOf declared scope).lookup pfx = scope.lookup pfx := by
  have hnone :
      ((declared.map fun entry => (entry.2.toList, entry.1)).reverse).lookup pfx = none := by
    refine List.lookup_eq_none_iff.mpr fun bound hbound => ?_
    obtain ⟨entry, hentry, rfl⟩ := List.mem_map.mp (List.mem_reverse.mp hbound)
    exact bne_iff_ne.mpr (h entry hentry).symm
  unfold scopeOf
  rw [List.lookup_append, hnone, Option.none_or]

theorem Assigned.lookup_scope (h : Assigned space assigned) {entry : String × String}
    (hentry : entry ∈ assigned) : assigned.scope.lookup entry.2.toList = some entry.1 := by
  have hperm := perm_declarations assigned
  exact lookup_of_mem ((hperm.map Prod.snd).nodup_iff.mpr h.distinct) (hperm.mem_iff.mpr hentry)

theorem Assigned.lookup_xml (h : Assigned space assigned) :
    assigned.scope.lookup "xml".toList = some xmlSpace := by
  refine (lookup_of_not_mem fun entry hentry heq => ?_).trans rfl
  exact h.unreserved entry ((perm_declarations assigned).mem_iff.mp hentry)
    (String.toList_inj.mp heq)

/-- In a document whose root is in no namespace there is no default one. -/
theorem Assigned.lookup_default (h : Assigned "" assigned) :
    assigned.scope.lookup [] = none := by
  refine (lookup_of_not_mem fun entry hentry heq => ?_).trans rfl
  rcases h.isName ((perm_declarations assigned).mem_iff.mp hentry) with ⟨-, -, hne⟩ | ⟨hname, -⟩
  · exact hne rfl
  · exact hname.ne_nil heq

/-! ## Names that are found again -/

theorem qname_eq (name : QName) :
    (⟨name.space, String.ofList name.name.toList⟩ : QName) = name := by
  rw [String.ofList_toList]

theorem elementName_of_lookup {scope : Scope} {pfx : List Char} {name : QName}
    (h : scope.lookup pfx = some name.space) :
    scope.elementName ⟨pfx, name.name.toList⟩ = some name := by
  unfold Scope.elementName
  dsimp only
  rw [h]
  exact congrArg some (qname_eq name)

theorem attributeName_of_lookup {scope : Scope} {pfx : List Char} {name : QName} (hne : pfx ≠ [])
    (h : scope.lookup pfx = some name.space) :
    scope.attributeName ⟨pfx, name.name.toList⟩ = some name := by
  have hempty : ¬ pfx.isEmpty = true := by simpa using hne
  unfold Scope.attributeName
  dsimp only
  rw [if_neg hempty, h]
  exact congrArg some (qname_eq name)

/-- **The name of an element** is found again, unless it is in no namespace and the root is in
one. -/
theorem elementName_written {name : QName} (h : Assigned space assigned)
    (hcovered : Covered space assigned name) (hname : name.space = "" → space = "") :
    assigned.scope.elementName (writtenTag (Prefixes.held space) assigned name) = some name := by
  rcases writtenTag_cases h hcovered with ⟨hempty, htag⟩ | ⟨hxml, -, htag⟩ | ⟨found, hmem, htag⟩
  · obtain rfl := hname hempty
    rw [htag]
    unfold Scope.elementName
    dsimp only
    rw [h.lookup_default]
    show some (⟨"", String.ofList name.name.toList⟩ : QName) = some name
    rw [← hempty, qname_eq]
  · rw [htag]
    exact elementName_of_lookup (hxml ▸ h.lookup_xml)
  · rw [htag]
    exact elementName_of_lookup (h.lookup_scope hmem)

/-- **The name of an attribute** is found again and declares no prefix, unless it is in the
namespace of the root. -/
theorem attributeName_written {name : QName} (h : Assigned space assigned)
    (hcovered : Covered space assigned name) (hne : name ≠ ⟨"", "xmlns"⟩)
    (hname : name.space = "" ∨ name.space ≠ space) :
    declaredPrefix? (writtenTag (Prefixes.held space) assigned name) = none ∧
      assigned.scope.attributeName (writtenTag (Prefixes.held space) assigned name)
        = some name := by
  -- a name with another prefix than that of declarations declares nothing
  have hdeclares : ∀ {tag : TagName}, tag.pfx ≠ "xmlns".toList → tag ≠ ⟨[], "xmlns".toList⟩ →
      declaredPrefix? tag = none := fun hpfx htag => by
    unfold declaredPrefix?
    rw [if_neg hpfx, if_neg htag]
  have hpfx := pfx_writtenTag_ne h hcovered
  rcases writtenTag_cases h hcovered with ⟨hempty, htag⟩ | ⟨hxml, -, htag⟩ | ⟨found, hmem, htag⟩
  · rw [htag] at hpfx ⊢
    refine ⟨hdeclares hpfx fun heq => hne ?_, ?_⟩
    · have hxmlns : name.name.toList = "xmlns".toList := congrArg TagName.name heq
      rw [← qname_eq name, hempty, hxmlns]
      rfl
    · show some (⟨"", String.ofList name.name.toList⟩ : QName) = some name
      rw [← hempty, qname_eq]
  · rw [htag] at hpfx ⊢
    refine ⟨hdeclares hpfx fun heq => ?_, ?_⟩
    · exact absurd (congrArg TagName.pfx heq) (show "xml".toList ≠ [] by decide)
    · exact attributeName_of_lookup (by decide) (hxml ▸ h.lookup_xml)
  · have hother : name.space ≠ space := hname.resolve_left (h.spaces _ hmem).1
    have hfound : found.toList ≠ [] := by
      rcases h.isName hmem with ⟨-, hsame, -⟩ | ⟨hisName, -⟩
      · exact absurd hsame hother
      · exact hisName.ne_nil
    rw [htag] at hpfx ⊢
    exact ⟨hdeclares hpfx fun heq => hfound (congrArg TagName.pfx heq),
      attributeName_of_lookup hfound (h.lookup_scope hmem)⟩

end Declarations

/-! ## Roots -/

section Roots

variable {space : String} {root : Node}

theorem covered_of_mem_labels {assigned : Prefixes}
    (hcovered : ∀ name ∈ root.names, Covered space assigned name) {name : QName}
    {attributes : Attributes} (hlabel : Label.element name attributes ∈ root.labels) :
    Covered space assigned name ∧ ∀ entry ∈ attributes, Covered space assigned entry.1 :=
  ⟨hcovered _ (List.mem_flatMap.mpr ⟨_, hlabel, List.mem_cons_self ..⟩), fun _ hentry =>
    hcovered _ (List.mem_flatMap.mpr
      ⟨_, hlabel, List.mem_cons_of_mem _ (List.mem_map_of_mem hentry)⟩)⟩

/-- The parts of a root as they are written. -/
def rootPieces (space : String) (root : Node) : List Piece :=
  let assigned := assign (Prefixes.held space) root
  root.pieces (writtenTag (Prefixes.held space) assigned) (declaredEntries assigned)

theorem writeRoot_eq (space : String) (root : Node) :
    writeRoot (Prefixes.held space) root
      = root.write (rawName (writtenTag (Prefixes.held space) (assign (Prefixes.held space) root)))
          ((declaredEntries (assign (Prefixes.held space) root)).flatMap entryText) := by
  unfold writeRoot
  dsimp only
  rw [writtenName_eq, writeDeclarations_eq]

/-- The names of a tree that was read can be written. -/
theorem spellable_written (space : String) (hsound : root.Every Sound) :
    root.Every (Spellable
      (writtenTag (Prefixes.held space) (assign (Prefixes.held space) root))) := by
  obtain ⟨hassigned, hcovered⟩ := assigned_assign space hsound
  refine (hsound.and (every_mem_labels hsound)).mono fun each ⟨heach, hmem⟩ => ⟨heach, ?_⟩
  intro name attributes hlabel
  have hnamed := heach.named hlabel
  obtain ⟨hname, hattributes⟩ := covered_of_mem_labels hcovered (hlabel ▸ hmem)
  exact ⟨isTagName_writtenTag hassigned hname hnamed.isName, fun entry hentry =>
    isTagName_writtenTag hassigned (hattributes entry hentry) (hnamed.entries entry hentry).1⟩

/-- **Every name** that can be expressed is found again in the scope of the document. -/
theorem writable_written (hsound : root.Every Sound) (hexpress : root.Every (Expressible space)) :
    let assigned := assign (Prefixes.held space) root
    root.Every (Writable assigned.scope (writtenTag (Prefixes.held space) assigned)) := by
  intro assigned
  obtain ⟨hassigned, hcovered⟩ := assigned_assign space hsound
  have hall := (hexpress.and (spellable_written space hsound)).and
    (every_mem_labels hsound)
  refine hall.mono fun each ⟨⟨heach, hspellable⟩, hmem⟩ => ⟨hspellable.sound, ?_⟩
  intro name attributes hlabel
  obtain ⟨hexpressName, hexpressAttributes⟩ := heach name attributes hlabel
  obtain ⟨hname, hattributes⟩ := covered_of_mem_labels hcovered (hlabel ▸ hmem)
  obtain ⟨htag, htags⟩ := hspellable.tags name attributes hlabel
  refine ⟨htag, elementName_written hassigned hname hexpressName, fun entry hentry => ?_⟩
  have hne := ((hspellable.sound.named hlabel).entries entry hentry).2.1
  exact ⟨htags entry hentry, attributeName_written hassigned (hattributes entry hentry) hne
    (hexpressAttributes entry hentry)⟩

/-- **The root of a document** is scanned to its parts, whatever follows it. -/
theorem scanRoot_writeRoot (hroot : root.IsRoot) (hsound : root.Every Sound)
    (hspace : ∀ name, root.name? = some name → name.space = space) :
    let written := writeRoot (Prefixes.held space) root
    Legal written ∧
      (∀ name, root.name? = some name → ∃ more, written = '<' :: (name.name.toList ++ more)) ∧
      ∀ rest, scanRoot ((written ++ rest).length + 1) 0 (written ++ rest)
        = some (rootPieces space root, rest) := by
  intro written
  obtain ⟨hassigned, hcovered⟩ := assigned_assign space hsound
  have hspellable := spellable_written space hsound
  have hwritten : written = _ := writeRoot_eq space root
  unfold rootPieces
  generalize assign (Prefixes.held space) root = assigned at *
  obtain ⟨name, attributes, text, children, rfl⟩ := hroot
  refine ⟨?_, ?_, fun rest => ?_⟩
  · rw [hwritten]
    refine legal_write hspellable fun c hc => ?_
    obtain ⟨entry, hentry, hc⟩ := List.mem_flatMap.mp hc
    exact legal_entryText (hassigned.isTagName hentry) (hassigned.legal hentry) c hc
  · rintro _ ⟨⟩
    have hown := writtenTag_own hassigned
      (covered_of_mem_labels hcovered (Node.mem_labels.mpr (.inl rfl))).1 (hspace name rfl)
    have hraw : rawName (writtenTag (Prefixes.held space) assigned) name = name.name.toList := by
      unfold rawName
      rw [hown]
      rfl
    rw [hwritten, Node.write, hraw]
    simp only [List.cons_append, List.append_assoc]
    exact ⟨_, rfl⟩
  · rw [hwritten]
    exact scanRoot_write (fun _ hentry => hassigned.isTagName hentry) hspellable rest

/-- **The root of a document** whose names can be expressed is built as it was, with its line ends
unified. -/
theorem buildTree_rootPieces (hreserved : space ≠ xmlSpace) (hroot : root.IsRoot)
    (hsound : root.Every Sound) (hexpress : root.Every (Expressible space)) :
    buildTree Dtd.empty (rootPieces space root) = some root.unified := by
  obtain ⟨hassigned, -⟩ := assigned_assign space hsound
  have hwritable := writable_written hsound hexpress
  unfold rootPieces
  dsimp only at hwritable ⊢
  generalize assign (Prefixes.held space) root = assigned at *
  obtain ⟨name, attributes, text, children, rfl⟩ := hroot
  exact buildTree_pieces (fun _ hentry => declares_of_mem_declaredEntries hentry) hassigned.nodup
    (declareAll_eq hassigned hreserved) hwritable

end Roots

end Rollout.Xml
