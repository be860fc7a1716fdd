import Rollout.Proofs.Xml.Astray

/-!
# The start tag of a root

Which namespace a written root is in is decided by its start tag, whatever the text behind it is.

- `label_of_scanRoot`: the root that is read has the label of the element that its first tag opens.
- `isTagName_written`, `isTagName_declared`: every name in the start tag of a written root is one.
- `space_of_openElement`: **the start tag of a written root** opens an element of its namespace.
- `exists_rootTag`: a written root begins with its start tag, which holds no line end.
-/

namespace Rollout.Xml

/-! ## The element that is opened first -/

/-- The label of the outermost open element, or of the root once it is closed. -/
def Growth.outermost? (growth : Growth) : Option Label :=
  match growth.frames.getLast? with
  | some frame => some frame.node.label
  | none => growth.root.map Node.label

theorem outermost?_congr {frame frame' : Frame} (h : frame'.node.label = frame.node.label)
    (frames : List Frame) (root root' : Option Node) :
    Growth.outermost? ⟨frame' :: frames, root'⟩ = Growth.outermost? ⟨frame :: frames, root⟩ := by
  cases frames with
  | nil => exact congrArg some h
  | cons => rfl

theorem outermost?_place (node : Node) (frame : Frame) (frames : List Frame) (root : Option Node) :
    (Growth.place node (frame :: frames)).outermost?
      = Growth.outermost? ⟨frame :: frames, root⟩ :=
  @outermost?_congr frame { frame with node := frame.node.addChild node } rfl frames root none

theorem label_addText (node : Node) (cs : List Char) : (node.addText cs).label = node.label := by
  unfold Node.addText
  split <;> rfl

/-- The outermost element keeps its label, and becomes the root when it is closed. -/
theorem outermost?_of_grow {dtd : Dtd} {growth growth' : Growth} {piece : Piece}
    (h : grow dtd growth piece = some growth') (hopen : growth.frames ≠ []) :
    growth'.outermost? = growth.outermost? := by
  obtain ⟨_ | ⟨frame, frames⟩, root⟩ := growth
  · exact absurd rfl hopen
  cases piece with
  | start tag =>
    obtain ⟨⟨scope, label⟩, -, hread⟩ := Option.bind_eq_some_iff.mp h
    dsimp only at hread
    split at hread
    case isTrue =>
      cases hread
      exact outermost?_place ..
    case isFalse =>
      cases hread
      rfl
  | finish name =>
    dsimp only [grow] at h
    split at h
    case isTrue =>
      cases h
      cases frames with
      | nil => rfl
      | cons outer frames => exact outermost?_place frame.node outer frames root
    case isFalse => cases h
  | text cs =>
    cases h
    exact outermost?_congr (label_addText frame.node cs) ..
  | comment cs =>
    cases h
    exact outermost?_place ..
  | instruction target data =>
    cases h
    exact outermost?_place ..
  | entity name => cases h

/-- What is scanned inside the root closes it at its end, and not before. -/
theorem outermost?_of_scanRoot {dtd : Dtd} : ∀ {fuel depth : Nat} {cs rest : List Char}
    {pieces : List Piece} {growth growth' : Growth},
    scanRoot fuel depth cs = some (pieces, rest) → depth ≠ 0 → growth.tags.length = depth →
    pieces.foldlM (grow dtd) growth = some growth' →
    growth'.frames = [] ∧ growth'.outermost? = growth.outermost?
  | 0, _, _, _, _, _, _, h, _, _, _ => nomatch h
  | fuel + 1, depth, cs, rest, pieces, growth, growth', h, hdepth, htags, hgrow => by
    rw [scanRoot] at h
    obtain ⟨⟨piece, mid⟩, -, hread⟩ := Option.bind_eq_some_iff.mp h
    obtain ⟨depth', hstep, hrest⟩ := Option.bind_eq_some_iff.mp hread
    have hopen : growth.frames ≠ [] := by
      intro hnil
      rw [Growth.tags, hnil] at htags
      exact hdepth htags.symm
    -- the tree counts the open tags as the scanner does
    have hcount : ∀ {next : Growth}, grow dtd growth piece = some next →
        next.tags.length = depth' := fun hnext =>
      Option.some.inj ((tagStep_of_grow hnext).depthAfter?_eq.symm.trans (htags ▸ hstep))
    dsimp only at hrest
    split at hrest
    case isTrue hzero =>
      cases hrest
      rw [List.foldlM_cons] at hgrow
      obtain ⟨next, hnext, hlast⟩ := Option.bind_eq_some_iff.mp hgrow
      cases hlast
      have hlength := hcount hnext
      rw [hzero, Growth.tags, List.length_map] at hlength
      exact ⟨List.length_eq_zero_iff.mp hlength, outermost?_of_grow hnext hopen⟩
    case isFalse hinside =>
      obtain ⟨⟨others, more⟩, hothers, hfinal⟩ := Option.bind_eq_some_iff.mp hrest
      cases hfinal
      rw [List.foldlM_cons] at hgrow
      obtain ⟨next, hnext, hlast⟩ := Option.bind_eq_some_iff.mp hgrow
      obtain ⟨hclosed, hlabel⟩ := outermost?_of_scanRoot hothers hinside (hcount hnext) hlast
      exact ⟨hclosed, hlabel.trans (outermost?_of_grow hnext hopen)⟩

/-- **The root that is read** has the label of the element that its start tag opens. -/
theorem label_of_scanRoot {dtd : Dtd} {fuel : Nat} {cs mid rest : List Char} {tag : StartTag}
    {pieces : List Piece} {root : Node} (hpiece : scanPiece cs = some (.start tag, mid))
    (hscan : scanRoot fuel 0 cs = some (pieces, rest)) (hbuild : buildTree dtd pieces = some root) :
    ∃ scope, openElement dtd Scope.initial tag = some (scope, root.label) := by
  obtain ⟨growth, hgrow, hroot⟩ := Option.bind_eq_some_iff.mp hbuild
  cases fuel with
  | zero => cases hscan
  | succ fuel =>
    rw [scanRoot] at hscan
    obtain ⟨⟨piece, stop⟩, hfirst, hread⟩ := Option.bind_eq_some_iff.mp hscan
    obtain ⟨rfl, rfl⟩ := Prod.mk.inj (Option.some.inj (hfirst.symm.trans hpiece))
    obtain ⟨depth, hstep, hrest⟩ := Option.bind_eq_some_iff.mp hread
    have hdepth : (if tag.closed then 0 else 1) = depth := Option.some.inj hstep
    clear hscan hread hstep
    -- the part that opens the root comes first
    obtain ⟨others, rfl⟩ : ∃ others, pieces = .start tag :: others := by
      dsimp only at hrest
      split at hrest
      case isTrue =>
        cases hrest
        exact ⟨[], rfl⟩
      case isFalse =>
        obtain ⟨⟨others, more⟩, -, hfinal⟩ := Option.bind_eq_some_iff.mp hrest
        cases hfinal
        exact ⟨others, rfl⟩
    rw [List.foldlM_cons] at hgrow
    obtain ⟨next, hnext, hothers⟩ := Option.bind_eq_some_iff.mp hgrow
    obtain ⟨⟨scope, label⟩, hopened, hread⟩ := Option.bind_eq_some_iff.mp hnext
    refine ⟨scope, hopened.trans (congrArg (fun label => some (scope, label)) ?_)⟩
    dsimp only at hread hrest
    cases hclosed : tag.closed with
    | true =>
      rw [hclosed, if_pos rfl] at hdepth hread
      rw [if_pos hdepth.symm] at hrest
      cases hrest
      cases hread
      cases hothers
      cases hroot
      rfl
    | false =>
      rw [hclosed, if_neg Bool.false_ne_true] at hdepth hread
      subst hdepth
      rw [if_neg Nat.one_ne_zero] at hrest
      obtain ⟨⟨scanned, more⟩, hscanned, hfinal⟩ := Option.bind_eq_some_iff.mp hrest
      cases hfinal
      cases hread
      obtain ⟨hframes, hlabel⟩ := outermost?_of_scanRoot hscanned Nat.one_ne_zero rfl hothers
      unfold Growth.outermost? at hlabel
      rw [hframes, hroot] at hlabel
      exact (Option.some.inj hlabel).symm

/-! ## Names in the start tag -/

section Tags

variable {space : String} {assigned : Prefixes} {name : QName} {attributes : Attributes}

theorem chosen_prefixFor (h : ∀ entry ∈ assigned, Chosen space assigned.length entry)
    (other : String) :
    Chosen space (assigned.length + 1) (other, prefixFor (Prefixes.held space) assigned other) := by
  unfold prefixFor
  split
  case h_1 found hfound => exact (h _ (mem_of_lookup hfound)).mono (Nat.le_succ _)
  case h_2 =>
    split
    case h_1 found hfound => exact .inl hfound
    case h_2 hnone => exact .inr ⟨hnone, assigned.length, Nat.lt_succ_self _, rfl⟩

/-- A tag has no prefix, or one that is a name and not that of declarations. -/
theorem pfx_written (h : ∀ entry ∈ assigned, Chosen space assigned.length entry) (name : QName) :
    let tag := writtenTag (Prefixes.held space) assigned name
    tag.pfx = [] ∧ (name.space = "" ∨ name.space = space) ∨
      IsName tag.pfx ∧ tag.pfx ≠ "xmlns".toList := by
  intro tag
  have htag : tag.pfx = if name.space.isEmpty then []
      else (prefixFor (Prefixes.held space) assigned name.space).toList := rfl
  rw [htag]
  split
  case isTrue hempty => exact .inl ⟨rfl, .inl (by simpa using hempty)⟩
  case isFalse =>
    rcases (chosen_prefixFor h name.space).isName with ⟨hnil, hspace, -⟩ | ⟨hname, hne⟩
    · exact .inl ⟨String.toList_eq_nil_iff.mpr hnil, .inr hspace⟩
    · exact .inr ⟨hname, fun heq => hne (String.toList_inj.mp heq)⟩

theorem isTagName_written (h : ∀ entry ∈ assigned, Chosen space assigned.length entry)
    (hname : IsName name.name.toList) :
    IsTagName (writtenTag (Prefixes.held space) assigned name) :=
  ⟨hname, (pfx_written h name).imp And.left And.left⟩

theorem isTagName_declared (h : ∀ entry ∈ assigned, Chosen space assigned.length entry)
    {declared : TagName × String} (hdeclared : declared ∈ declaredEntries assigned) :
    IsTagName declared.1 := by
  obtain ⟨entry, hentry, rfl⟩ := mem_declaredEntries hdeclared
  exact isTagName_declarationTag ((h entry hentry).isName.imp And.left And.left)

/-- The names of an element that can be written. -/
structure Spelling (name : QName) (attributes : Attributes) : Prop where
  isName : IsName name.name.toList
  entries : ∀ entry ∈ attributes, IsName entry.1.name.toList ∧ entry.1 ≠ ⟨"", "xmlns"⟩

theorem SoundElement.spelling (h : SoundElement name attributes) : Spelling name attributes :=
  ⟨h.isName, fun entry hentry => ⟨(h.entries entry hentry).1, (h.entries entry hentry).2.1⟩⟩

/-- The attributes in the start tag of a root, declarations first. -/
def rootEntries (space : String) (assigned : Prefixes) (attributes : Attributes) :
    List (TagName × String) :=
  declaredEntries assigned ++ writtenEntries (writtenTag (Prefixes.held space) assigned) attributes

theorem isTagName_rootEntries (h : ∀ entry ∈ assigned, Chosen space assigned.length entry)
    (hspelling : Spelling name attributes) :
    ∀ entry ∈ rootEntries space assigned attributes, IsTagName entry.1 := by
  refine List.forall_mem_append.mpr ⟨fun _ => isTagName_declared h, fun entry hentry => ?_⟩
  obtain ⟨original, horiginal, rfl⟩ := List.mem_map.mp hentry
  exact isTagName_written h (hspelling.entries original horiginal).1

/-! ## The default namespace -/

theorem lookup_declareAll_of_none {scope scope' : Scope} {values : List (TagName × String)}
    {pfx : List Char} (hvalues : ∀ entry ∈ values, declaredPrefix? entry.1 ≠ some pfx)
    (h : values.foldlM Scope.declare scope = some scope') :
    scope'.lookup pfx = scope.lookup pfx := by
  induction values generalizing scope with
  | nil =>
    cases h
    rfl
  | cons entry values ih =>
    obtain ⟨hfirst, hothers⟩ := List.forall_mem_cons.mp hvalues
    rw [List.foldlM_cons] at h
    obtain ⟨next, hnext, hrest⟩ := Option.bind_eq_some_iff.mp h
    rw [ih hothers hrest]
    unfold Scope.declare at hnext
    split at hnext
    case h_1 declared hdeclared =>
      have hne : (pfx == declared) = false :=
        beq_eq_false_iff_ne.mpr fun heq => hfirst (heq ▸ hdeclared)
      rw [eq_cons_of_bind hnext, List.lookup_cons, hne]
    case h_2 =>
      cases hnext
      rfl

/-- A tag with a name declares the default namespace when it is called `xmlns`. -/
theorem declaredPrefix?_eq_nil {tag : TagName} (htag : IsTagName tag)
    (h : declaredPrefix? tag = some []) : tag = ⟨[], "xmlns".toList⟩ := by
  unfold declaredPrefix? at h
  split at h
  case isTrue => exact absurd (Option.some.inj h) htag.name.ne_nil
  case isFalse =>
    split at h
    case isTrue heq => exact heq
    case isFalse => cases h

/-- The one declaration of the default namespace counts. -/
theorem lookup_declareAll_of_mem {scope scope' : Scope} {values : List (TagName × String)}
    {address : String} (htags : ∀ entry ∈ values, IsTagName entry.1)
    (hnodup : (values.map Prod.fst).Nodup) (hmem : (declarationTag "", address) ∈ values)
    (h : values.foldlM Scope.declare scope = some scope') : scope'.lookup [] = some address := by
  obtain ⟨front, back, rfl⟩ := List.append_of_mem hmem
  rw [List.foldlM_append] at h
  obtain ⟨before, -, hrest⟩ := Option.bind_eq_some_iff.mp h
  rw [List.foldlM_cons] at hrest
  obtain ⟨declared, hdeclared, hback⟩ := Option.bind_eq_some_iff.mp hrest
  have hbind : before.bind [] address = some declared := hdeclared
  rw [List.map_append, List.map_cons] at hnodup
  have hfresh : declarationTag "" ∉ back.map Prod.fst :=
    (List.nodup_cons.mp (List.nodup_append.mp hnodup).2.1).1
  rw [lookup_declareAll_of_none (fun entry hentry hnil => hfresh ?_) hback, eq_cons_of_bind hbind]
  · rfl
  · have htag := declaredPrefix?_eq_nil
      (htags entry (List.mem_append_right _ (List.mem_cons_of_mem _ hentry))) hnil
    exact List.mem_map.mpr ⟨entry, hentry, htag⟩

/-- The namespace of the root has the empty prefix. -/
theorem declared_of_covered (h : ∀ entry ∈ assigned, Chosen space assigned.length entry)
    (hcovered : Covered space assigned name) (hname : name.space = space) (hspace : space ≠ "") :
    (declarationTag "", space) ∈ declaredEntries assigned := by
  have hheld := lookup_held_self hspace
  have hsome : (assigned.lookup space).isSome = true := by
    rw [Covered, hname, hheld] at hcovered
    exact (hcovered.resolve_left hspace).resolve_left (by decide)
  obtain ⟨pfx, hpfx⟩ := Option.isSome_iff_exists.mp hsome
  have hmem := mem_of_lookup hpfx
  obtain rfl : pfx = "" := by
    rcases h _ hmem with hregistered | ⟨hnone, -⟩
    · exact (Option.some.inj (hheld.symm.trans hregistered)).symm
    · rw [hheld] at hnone
      cases hnone
  exact List.mem_map.mpr ⟨_, (perm_declarations _).mem_iff.mpr hmem, rfl⟩

/-- The start tag of a root in no namespace declares no default one. -/
theorem not_declares_default (h : ∀ entry ∈ assigned, Chosen "" assigned.length entry)
    (hspelling : Spelling name attributes) :
    ∀ entry ∈ rootEntries "" assigned attributes, declaredPrefix? entry.1 ≠ some [] := by
  intro entry hentry hnil
  have htag := declaredPrefix?_eq_nil (isTagName_rootEntries h hspelling entry hentry) hnil
  rcases List.mem_append.mp hentry with hdeclared | hwritten
  · obtain ⟨assignedEntry, hassigned, rfl⟩ := mem_declaredEntries hdeclared
    rw [declaredPrefix?_declarationTag] at hnil
    rcases (h assignedEntry hassigned).isName with ⟨-, -, hne⟩ | ⟨hname, -⟩
    · exact hne rfl
    · exact hname.ne_nil (Option.some.inj hnil)
  · obtain ⟨original, horiginal, rfl⟩ := List.mem_map.mp hwritten
    obtain ⟨hname, hne⟩ := hspelling.entries original horiginal
    rcases pfx_written h original.1 with ⟨-, hspace⟩ | ⟨hpfx, -⟩
    · refine hne ?_
      have hxmlns : original.1.name.toList = "xmlns".toList := congrArg TagName.name htag
      rw [← qname_eq original.1, or_self_iff.mp hspace, hxmlns]
      rfl
    · exact hpfx.ne_nil (congrArg TagName.pfx htag)

/-- **The start tag of a written root** opens an element in the namespace of the root, if it opens
one at all. -/
theorem space_of_openElement (h : ∀ entry ∈ assigned, Chosen space assigned.length entry)
    (hcovered : Covered space assigned name) (hname : name.space = space)
    (hspelling : Spelling name attributes) {closed : Bool} {scope : Scope} {label : Label}
    (hopened : openElement Dtd.empty Scope.initial
      ⟨writtenTag (Prefixes.held space) assigned name,
        (rootEntries space assigned attributes).map escapedEntry, closed⟩ = some (scope, label)) :
    ∃ read entries, label = .element read entries ∧ read.space = space := by
  obtain ⟨values, entries, read, hvalues, hnodup, hdeclare, -, -, hread, rfl⟩ :=
    openElement_eq_some.mp hopened
  rw [attributeValues_written] at hvalues
  obtain rfl := Option.some.inj hvalues
  have hnodup : ((rootEntries space assigned attributes).map Prod.fst).Nodup := by
    rw [List.map_map] at hnodup
    exact hnodup
  have htags := isTagName_rootEntries h hspelling
  refine ⟨read, entries, rfl, ?_⟩
  have hpfx : (writtenTag (Prefixes.held space) assigned name).pfx = [] := by
    unfold writtenTag
    split
    case isTrue => rfl
    case isFalse hne =>
      have hspace : space ≠ "" := by simpa [hname] using hne
      have hheld := lookup_held_self hspace
      rw [hname]
      refine String.toList_eq_nil_iff.mpr ?_
      rcases chosen_prefixFor h space with hregistered | ⟨hnone, -⟩
      · exact (Option.some.inj (hheld.symm.trans hregistered)).symm
      · rw [hheld] at hnone
        cases hnone
  unfold Scope.elementName at hread
  rw [hpfx] at hread
  by_cases hspace : space = ""
  · subst hspace
    rw [lookup_declareAll_of_none (not_declares_default h hspelling) hdeclare] at hread
    cases hread
    rfl
  · have hmem := declared_of_covered h hcovered hname hspace
    rw [lookup_declareAll_of_mem htags hnodup (List.mem_append_left _ hmem) hdeclare] at hread
    cases hread
    rfl

/-! ## The text of the start tag -/

/-- The text of a root's start tag. -/
def rootTagText (space : String) (assigned : Prefixes) (name : QName) (attributes : Attributes)
    (closed : Bool) : List Char :=
  '<' :: ((writtenTag (Prefixes.held space) assigned name).raw
    ++ ((rootEntries space assigned attributes).flatMap entryText ++ tagEnd closed))

theorem scanPiece_rootTagText (h : ∀ entry ∈ assigned, Chosen space assigned.length entry)
    (hspelling : Spelling name attributes) (closed : Bool) (rest : List Char) :
    scanPiece (rootTagText space assigned name attributes closed ++ rest)
      = some (.start ⟨writtenTag (Prefixes.held space) assigned name,
          (rootEntries space assigned attributes).map escapedEntry, closed⟩, rest) := by
  have hscan := scanPiece_start (isTagName_written h hspelling.isName)
    (isTagName_rootEntries h hspelling) closed rest
  rw [← hscan]
  unfold rootTagText
  simp only [List.cons_append, List.append_assoc]

theorem atStartTag_rootTagText (h : ∀ entry ∈ assigned, Chosen space assigned.length entry)
    (hspelling : Spelling name attributes) (closed : Bool) (rest : List Char) :
    atStartTag (rootTagText space assigned name attributes closed ++ rest) = true := by
  obtain ⟨c, more, hraw, hc⟩ := (isTagName_written h hspelling.isName).exists_raw
  unfold rootTagText
  rw [hraw]
  exact hc

/-- A value is written without a line end. -/
theorem return_not_mem_escapeAttribute (value : String) : '\r' ∉ escapeAttribute value := by
  intro hmem
  obtain ⟨c, -, hc⟩ := List.mem_flatMap.mp hmem
  by_cases hreturn : c = '\r'
  · subst hreturn
    exact absurd hc (by decide)
  · rcases mem_escapeAttributeChar hc with ⟨heq, -⟩ | hreference
    · exact hreturn heq.symm
    · exact absurd hreference (by decide)

theorem return_not_mem_entries {entries : List (TagName × String)}
    (h : ∀ entry ∈ entries, IsTagName entry.1) : '\r' ∉ entries.flatMap entryText := by
  intro hmem
  obtain ⟨entry, hentry, hc⟩ := List.mem_flatMap.mp hmem
  have htag : '\r' ∉ entry.1.raw := (h entry hentry).not_mem_raw (by decide +kernel)
  have hvalue := return_not_mem_escapeAttribute entry.2
  simp [entryText, quotedValue, htag, hvalue] at hc

theorem return_not_mem_rootTagText (h : ∀ entry ∈ assigned, Chosen space assigned.length entry)
    (hspelling : Spelling name attributes) (closed : Bool) :
    '\r' ∉ rootTagText space assigned name attributes closed := by
  have hentries := return_not_mem_entries (isTagName_rootEntries h hspelling)
  have hend : '\r' ∉ tagEnd closed := by cases closed <;> decide
  have htag : '\r' ∉ (writtenTag (Prefixes.held space) assigned name).raw :=
    (isTagName_written h hspelling.isName).not_mem_raw (by decide +kernel)
  unfold rootTagText
  simp only [List.mem_cons, List.mem_append, not_or]
  exact ⟨by decide, htag, hentries, hend⟩

end Tags

/-- **A written root** begins with its start tag. -/
theorem exists_rootTag {root : Node} {name : QName} {attributes : Attributes}
    (hlabel : root.label = .element name attributes) (space : String) :
    ∃ closed rest, writeRoot (Prefixes.held space) root
      = rootTagText space (assign (Prefixes.held space) root) name attributes closed ++ rest := by
  rw [writeRoot_eq]
  generalize assign (Prefixes.held space) root = assigned
  obtain ⟨label, text, children, tail⟩ := root
  obtain rfl : label = .element name attributes := hlabel
  rw [Node.write, flatMap_writeAttribute]
  unfold rootTagText rootEntries
  rw [List.flatMap_append]
  split
  · refine ⟨true, escapeOptional tail, ?_⟩
    simp only [rawName, tagEnd, if_true, List.cons_append, List.append_assoc]
  · let nameOf := rawName (writtenTag (Prefixes.held space) assigned)
    refine ⟨false, escapeOptional text ++ (writeAll nameOf children ++ ("</".toList
      ++ (nameOf name ++ (['>'] ++ escapeOptional tail)))), ?_⟩
    simp only [nameOf, rawName, tagEnd, Bool.false_eq_true, if_false, List.cons_append,
      List.append_assoc, List.nil_append]

/-- The prefixes that a document assigns are chosen, and cover the name of its root. -/
theorem chosen_assign (space : String) (root : Node) :
    ∀ entry ∈ assign (Prefixes.held space) root,
      Chosen space (assign (Prefixes.held space) root).length entry :=
  chosen_foldl nofun

theorem covered_root {root : Node} {name : QName} {attributes : Attributes}
    (hlabel : root.label = .element name attributes) (space : String) :
    Covered space (assign (Prefixes.held space) root) name := by
  have hroot : root.label ∈ root.labels := Node.mem_labels.mpr (.inl rfl)
  refine covered_foldl (.inl (List.mem_flatMap.mpr ⟨root.label, hroot, ?_⟩))
  rw [hlabel]
  exact List.mem_cons_self ..

end Rollout.Xml
