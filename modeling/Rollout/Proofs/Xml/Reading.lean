import Rollout.Proofs.Xml.Doctype
import Rollout.Proofs.Xml.RootText

/-!
# A document and its parts

A document that is read falls into the text before its root, the text of the root and the text after
it. The parts are those between which the reader itself goes on.

- `Reading`: the steps by which a document is read.
- `nonempty_reading_iff`: a document is read when there are such steps.
- `Reading.before`, `Reading.rootText`, `Reading.after`: **the three parts** of a document.
- `Reading.before_cases`: what stands before the root of a document without a type declaration.
- `Reading.rootText_cases`: the text of the root, from its start tag to its end tag.
- `Assembled`: a document that is put together; `Assembled.readDocument?_eq`: it is read as what the
  parts of its root build.
-/

namespace Rollout.Xml

/-- The steps by which the characters of a document are read. -/
structure Reading (text : List Char) (root : Node) where
  standalone : Bool
  /-- What is left after the XML declaration. -/
  afterDeclaration : List Char
  /-- What is left after the comments and instructions behind it. -/
  afterMisc : List Char
  dtd : Dtd
  /-- What is left after the document type declaration. -/
  afterType : List Char
  /-- What is left from the root on. -/
  fromRoot : List Char
  pieces : List Piece
  /-- What is left after the root. -/
  after : List Char
  whole : List Piece
  legal : (withoutMark text).all isLegal = true
  declaration : scanDeclaration (withoutMark text) = some (standalone, afterDeclaration)
  misc : skipMisc (afterDeclaration.length + 1) afterDeclaration = some afterMisc
  doctype : scanType standalone afterMisc = some (dtd, afterType)
  moreMisc : skipMisc (afterType.length + 1) afterType = some fromRoot
  start : atStartTag fromRoot = true
  scan : scanRoot (fromRoot.length + 1) 0 fromRoot = some (pieces, after)
  expand : expandContent dtd dtd.depth pieces = some whole
  trailing : skipMisc (after.length + 1) after = some []
  build : buildTree dtd whole = some root

/-- **A document is read** by these steps. -/
theorem nonempty_reading_iff {text : String} {root : Node} :
    Nonempty (Reading text.toList root) ↔ readDocument? text = some root := by
  constructor
  · rintro ⟨r⟩
    unfold readDocument?
    have hlegal : (!(withoutMark text.toList).all isLegal) = false := by rw [r.legal]; rfl
    have hstart : (!atStartTag r.fromRoot) = false := by rw [r.start]; rfl
    simp only [hlegal, r.declaration, r.misc, r.doctype, r.moreMisc, hstart, r.scan, r.expand,
      r.trailing, r.build, Bool.false_eq_true, if_false, Option.bind_eq_bind, Option.bind_some,
      List.isEmpty_nil, Bool.not_true]
  · intro h
    unfold readDocument? at h
    dsimp only at h
    split at h
    case isTrue => cases h
    case isFalse hlegal =>
      have hlegal : (withoutMark text.toList).all isLegal = true := by simpa using hlegal
      obtain ⟨⟨standalone, afterDeclaration⟩, hdeclaration, h⟩ := Option.bind_eq_some_iff.mp h
      obtain ⟨afterMisc, hmisc, h⟩ := Option.bind_eq_some_iff.mp h
      obtain ⟨⟨dtd, afterType⟩, hdoctype, h⟩ := Option.bind_eq_some_iff.mp h
      obtain ⟨fromRoot, hmoreMisc, h⟩ := Option.bind_eq_some_iff.mp h
      dsimp only at h
      split at h
      case isTrue => cases h
      case isFalse hstart =>
        have hstart : atStartTag fromRoot = true := by simpa using hstart
        obtain ⟨⟨pieces, after⟩, hscan, h⟩ := Option.bind_eq_some_iff.mp h
        obtain ⟨whole, hexpand, h⟩ := Option.bind_eq_some_iff.mp h
        obtain ⟨rest, htrailing, h⟩ := Option.bind_eq_some_iff.mp h
        split at h
        case isTrue => cases h
        case isFalse hrest =>
          obtain rfl : rest = [] := by simpa using hrest
          exact ⟨⟨standalone, afterDeclaration, afterMisc, dtd, afterType, fromRoot, pieces, after,
            whole, hlegal, hdeclaration, hmisc, hdoctype, hmoreMisc, hstart, hscan, hexpand,
            htrailing, h⟩⟩

namespace Reading

variable {text : List Char} {root : Node} (r : Reading text root)

/-- The text before the root. -/
def before : List Char :=
  text.take (text.length - r.fromRoot.length)

/-- The text of the root. -/
def rootText : List Char :=
  r.fromRoot.take (r.fromRoot.length - r.after.length)

/-- Whether the root is a single tag. -/
def selfClosing : Bool :=
  r.pieces.length == 1

/-- Whether the document declares its type. -/
def declaresType : Bool :=
  "<!DOCTYPE".toList.isPrefixOf r.afterMisc

/-! ## Three parts -/

theorem take_append_of_suffix {cs rest : List Char} (h : rest <:+ cs) :
    cs.take (cs.length - rest.length) ++ rest = cs := by
  obtain ⟨front, rfl⟩ := h
  rw [List.length_append, Nat.add_sub_cancel, List.take_left]

theorem withoutMark_suffix (cs : List Char) : withoutMark cs <:+ cs := by
  unfold withoutMark
  split
  · split
    · exact List.suffix_cons ..
    · exact List.suffix_refl _
  · exact List.suffix_refl _

theorem suffix_skipMisc {fuel : Nat} {cs rest : List Char} (h : skipMisc fuel cs = some rest) :
    rest <:+ cs := by
  obtain ⟨used, rfl, -⟩ := exists_misc h
  exact List.suffix_append ..

theorem suffix_scanDeclaration {cs rest : List Char} {alone : Bool}
    (h : scanDeclaration cs = some (alone, rest)) : rest <:+ cs := by
  rcases scanDeclaration_cases h with rfl | ⟨inside, rfl, -, -⟩
  · exact List.suffix_refl _
  · exact List.suffix_append ..

theorem suffix_scanType {cs rest : List Char} {alone : Bool} {dtd : Dtd}
    (h : scanType alone cs = some (dtd, rest)) : rest <:+ cs := by
  unfold scanType at h
  split at h
  case h_1 more hpre => exact (suffix_scanDoctype h).trans (suffix_of_isPrefixOf? hpre)
  case h_2 =>
    cases h
    exact List.suffix_refl _

theorem fromRoot_suffix : r.fromRoot <:+ withoutMark text := by
  have hdeclaration := suffix_scanDeclaration r.declaration
  have htype := (suffix_scanType r.doctype).trans ((suffix_skipMisc r.misc).trans hdeclaration)
  exact (suffix_skipMisc r.moreMisc).trans htype

/-- The text is the part before the root and what is left from the root on. -/
theorem before_append : r.before ++ r.fromRoot = text :=
  take_append_of_suffix (r.fromRoot_suffix.trans (withoutMark_suffix text))

/-- **The text of the root** is a tag that is closed at once, or it goes from a start tag to an end
tag of the same name. -/
theorem rootText_cases : ∃ tag text, Spelled (.start tag) text ∧
    (tag.closed = true ∧ r.pieces = [.start tag] ∧ r.fromRoot = text ++ r.after ∨
      tag.closed = false ∧ r.pieces.length ≠ 1 ∧ ∃ front ending,
        r.fromRoot = text ++ front ++ ending ++ r.after ∧ Spelled (.finish tag.name) ending) := by
  obtain ⟨tag, text, hspelled, hcases⟩ := scanRoot_cases r.start r.scan
  refine ⟨tag, text, hspelled, ?_⟩
  rcases hcases with ⟨hclosed, hpieces, htext⟩ |
    ⟨hopen, front, middle, name, ending, htext, hpieces, hwithin, hending⟩
  · exact .inl ⟨hclosed, hpieces, htext⟩
  · have hlength : r.pieces.length ≠ 1 := by
      rw [hpieces]
      simp
    have hexpand := r.expand
    rw [hpieces] at hexpand
    -- scanned tags need not fit: that the last one closes the root follows
    -- from the tree being built
    have hname := finish_eq_start hopen hwithin (expands_of_expandContent hexpand) r.build
    subst hname
    exact .inr ⟨hopen, hlength, front, ending, htext, hending⟩

theorem rootText_append : r.rootText ++ r.after = r.fromRoot := by
  refine take_append_of_suffix ?_
  obtain ⟨tag, text, -, hcases⟩ := r.rootText_cases
  rcases hcases with ⟨-, -, htext⟩ | ⟨-, -, front, ending, htext, -⟩
  · rw [htext]
    exact List.suffix_append ..
  · rw [htext]
    exact List.suffix_append ..

/-- **The three parts** of a document. -/
theorem parts : text = r.before ++ r.rootText ++ r.after := by
  rw [List.append_assoc, r.rootText_append, r.before_append]

/-- A root that is a single tag has no content. -/
theorem root_of_single {tag : StartTag} (hpieces : r.pieces = [.start tag]) :
    ∃ scope label, openElement r.dtd Scope.initial tag = some (scope, label) ∧
      root = ⟨label, none, [], none⟩ := by
  have hwhole := expands_start (hpieces ▸ expands_of_expandContent r.expand)
  have hbuild := r.build
  rw [hwhole] at hbuild
  obtain ⟨growth, hgrow, hroot⟩ := Option.bind_eq_some_iff.mp hbuild
  rw [List.foldlM_cons] at hgrow
  obtain ⟨next, hnext, hlast⟩ := Option.bind_eq_some_iff.mp hgrow
  cases hlast
  obtain ⟨⟨scope, label⟩, hopened, hread⟩ := Option.bind_eq_some_iff.mp hnext
  refine ⟨scope, label, hopened, ?_⟩
  dsimp only at hread
  split at hread
  case isTrue =>
    cases hread
    exact (Option.some.inj hroot).symm
  case isFalse =>
    cases hread
    cases hroot

theorem content_of_selfClosing (h : r.selfClosing = true) :
    root.text = none ∧ root.children = [] := by
  obtain ⟨tag, opening, -, hcases⟩ := r.rootText_cases
  rcases hcases with ⟨-, hpieces, -⟩ | ⟨-, hlength, -⟩
  · obtain ⟨scope, label, -, rfl⟩ := r.root_of_single hpieces
    exact ⟨rfl, rfl⟩
  · exact absurd (beq_iff_eq.mp h) hlength

/-! ## Without a type declaration -/

theorem scanType_of_not_declares {alone : Bool} {cs : List Char}
    (h : "<!DOCTYPE".toList.isPrefixOf cs = false) : scanType alone cs = some (Dtd.empty, cs) := by
  unfold scanType
  split
  case h_1 more hpre =>
    have hfound : "<!DOCTYPE".toList <+: cs :=
      ⟨more, List.isPrefixOf?_eq_some_iff_append_eq.mp hpre⟩
    rw [List.isPrefixOf_iff_prefix.mpr hfound] at h
    cases h
  case h_2 => rfl

theorem dtd_eq_empty (h : r.declaresType = false) :
    r.dtd = Dtd.empty ∧ r.afterType = r.afterMisc := by
  have htype := r.doctype
  rw [scanType_of_not_declares h] at htype
  have heq := Option.some.inj htype
  exact ⟨(congrArg Prod.fst heq).symm, (congrArg Prod.snd heq).symm⟩

/-- **Before the root** of a document without a type declaration there is an XML declaration, or
none, and then comments, instructions and white space. -/
theorem before_cases (hmark : withoutMark text = text) (htype : r.declaresType = false) :
    ∃ declaration misc, r.before = declaration ++ misc ∧ Misc misc ∧
      (declaration = [] ∨ ∃ inside, declaration = "<?xml".toList ++ inside ++ ['?', '>'] ∧
        Unmarked ['?', '>'] inside ∧
        ∀ rest, scanDeclaration (declaration ++ rest) = some (r.standalone, rest)) := by
  obtain ⟨first, hfirst, hmisc⟩ := exists_misc r.misc
  obtain ⟨second, hsecond, hmoreMisc⟩ := exists_misc r.moreMisc
  rw [(r.dtd_eq_empty htype).2] at hsecond
  have hdeclaration := r.declaration
  rw [hmark] at hdeclaration
  -- what stands before the root is whatever the rest of the text is put behind
  have hbefore : ∀ front, text = front ++ (first ++ second) ++ r.fromRoot →
      r.before = front ++ (first ++ second) :=
    fun front heq => List.append_cancel_right (r.before_append.trans heq)
  rcases scanDeclaration_cases hdeclaration with hnone | ⟨inside, hinside, hunmarked, hscan⟩
  · refine ⟨[], first ++ second, ?_, hmisc.append hmoreMisc, .inl rfl⟩
    refine hbefore [] (hnone.symm.trans ?_)
    rw [hfirst, hsecond]
    simp only [List.nil_append, List.append_assoc]
  · refine ⟨_, first ++ second, ?_, hmisc.append hmoreMisc, .inr ⟨inside, rfl, hunmarked, hscan⟩⟩
    refine hbefore _ (hinside.trans ?_)
    rw [hfirst, hsecond]
    simp only [List.append_assoc]

/-- No type declaration begins where a root begins. -/
theorem not_doctype_of_atStartTag {cs : List Char} (h : atStartTag cs = true) :
    "<!DOCTYPE".toList.isPrefixOf cs = false := by
  obtain ⟨c, more, rfl, hc⟩ := atStartTag_iff.mp h
  rw [Bool.eq_false_iff]
  intro hpre
  obtain ⟨rest, heq⟩ := List.isPrefixOf_iff_prefix.mp hpre
  have hbang : '!' = c := (List.cons.inj (List.cons.inj heq).2).1
  exact (ne_of_isNameStart hc).1 hbang.symm

end Reading

/-! ## Documents that are put together -/

/-- A document that is put together from what stands before a root, what is left from the root on
and what stands after it, with the parts of the root. -/
structure Assembled (before fromRoot after : List Char) (pieces : List Piece) : Prop where
  legal : Legal (before ++ fromRoot)
  unmarked : withoutMark (before ++ fromRoot) = before ++ fromRoot
  declaration : ∃ alone misc, Misc misc ∧
    scanDeclaration (before ++ fromRoot) = some (alone, misc ++ fromRoot)
  start : atStartTag fromRoot = true
  scan : scanRoot (fromRoot.length + 1) 0 fromRoot = some (pieces, after)
  expand : expandContent Dtd.empty Dtd.empty.depth pieces = some pieces
  trailing : skipMisc (after.length + 1) after = some []

section Assembled

variable {before fromRoot after : List Char} {pieces : List Piece}

theorem skipMisc_misc {misc : List Char} (hmisc : Misc misc) (hstart : atStartTag fromRoot = true) :
    skipMisc ((misc ++ fromRoot).length + 1) (misc ++ fromRoot) = some fromRoot :=
  skipMisc_append hmisc (skipMisc_of_atStartTag hstart) _ (by rw [List.length_append]; omega)

/-- **Such a document** is read as what the parts of its root build. -/
theorem Assembled.readDocument?_eq (h : Assembled before fromRoot after pieces) :
    readDocument? (String.ofList (before ++ fromRoot)) = buildTree Dtd.empty pieces := by
  obtain ⟨alone, misc, hmisc, hdeclaration⟩ := h.declaration
  have hall : (before ++ fromRoot).all isLegal = true := List.all_eq_true.mpr h.legal
  have hskip := skipMisc_misc hmisc h.start
  have htype : scanType alone fromRoot = some (Dtd.empty, fromRoot) :=
    Reading.scanType_of_not_declares (Reading.not_doctype_of_atStartTag h.start)
  have hagain := skipMisc_of_atStartTag h.start fromRoot.length
  unfold readDocument?
  rw [String.toList_ofList, h.unmarked]
  simp only [hall, hdeclaration, hskip, htype, hagain, h.start, h.scan, h.expand, h.trailing,
    Bool.not_true, Bool.false_eq_true, if_false, Option.bind_eq_bind, Option.bind_some,
    List.isEmpty_nil]

/-- The steps by which it is read. -/
theorem Assembled.exists_reading (h : Assembled before fromRoot after pieces) {root : Node}
    (hbuild : buildTree Dtd.empty pieces = some root) :
    ∃ r : Reading (before ++ fromRoot) root, r.fromRoot = fromRoot ∧ r.after = after := by
  obtain ⟨alone, misc, hmisc, hdeclaration⟩ := h.declaration
  have hnoType := Reading.not_doctype_of_atStartTag h.start
  refine ⟨⟨alone, misc ++ fromRoot, fromRoot, Dtd.empty, fromRoot, fromRoot, pieces, after, pieces,
    ?_, ?_, skipMisc_misc hmisc h.start, Reading.scanType_of_not_declares hnoType,
    skipMisc_of_atStartTag h.start _, h.start, h.scan, h.expand, h.trailing, hbuild⟩, rfl, rfl⟩
  · rw [h.unmarked]
    exact List.all_eq_true.mpr h.legal
  · rw [h.unmarked]
    exact hdeclaration

end Assembled

end Rollout.Xml
