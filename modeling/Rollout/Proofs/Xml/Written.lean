import Mathlib.Data.List.Nodup
import Rollout.Proofs.Xml.Escapes
import Rollout.Proofs.Xml.Sound

/-!
# Markup that is written

What the writer puts down for one tag, comment or instruction, the reader scans as such, and a
start tag opens the element it was written for.

- `scanPiece_start`, `scanPiece_finish`, `scanPiece_comment`, `scanPiece_instruction`: the parts of
  the content as they are written.
- `Resolves`: the names of an element are found again in a scope.
- `openElement_written`: **a start tag** opens its element.
-/

namespace Rollout.Xml

/-! ## Tags -/

/-- An attribute as it is written. -/
def entryText (entry : TagName × String) : List Char :=
  ' ' :: entry.1.raw ++ '=' :: quotedValue entry.2

/-- An attribute with its value as it is written. -/
def escapedEntry (entry : TagName × String) : TagName × List Char :=
  (entry.1, escapeAttribute entry.2)

/-- The end of a start tag. -/
def tagEnd (closed : Bool) : List Char :=
  if closed then " />".toList else ['>']

/-- A name begins with no white space and with no mark of a tag's end. -/
theorem IsTagName.head_raw {tag : TagName} (h : IsTagName tag) :
    ∃ c more, tag.raw = c :: more ∧ isSpace c = false ∧ c ≠ '>' ∧ c ≠ '/' ∧ c ≠ '?' ∧ c ≠ '!' := by
  obtain ⟨c, more, hraw, hc⟩ := h.exists_raw
  obtain ⟨hbang, hquery, hslash⟩ := ne_of_isNameStart hc
  have hspace := not_isSpace_of_isNameChar (isNameChar_of_isNameStart hc)
  exact ⟨c, more, hraw, hspace, ne_of_class hc (by decide +kernel), hslash, hquery, hbang⟩

theorem skipSpace_cons {c : Char} (hc : isSpace c = false) (cs : List Char) :
    skipSpace (c :: cs) = c :: cs :=
  List.dropWhile_cons_of_neg (Bool.eq_false_iff.mp hc)

/-- An attribute is scanned as it was written. -/
theorem scanAttribute_written {entry : TagName × String} (h : IsTagName entry.1)
    (rest : List Char) :
    scanAttribute (entry.1.raw ++ ('=' :: quotedValue entry.2 ++ rest))
      = some (escapedEntry entry, rest) := by
  have hname : scanTagName (entry.1.raw ++ ('=' :: quotedValue entry.2 ++ rest))
      = some (entry.1, '=' :: (quotedValue entry.2 ++ rest)) :=
    scanTagName_raw h (stopsAt_cons.mpr (by decide +kernel))
  have hunmarked : Unmarked ['"'] (escapeAttribute entry.2) := by
    have hfree : ∀ c ∈ escapeAttribute entry.2, ['"'].head? ≠ some c := by
      rintro c hc ⟨⟩
      exact not_mem_escapeAttribute entry.2 hc
    have hnil := (Unmarked.nil ['"']).append_front (List.cons_ne_nil _ _) hfree
    rwa [List.append_nil] at hnil
  have hvalue : scanQuoted (quotedValue entry.2 ++ rest)
      = some (escapeAttribute entry.2, rest) := by
    show splitAt? ['"'] (escapeAttribute entry.2 ++ ['"'] ++ rest) = _
    exact (splitAt?_eq_some (List.cons_ne_nil _ _)).mpr ⟨rfl, hunmarked⟩
  unfold scanAttribute
  rw [hname]
  show Option.bind (scanQuoted (skipSpace (quotedValue entry.2 ++ rest))) _ = _
  have hspace : skipSpace (quotedValue entry.2 ++ rest) = quotedValue entry.2 ++ rest :=
    skipSpace_cons (by decide) _
  rw [hspace, hvalue]
  rfl

/-- The attributes of a start tag are scanned as they were written. -/
theorem scanAttributes_written (closed : Bool) (rest : List Char) :
    ∀ {entries : List (TagName × String)}, (∀ entry ∈ entries, IsTagName entry.1) →
      ∀ fuel, entries.length < fuel →
        scanAttributes fuel (entries.flatMap entryText ++ (tagEnd closed ++ rest))
          = some ((entries.map escapedEntry, closed), rest)
  | [], _, 0, hfuel => absurd hfuel (Nat.lt_irrefl 0)
  | [], _, fuel + 1, _ => by cases closed <;> rfl
  | _ :: _, _, 0, hfuel => absurd hfuel (Nat.not_lt_zero _)
  | entry :: entries, hentries, fuel + 1, hfuel => by
    obtain ⟨hentry, hothers⟩ := List.forall_mem_cons.mp hentries
    have ih := scanAttributes_written closed rest hothers fuel (Nat.lt_of_succ_lt_succ hfuel)
    generalize hmore : entries.flatMap entryText ++ (tagEnd closed ++ rest) = more at ih
    have htext : (entry :: entries).flatMap entryText ++ (tagEnd closed ++ rest)
        = ' ' :: (entry.1.raw ++ ('=' :: quotedValue entry.2 ++ more)) := by
      rw [List.flatMap_cons, List.append_assoc, hmore]
      unfold entryText
      simp only [List.cons_append, List.append_assoc]
    have hscan := scanAttribute_written hentry more
    obtain ⟨c, name, hraw, hspace, hend, hslash, -⟩ := hentry.head_raw
    have hskip : skipSpace (' ' :: (entry.1.raw ++ ('=' :: quotedValue entry.2 ++ more)))
        = entry.1.raw ++ ('=' :: quotedValue entry.2 ++ more) := by
      rw [hraw]
      exact skipSpace_cons hspace _
    -- the name behind the space ends no tag
    rw [htext, scanAttributes, if_pos (by decide), hskip]
    · split
      case h_1 heq =>
        rw [hraw] at heq
        exact absurd (List.cons.inj heq).1 hend
      case h_2 heq =>
        rw [hraw] at heq
        exact absurd (List.cons.inj heq).1 hslash
      case h_3 =>
        rw [hscan]
        show Option.bind (scanAttributes fuel more) _ = _
        rw [ih]
        rfl
    · exact fun heq => absurd heq (by decide)
    · exact fun more heq => absurd heq (by decide)

theorem length_le_flatMap_entryText (entries : List (TagName × String)) :
    entries.length ≤ (entries.flatMap entryText).length := by
  induction entries with
  | nil => exact Nat.le_refl _
  | cons entry entries ih =>
    rw [List.flatMap_cons, List.length_append, List.length_cons]
    have hentry : 0 < (entryText entry).length := by
      unfold entryText
      simp
    omega

/-- **A start tag** is scanned as it was written. -/
theorem scanPiece_start {tag : TagName} (htag : IsTagName tag)
    {entries : List (TagName × String)} (hentries : ∀ entry ∈ entries, IsTagName entry.1)
    (closed : Bool) (rest : List Char) :
    scanPiece ('<' :: (tag.raw ++ (entries.flatMap entryText ++ (tagEnd closed ++ rest))))
      = some (.start ⟨tag, entries.map escapedEntry, closed⟩, rest) := by
  have hstop : StopsAt isTagNameChar (entries.flatMap entryText ++ (tagEnd closed ++ rest)) := by
    cases entries with
    | nil => cases closed <;> exact stopsAt_cons.mpr (by decide +kernel)
    | cons entry entries => exact stopsAt_cons.mpr (by decide +kernel)
  have hfuel : entries.length
      < (entries.flatMap entryText ++ (tagEnd closed ++ rest)).length + 1 := by
    have hle := length_le_flatMap_entryText entries
    rw [List.length_append]
    omega
  have hname := scanTagName_raw htag hstop
  have hattributes := scanAttributes_written closed rest hentries _ hfuel
  have htagText : scanStartTag (tag.raw ++ (entries.flatMap entryText ++ (tagEnd closed ++ rest)))
      = some (⟨tag, entries.map escapedEntry, closed⟩, rest) := by
    unfold scanStartTag
    rw [hname]
    show Option.bind (scanAttributes _ _) _ = _
    rw [hattributes]
    rfl
  obtain ⟨c, name, hraw, -, -, hslash, hquery, hbang⟩ := htag.head_raw
  show scanMarkup _ = _
  unfold scanMarkup
  split
  case h_1 heq =>
    rw [hraw] at heq
    exact absurd (List.cons.inj heq).1 hslash
  case h_2 heq =>
    rw [hraw] at heq
    exact absurd (List.cons.inj heq).1 hquery
  case h_3 heq =>
    rw [hraw] at heq
    exact absurd (List.cons.inj heq).1 hbang
  case h_4 =>
    rw [htagText]
    rfl

/-- **An end tag** is scanned as it was written. -/
theorem scanPiece_finish {tag : TagName} (htag : IsTagName tag) (rest : List Char) :
    scanPiece ('<' :: '/' :: (tag.raw ++ '>' :: rest)) = some (.finish tag, rest) := by
  have hname : scanTagName (tag.raw ++ '>' :: rest) = some (tag, '>' :: rest) :=
    scanTagName_raw htag (stopsAt_cons.mpr (by decide +kernel))
  show Option.map _ (scanEndTag (tag.raw ++ '>' :: rest)) = _
  unfold scanEndTag
  rw [hname]
  rfl

/-! ## Comments and instructions -/

/-- **A comment** is scanned as it was written. -/
theorem scanPiece_comment {cs : List Char} (h : SoundComment cs) (rest : List Char) :
    scanPiece ("<!--".toList ++ cs ++ "-->".toList ++ rest) = some (.comment cs, rest) := by
  have hscan : scanComment (cs ++ ['-', '-'] ++ '>' :: rest) = some (cs, rest) :=
    scanComment_eq_some.mpr ⟨cs, rfl, h.unmarked, (unifyNewlineChars_of_not_mem h.unified).symm⟩
  have htext : "<!--".toList ++ cs ++ "-->".toList ++ rest
      = '<' :: '!' :: '-' :: '-' :: (cs ++ ['-', '-'] ++ '>' :: rest) := by simp
  rw [htext]
  show Option.map _ (scanComment (cs ++ ['-', '-'] ++ '>' :: rest)) = _
  rw [hscan]
  rfl

/-- **A processing instruction** is scanned as it was written. -/
theorem scanPiece_instruction {target data : List Char} (h : SoundInstruction target data)
    (rest : List Char) :
    scanPiece ("<?".toList ++ instructionText target data ++ "?>".toList ++ rest)
      = some (.instruction target data, rest) := by
  -- the space before the data is the only white space there
  obtain ⟨raw, hraw, hfirst, hunmarked, hdata⟩ : ∃ raw,
      instructionText target data = target ++ raw ∧
      SpaceFirst raw ∧ Unmarked ['?', '>'] raw ∧ skipSpace raw = data := by
    unfold instructionText
    split
    case isTrue hempty =>
      obtain rfl : data = [] := List.isEmpty_iff.mp hempty
      exact ⟨[], (List.append_nil _).symm, (fun _ hc => nomatch hc), Unmarked.nil _, rfl⟩
    case isFalse =>
      have hspace : Unmarked ['?', '>'] ([' '] ++ data) :=
        h.unmarked.append_front (List.cons_ne_nil _ _) (by simp)
      refine ⟨' ' :: data, rfl, ?_, hspace, ?_⟩
      · rintro _ ⟨⟩
        decide
      · show skipSpace data = data
        cases data with
        | nil => rfl
        | cons c data => exact skipSpace_cons (stopsAt_cons.mp h.first) data
  have hscan : scanInstruction (target ++ (raw ++ ['?', '>'] ++ rest))
      = some ((target, data), rest) :=
    scanInstruction_eq_some.mpr ⟨raw, rfl, h.isName, h.free, hfirst, hunmarked, by
      rw [hdata, unifyNewlineChars_of_not_mem h.unified]⟩
  have htext : "<?".toList ++ instructionText target data ++ "?>".toList ++ rest
      = '<' :: '?' :: (target ++ (raw ++ ['?', '>'] ++ rest)) := by
    rw [hraw]
    simp
  rw [htext]
  show Option.map _ (scanInstruction (target ++ (raw ++ ['?', '>'] ++ rest))) = _
  rw [hscan]
  rfl

/-! ## Elements -/

/-- The names of an element stand for the same names when they are read in the scope. -/
structure Resolves (scope : Scope) (tagOf : QName → TagName) (name : QName)
    (attributes : Attributes) : Prop where
  isTag : IsTagName (tagOf name)
  element : scope.elementName (tagOf name) = some name
  entries : ∀ entry ∈ attributes, IsTagName (tagOf entry.1) ∧
    declaredPrefix? (tagOf entry.1) = none ∧ scope.attributeName (tagOf entry.1) = some entry.1

/-- The attributes of an element with their names as they are written. -/
def writtenEntries (tagOf : QName → TagName) (attributes : Attributes) : List (TagName × String) :=
  attributes.map fun entry => (tagOf entry.1, entry.2)

section Resolves

variable {scope : Scope} {tagOf : QName → TagName} {name : QName} {attributes : Attributes}

theorem Resolves.isTagName (h : Resolves scope tagOf name attributes) :
    ∀ entry ∈ writtenEntries tagOf attributes, IsTagName entry.1 := by
  intro entry hentry
  obtain ⟨original, horiginal, rfl⟩ := List.mem_map.mp hentry
  exact (h.entries original horiginal).1

theorem Resolves.not_declares (h : Resolves scope tagOf name attributes) :
    ∀ entry ∈ writtenEntries tagOf attributes, declaredPrefix? entry.1 = none := by
  intro entry hentry
  obtain ⟨original, horiginal, rfl⟩ := List.mem_map.mp hentry
  exact (h.entries original horiginal).2.1

/-- A name that is written twice would be read twice. -/
theorem Resolves.nodup (h : Resolves scope tagOf name attributes)
    (hnodup : (attributes.map Prod.fst).Nodup) :
    ((writtenEntries tagOf attributes).map Prod.fst).Nodup := by
  have hmap : (writtenEntries tagOf attributes).map Prod.fst
      = (attributes.map Prod.fst).map tagOf := by
    unfold writtenEntries
    rw [List.map_map, List.map_map]
    rfl
  rw [hmap]
  refine List.Nodup.map_on ?_ hnodup
  intro a ha b hb heq
  obtain ⟨first, hfirst, rfl⟩ := List.mem_map.mp ha
  obtain ⟨second, hsecond, rfl⟩ := List.mem_map.mp hb
  have hread := (h.entries first hfirst).2.2
  rw [heq, (h.entries second hsecond).2.2] at hread
  exact (Option.some.inj hread).symm

/-- The attributes are found again. -/
theorem Resolves.mapM_resolve (h : Resolves scope tagOf name attributes) :
    (writtenEntries tagOf attributes).mapM scope.resolve = some attributes := by
  rw [mapM_eq_some_iff]
  unfold writtenEntries
  rw [List.map_map]
  refine List.map_congr_left fun entry hentry => ?_
  show Option.map _ (scope.attributeName (tagOf entry.1)) = _
  rw [(h.entries entry hentry).2.2]
  rfl

end Resolves

theorem attributeValues_written (tag : TagName) (entries : List (TagName × String))
    (closed : Bool) :
    attributeValues Dtd.empty ⟨tag, entries.map escapedEntry, closed⟩ = some entries := by
  rw [attributeValues_empty, mapM_eq_some_iff, List.map_map]
  refine List.map_congr_left fun entry _ => ?_
  show Option.map _ (normalizeValue Dtd.empty true (escapeAttribute entry.2)) = _
  rw [normalizeValue_escapeAttribute]
  rfl

theorem declareAll_of_none {entries : List (TagName × String)}
    (h : ∀ entry ∈ entries, declaredPrefix? entry.1 = none) (scope : Scope) :
    entries.foldlM Scope.declare scope = some scope := by
  induction entries with
  | nil => rfl
  | cons entry entries ih =>
    obtain ⟨hfirst, hothers⟩ := List.forall_mem_cons.mp h
    have hdeclare : scope.declare entry = some scope := by
      unfold Scope.declare
      rw [hfirst]
    rw [List.foldlM_cons, hdeclare]
    exact ih hothers

/-- **A start tag** opens the element it was written for, in the scope of its declarations. -/
theorem openElement_written {scope scope' : Scope} {tagOf : QName → TagName} {name : QName}
    {attributes : Attributes} {declarations : List (TagName × String)} (closed : Bool)
    (hdeclarations : ∀ entry ∈ declarations, (declaredPrefix? entry.1).isSome = true)
    (hdistinct : (declarations.map Prod.fst).Nodup)
    (hscope : declarations.foldlM Scope.declare scope = some scope')
    (hresolves : Resolves scope' tagOf name attributes) (hnodup : (attributes.map Prod.fst).Nodup) :
    openElement Dtd.empty scope
      ⟨tagOf name, (declarations ++ writtenEntries tagOf attributes).map escapedEntry, closed⟩
      = some (scope', .element name attributes) := by
  have hwritten := hresolves.not_declares
  refine openElement_eq_some.mpr ⟨_, attributes, name, attributeValues_written _ _ _, ?_, ?_, ?_,
    hnodup, hresolves.element, rfl⟩
  · have hnames : ∀ entries : List (TagName × String),
        (entries.map escapedEntry).map Prod.fst = entries.map Prod.fst := fun entries => by
      rw [List.map_map]
      rfl
    rw [hnames, List.map_append]
    refine List.nodup_append.mpr ⟨hdistinct, hresolves.nodup hnodup, ?_⟩
    -- a declaration is no attribute
    intro a ha b hb heq
    obtain ⟨declared, hdeclared, rfl⟩ := List.mem_map.mp ha
    obtain ⟨plain, hplain, rfl⟩ := List.mem_map.mp hb
    have hsome := hdeclarations declared hdeclared
    rw [heq, hwritten plain hplain] at hsome
    cases hsome
  · rw [List.foldlM_append, hscope]
    exact declareAll_of_none hwritten scope'
  · have hdeclared : declarations.filter (fun entry => (declaredPrefix? entry.1).isNone) = [] :=
      List.filter_eq_nil_iff.mpr fun entry hentry => by
        have hsome := hdeclarations entry hentry
        rw [Option.isNone_iff_eq_none]
        exact Option.isSome_iff_ne_none.mp hsome
    have hplain : (writtenEntries tagOf attributes).filter
        (fun entry => (declaredPrefix? entry.1).isNone) = writtenEntries tagOf attributes :=
      List.filter_eq_self.mpr fun entry hentry => by rw [hwritten entry hentry]; rfl
    rw [List.filter_append, hdeclared, hplain, List.nil_append]
    exact hresolves.mapM_resolve

end Rollout.Xml
