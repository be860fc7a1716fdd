import Rollout.Proofs.Xml.Values
import Rollout.Xml.Dtd
import Rollout.Xml.Printer

/-!
# Escapes

A character is written as itself or as a reference to it, so that the reader finds the same
characters again.

- `Refers`: a reference to a character, wherever it stands.
- `escapeChar_cases`, `escapeAttributeChar_cases`: how one character is written.
- `normalizeValue_escapeAttribute`: **a value** is read as it was before it was escaped.
- `scanPiece_refers`, `scanPiece_run`: the parts of escaped text.
-/

namespace Rollout.Xml

/-! ## References -/

/-- The text is a reference to the character, whatever follows. -/
def Refers (text : List Char) (c : Char) : Prop :=
  ∃ body, text = '&' :: body ∧ ∀ rest, scanReference (body ++ rest) = some (.char c, rest)

/-- A reference by a predefined name. -/
theorem refers_named (name : List Char) {c : Char} (hname : IsName name)
    (hc : predefined? name = some c) : Refers ('&' :: (name ++ [';'])) c := by
  refine ⟨name ++ [';'], rfl, fun rest => ?_⟩
  have hscan : scanName (name ++ ';' :: rest) = some (name, ';' :: rest) :=
    scanName_eq_some.mpr ⟨rfl, hname, stopsAt_cons.mpr (by decide +kernel)⟩
  have hhash : ∀ more, name ++ ';' :: rest ≠ '#' :: more := by
    intro more heq
    obtain ⟨d, others, rfl, hd, -⟩ := hname
    obtain rfl := (List.cons.inj heq).1
    exact absurd hd (by decide +kernel)
  rw [List.append_assoc, List.singleton_append]
  unfold scanReference
  split
  case h_1 heq => exact absurd heq (hhash _)
  case h_2 heq => exact absurd heq (hhash _)
  case h_3 =>
    rw [hscan, Option.bind_eq_bind, Option.bind_some]
    dsimp only
    rw [hc]
    rfl

/-- **A character of text** is written as a reference to it, or as itself when it begins no markup
and ends none. -/
theorem escapeChar_cases (c : Char) :
    Refers (escapeChar c) c ∨ escapeChar c = [c] ∧ c ≠ '&' ∧ c ≠ '<' ∧ c ≠ '>' := by
  by_cases hamp : c = '&'
  · subst hamp
    exact .inl (refers_named "amp".toList (by decide +kernel) rfl)
  by_cases hlt : c = '<'
  · subst hlt
    exact .inl (refers_named "lt".toList (by decide +kernel) rfl)
  by_cases hgt : c = '>'
  · subst hgt
    exact .inl (refers_named "gt".toList (by decide +kernel) rfl)
  refine .inr ⟨?_, hamp, hlt, hgt⟩
  unfold escapeChar
  simp only [beq_iff_eq, hamp, hlt, hgt, if_false]

/-- **A character of a value** is written as a reference to it, or as itself when a value can hold
it as it is. -/
theorem escapeAttributeChar_cases (c : Char) :
    Refers (escapeAttributeChar c) c ∨
      escapeAttributeChar c = [c] ∧
        c ≠ '&' ∧ c ≠ '<' ∧ c ≠ '"' ∧ c ≠ '\r' ∧ c ≠ '\n' ∧ c ≠ '\t' := by
  by_cases hquote : c = '"'
  · subst hquote
    exact .inl (refers_named "quot".toList (by decide +kernel) rfl)
  by_cases hreturn : c = '\r'
  · subst hreturn
    exact .inl ⟨"#13;".toList, rfl, fun rest => rfl⟩
  by_cases hfeed : c = '\n'
  · subst hfeed
    exact .inl ⟨"#10;".toList, rfl, fun rest => rfl⟩
  by_cases htab : c = '\t'
  · subst htab
    exact .inl ⟨"#09;".toList, rfl, fun rest => rfl⟩
  have hescape : escapeAttributeChar c = escapeChar c := by
    unfold escapeAttributeChar
    simp only [beq_iff_eq, hquote, hreturn, hfeed, htab, if_false]
  rw [hescape]
  rcases escapeChar_cases c with hrefers | ⟨hself, hamp, hlt, -⟩
  · exact .inl hrefers
  · exact .inr ⟨hself, hamp, hlt, hquote, hreturn, hfeed, htab⟩

/-! ## Values -/

/-- The parts of an escaped value are its characters. -/
theorem valuePieces_escapeAttribute : ∀ (cs : List Char) (fuel : Nat),
    (cs.flatMap escapeAttributeChar).length ≤ fuel →
      valuePieces fuel (cs.flatMap escapeAttributeChar) = some (cs.map .char)
  | [], fuel, _ => by cases fuel <;> rfl
  | c :: cs, fuel, hfuel => by
    rw [List.flatMap_cons, List.length_append] at hfuel
    rw [List.flatMap_cons]
    rcases escapeAttributeChar_cases c with ⟨body, htext, hscan⟩ |
      ⟨htext, hamp, hlt, -, hreturn, hfeed, htab⟩
    · rw [htext, List.length_cons] at hfuel
      obtain ⟨fuel, rfl⟩ := Nat.exists_eq_add_one_of_ne_zero (n := fuel) (by omega)
      have ih := valuePieces_escapeAttribute cs fuel (by omega)
      rw [htext, List.cons_append]
      unfold valuePieces
      simp only [hscan, ih]
      rfl
    · rw [htext, List.length_singleton] at hfuel
      obtain ⟨fuel, rfl⟩ := Nat.exists_eq_add_one_of_ne_zero (n := fuel) (by omega)
      have ih := valuePieces_escapeAttribute cs fuel (by omega)
      rw [htext, List.singleton_append]
      unfold valuePieces
      -- a space is white space too, and stands for itself
      by_cases hspace : c = ' '
      · subst hspace
        rw [ih]
        rfl
      · have hblank : isSpace c = false := by
          unfold isSpace
          simp only [Bool.or_eq_false_iff, beq_eq_false_iff_ne]
          exact ⟨⟨⟨hspace, htab⟩, hfeed⟩, hreturn⟩
        simp only [beq_iff_eq, hamp, hlt, hreturn, if_false, hblank, ih, Bool.false_eq_true]
        rfl

/-- **A value** is read as it was before it was escaped. -/
theorem normalizeValue_escapeAttribute (value : String) :
    normalizeValue Dtd.empty true (escapeAttribute value) = some value := by
  have hpieces := valuePieces_escapeAttribute value.toList _ (Nat.le_refl _)
  have hparts : ∀ {f : ValuePiece → Option (List Char)}, (∀ c, f (.char c) = some [c]) →
      ∀ cs : List Char, (cs.map ValuePiece.char).mapM f = some (cs.map fun c => [c]) := by
    intro f hf cs
    rw [mapM_eq_some_iff, List.map_map, List.map_map]
    exact List.map_congr_left fun c _ => hf c
  have hexpand : expandValue Dtd.empty 1 (escapeAttribute value) = some value.toList := by
    rw [expandValue]
    unfold escapeAttribute
    rw [hpieces]
    show Option.bind (List.mapM _ _) _ = _
    rw [hparts fun c => rfl]
    show some (value.toList.map fun c => [c]).flatten = _
    rw [← List.flatMap_def, List.flatMap_singleton']
  show Option.map _ (expandValue Dtd.empty 1 (escapeAttribute value)) = _
  rw [hexpand]
  exact congrArg some String.ofList_toList

/-! ## Characters of escapes -/

/-- The characters of the references that are written. -/
def referenceChars : List Char :=
  "&#;0139agltmpquo".toList

theorem mem_escapeChar {c d : Char} (h : d ∈ escapeChar c) : d = c ∨ d ∈ referenceChars := by
  have hmarks : ∀ text ∈ ["&amp;".toList, "&lt;".toList, "&gt;".toList],
      text ⊆ referenceChars := by decide
  unfold escapeChar at h
  split at h
  · exact .inr (hmarks _ (by simp) h)
  · split at h
    · exact .inr (hmarks _ (by simp) h)
    · split at h
      · exact .inr (hmarks _ (by simp) h)
      · exact .inl (List.mem_singleton.mp h)

/-- What is written for a character of a value is the character, unless it is the quote, or belongs
to a reference. -/
theorem mem_escapeAttributeChar {c d : Char} (h : d ∈ escapeAttributeChar c) :
    d = c ∧ c ≠ '"' ∨ d ∈ referenceChars := by
  have hmarks : ∀ text ∈ ["&quot;".toList, "&#13;".toList, "&#10;".toList, "&#09;".toList],
      text ⊆ referenceChars := by decide
  unfold escapeAttributeChar at h
  split at h
  · exact .inr (hmarks _ (by simp) h)
  case isFalse hquote =>
    split at h
    · exact .inr (hmarks _ (by simp) h)
    · split at h
      · exact .inr (hmarks _ (by simp) h)
      · split at h
        · exact .inr (hmarks _ (by simp) h)
        · exact (mem_escapeChar h).imp_left fun heq => ⟨heq, by simpa using hquote⟩

/-- A value that is written does not end at a quote of its own. -/
theorem not_mem_escapeAttribute (value : String) : '"' ∉ escapeAttribute value := by
  intro hmem
  obtain ⟨c, -, hc⟩ := List.mem_flatMap.mp hmem
  rcases mem_escapeAttributeChar hc with ⟨heq, hne⟩ | hreference
  · exact hne heq.symm
  · exact absurd hreference (by decide)

theorem legal_referenceChars : Legal referenceChars := by decide

theorem legal_escapeText {text : String} (h : Legal text.toList) : Legal (escapeText text) := by
  intro d hd
  obtain ⟨c, hc, hd⟩ := List.mem_flatMap.mp hd
  rcases mem_escapeChar hd with rfl | hreference
  · exact h d hc
  · exact legal_referenceChars d hreference

theorem legal_escapeAttribute {value : String} (h : Legal value.toList) :
    Legal (escapeAttribute value) := by
  intro d hd
  obtain ⟨c, hc, hd⟩ := List.mem_flatMap.mp hd
  rcases mem_escapeAttributeChar hd with ⟨rfl, -⟩ | hreference
  · exact h d hc
  · exact legal_referenceChars d hreference

/-! ## Text -/

/-- A reference in the content is a text of one character. -/
theorem scanPiece_refers {text : List Char} {c : Char} (h : Refers text c) (rest : List Char) :
    scanPiece (text ++ rest) = some (.text [c], rest) := by
  obtain ⟨body, rfl, hscan⟩ := h
  show scanPiece ('&' :: (body ++ rest)) = _
  rw [scanPiece, hscan]

/-- A run of plain characters in the content is a text, whose line ends are unified. -/
theorem scanPiece_run {run rest : List Char} (hne : run ≠ [])
    (hrun : ∀ c ∈ run, c ≠ '&' ∧ c ≠ '<' ∧ c ≠ '>') (hstop : StopsAt isPlain rest) :
    scanPiece (run ++ rest) = some (.text (Text.unifyNewlineChars run), rest) := by
  obtain ⟨c, more, rfl⟩ := List.exists_cons_of_ne_nil hne
  have hplain : ∀ d ∈ c :: more, isPlain d = true := by
    intro d hd
    obtain ⟨hamp, hlt, -⟩ := hrun d hd
    unfold isPlain
    simp only [Bool.and_eq_true, bne_iff_ne]
    exact ⟨hlt, hamp⟩
  -- the end of a data section would hold the mark that is always escaped
  have hoccurs : Text.occurs "]]>".toList (c :: more) = false := by
    unfold Text.occurs
    cases hlast : Text.lastFrom? "]]>".toList (c :: more) with
    | none => rfl
    | some found =>
      obtain ⟨front, heq, after, rfl⟩ := lastFrom?_eq_some hlast
      have hmem : '>' ∈ c :: more := by
        rw [heq]
        simp
      exact absurd rfl (hrun '>' hmem).2.2
  obtain ⟨hc, hmore⟩ := List.forall_mem_cons.mp hplain
  exact (scanPiece_plain_iff hc).mpr ⟨more, rfl, hmore, hstop, hoccurs, rfl⟩

end Rollout.Xml
