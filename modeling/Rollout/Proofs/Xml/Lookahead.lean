import Rollout.Proofs.Xml.Content
import Rollout.Xml.DtdReader

/-!
# How far scanners look

A scanner takes characters from the front, and what it makes of them does not depend on what
follows, but for one character at most.

- `Reads`: a scanner that looks at one character behind what it takes.
- `Closes`: a scanner that knows where it ends; `scanStartTag_closes` and its companions.
- `scanMarkup_closes`: **the markup of the content** is scanned whatever follows it.
-/

namespace Rollout.Xml

/-! ## Scanners -/

section Scanners

variable {α β : Type}

/-- The scanner takes one character or more from the front, and it looks at one behind them at
most. -/
def Reads (scan : List Char → Option (α × List Char)) : Prop :=
  ∀ ⦃cs x rest⦄, scan cs = some (x, rest) → ∃ used, cs = used ++ rest ∧ used ≠ [] ∧
    ∀ rest', rest'.head? = rest.head? → scan (used ++ rest') = some (x, rest')

/-- This is so at one place. -/
def ReadsAt (scan : List Char → Option (α × List Char)) (cs : List Char) (x : α)
    (rest : List Char) : Prop :=
  ∃ used, cs = used ++ rest ∧ used ≠ [] ∧
    ∀ rest', rest'.head? = rest.head? → scan (used ++ rest') = some (x, rest')

/-- What the scanner takes it takes from the front, whatever follows. -/
def Closes (scan : List Char → Option (α × List Char)) : Prop :=
  ∀ ⦃cs x rest⦄, scan cs = some (x, rest) → ∃ used, cs = used ++ rest ∧
    ∀ rest', scan (used ++ rest') = some (x, rest')

theorem head?_append_congr {rest rest' : List Char} (h : rest'.head? = rest.head?)
    (front : List Char) : (front ++ rest').head? = (front ++ rest).head? := by
  cases front with
  | nil => exact h
  | cons => rfl

theorem StopsAt.congr {p : Char → Bool} {rest rest' : List Char} (h : StopsAt p rest)
    (hhead : rest'.head? = rest.head?) : StopsAt p rest' :=
  fun c hc => h c (hhead ▸ hc)

theorem Closes.map {scan : List Char → Option (α × List Char)} (h : Closes scan) (f : α → β) :
    Closes fun cs => (scan cs).map fun p => (f p.1, p.2) := by
  intro cs y rest hscan
  obtain ⟨⟨x, rest⟩, hx, heq⟩ := Option.map_eq_some_iff.mp hscan
  cases heq
  obtain ⟨used, hcs, hused⟩ := h hx
  refine ⟨used, hcs, fun rest' => ?_⟩
  show Option.map _ (scan (used ++ rest')) = _
  rw [hused rest']
  rfl

/-- A scanner whose result may be refused. -/
theorem Closes.filterMap {γ : Type} {scan : List Char → Option (α × List Char)} (h : Closes scan)
    (f : α → Option β) (g : β → γ) : Closes (fun cs => do
      let (x, rest) ← scan cs
      let y ← f x
      pure (g y, rest)) := by
  intro cs z rest hscan
  obtain ⟨⟨x, mid⟩, hx, hread⟩ := Option.bind_eq_some_iff.mp hscan
  obtain ⟨y, hy, heq⟩ := Option.bind_eq_some_iff.mp hread
  cases heq
  obtain ⟨used, hcs, hused⟩ := h hx
  refine ⟨used, hcs, fun rest' => ?_⟩
  show Option.bind (scan (used ++ rest')) _ = _
  rw [hused rest']
  show Option.bind (f x) _ = _
  rw [hy]
  rfl

end Scanners

/-! ## Runs and verbatim parts -/

/-- White space in front of a character that is none. -/
theorem skipSpace_append {run rest : List Char} (hrun : ∀ c ∈ run, isSpace c = true)
    (hstop : StopsAt isSpace rest) : skipSpace (run ++ rest) = rest := by
  have hcut := span_eq_iff.mpr ⟨rfl, hrun, hstop⟩
  rw [List.span_eq_takeWhile_dropWhile] at hcut
  exact congrArg Prod.snd hcut

/-- What follows white space does not matter to it, unless it goes on with white space. -/
theorem exists_skipSpace (cs : List Char) :
    ∃ run, cs = run ++ skipSpace cs ∧ StopsAt isSpace (skipSpace cs) ∧
      ∀ rest, StopsAt isSpace rest → skipSpace (run ++ rest) = rest := by
  obtain ⟨run, hcs, hrun, hstop⟩ := exists_eq_append_dropWhile isSpace cs
  exact ⟨run, hcs, hstop, fun rest => skipSpace_append hrun⟩

theorem splitAt?_closes {mark : List Char} (hmark : mark ≠ []) : Closes (splitAt? mark) := by
  intro cs before rest h
  obtain ⟨rfl, hunmarked⟩ := (splitAt?_eq_some hmark).mp h
  exact ⟨before ++ mark, rfl, fun rest' => (splitAt?_eq_some hmark).mpr ⟨rfl, hunmarked⟩⟩

theorem scanComment_closes : Closes scanComment := by
  intro cs text rest h
  obtain ⟨raw, rfl, hunmarked, rfl⟩ := scanComment_eq_some.mp h
  exact ⟨raw ++ ['-', '-'] ++ ['>'], by simp,
    fun rest' => scanComment_eq_some.mpr ⟨raw, by simp, hunmarked, rfl⟩⟩

theorem scanData_closes : Closes scanData := by
  intro cs text rest h
  obtain ⟨raw, rfl, hunmarked, rfl⟩ := scanData_eq_some.mp h
  exact ⟨raw ++ "]]>".toList, rfl, fun rest' => scanData_eq_some.mpr ⟨raw, rfl, hunmarked, rfl⟩⟩

theorem scanInstruction_closes : Closes scanInstruction := by
  rintro cs ⟨target, data⟩ rest h
  obtain ⟨raw, rfl, hname, hfree, hfirst, hunmarked, rfl⟩ := scanInstruction_eq_some.mp h
  exact ⟨target ++ (raw ++ ['?', '>']), by simp, fun rest' =>
    scanInstruction_eq_some.mpr ⟨raw, by simp, hname, hfree, hfirst, hunmarked, rfl⟩⟩

theorem scanQuoted_closes : Closes scanQuoted := by
  intro cs value rest h
  unfold scanQuoted at h
  split at h
  case h_1 | h_2 =>
    obtain ⟨used, rfl, hused⟩ := splitAt?_closes (List.cons_ne_nil _ _) h
    exact ⟨_ :: used, rfl, hused⟩
  case h_3 => cases h

/-- White space may stand in front of a text in quotes. -/
theorem scanQuoted_skipSpace {cs value rest : List Char}
    (h : scanQuoted (skipSpace cs) = some (value, rest)) : ∃ used, cs = used ++ rest ∧
      ∀ rest', scanQuoted (skipSpace (used ++ rest')) = some (value, rest') := by
  obtain ⟨run, hrun, hstop, hskip⟩ := exists_skipSpace cs
  obtain ⟨used, htext, hused⟩ := scanQuoted_closes h
  rw [htext] at hrun hstop
  cases used with
  | nil => exact absurd (hused []) nofun
  | cons c used =>
    refine ⟨run ++ c :: used, by rw [hrun, List.append_assoc], fun rest' => ?_⟩
    have hskip := hskip (c :: used ++ rest') (stopsAt_cons.mpr (stopsAt_cons.mp hstop))
    rw [List.append_assoc, hskip, hused rest']

/-! ## Names -/

theorem scanName_reads : Reads scanName := by
  intro cs name rest h
  obtain ⟨rfl, hname, hstop⟩ := scanName_eq_some.mp h
  exact ⟨name, rfl, hname.ne_nil, fun rest' hhead =>
    scanName_eq_some.mpr ⟨rfl, hname, hstop.congr hhead⟩⟩

theorem scanTagName_reads : Reads scanTagName := by
  intro cs tag rest h
  unfold scanTagName at h
  split at h
  case h_1 => cases h
  case h_2 first more hfirst =>
    obtain ⟨⟨second, stop⟩, hsecond, heq⟩ := Option.map_eq_some_iff.mp h
    cases heq
    obtain ⟨used, rfl, -, hused⟩ := scanName_reads hfirst
    obtain ⟨used', rfl, -, hused'⟩ := scanName_reads hsecond
    refine ⟨used ++ ':' :: used', by simp, by simp, fun rest' hhead => ?_⟩
    have hscan : scanName (used ++ ':' :: used' ++ rest')
        = some (first, ':' :: (used' ++ rest')) := by
      rw [List.append_assoc]
      exact hused (':' :: (used' ++ rest')) rfl
    unfold scanTagName
    rw [hscan]
    show Option.map _ (scanName (used' ++ rest')) = _
    rw [hused' rest' hhead]
    rfl
  case h_3 only stop hcolon honly =>
    cases h
    obtain ⟨used, rfl, hne, hused⟩ := scanName_reads honly
    refine ⟨used, rfl, hne, fun rest' hhead => ?_⟩
    unfold scanTagName
    rw [hused rest' hhead]
    split
    case h_1 heq => cases heq
    case h_2 more heq =>
      -- no colon follows the name, as none did
      cases heq
      cases rest with
      | nil => cases hhead
      | cons c rest =>
        cases hhead
        exact (hcolon rest rfl).elim
    case h_3 heq =>
      cases heq
      rfl

/-! ## References -/

/-- A reference by number, behind the sign of its base. -/
theorem scanNumbered_closes (base : Nat) : Closes (fun cs => do
    let (digits, rest) ← splitAt? [';'] cs
    let c ← numberedChar? base digits
    pure (Reference.char c, rest)) :=
  (splitAt?_closes (List.cons_ne_nil _ _)).filterMap (numberedChar? base) Reference.char

theorem scanReference_closes : Closes scanReference := by
  intro cs reference rest h
  unfold scanReference at h
  split at h
  case h_1 after =>
    obtain ⟨used, rfl, hused⟩ := scanNumbered_closes 16 h
    exact ⟨'#' :: 'x' :: used, rfl, hused⟩
  case h_2 after hx =>
    obtain ⟨used, rfl, hused⟩ := scanNumbered_closes 10 h
    refine ⟨'#' :: used, rfl, fun rest' => ?_⟩
    have hscan := hused rest'
    show scanReference ('#' :: (used ++ rest')) = _
    unfold scanReference
    split
    case h_1 more heq =>
      -- a reference that is taken has a character, which is as before
      cases used with
      | nil => exact absurd (hused []) nofun
      | cons c used =>
        obtain rfl : c = 'x' := (List.cons.inj (List.cons.inj heq).2).1
        exact (hx _ rfl).elim
    case h_2 heq =>
      cases heq
      exact hscan
    case h_3 hdecimal => exact (hdecimal _ rfl).elim
  case h_3 hhex hdecimal =>
    obtain ⟨⟨name, stop⟩, hname, hread⟩ := Option.bind_eq_some_iff.mp h
    obtain ⟨rfl, hisName, -⟩ := scanName_eq_some.mp hname
    dsimp only at hread
    split at hread
    case h_1 after =>
      have hscan : ∀ rest', scanName (name ++ ';' :: rest') = some (name, ';' :: rest') :=
        fun rest' => scanName_eq_some.mpr ⟨rfl, hisName, stopsAt_cons.mpr (by decide +kernel)⟩
      have hrest : rest = after := by
        split at hread <;> cases hread <;> rfl
      subst hrest
      refine ⟨name ++ [';'], by simp, fun rest' => ?_⟩
      obtain ⟨c, more, rfl, hc, -⟩ := hisName
      have hsign : c ≠ '#' := ne_of_class hc (by decide +kernel)
      have htext : c :: more ++ [';'] ++ rest' = c :: more ++ ';' :: rest' := by simp
      rw [htext]
      unfold scanReference
      split
      case h_1 heq => exact absurd (List.cons.inj heq).1 hsign
      case h_2 heq => exact absurd (List.cons.inj heq).1 hsign
      case h_3 =>
        rw [hscan rest']
        dsimp only [Option.bind_eq_bind, Option.bind_some]
        cases hchar : predefined? (c :: more) with
        | some d =>
          rw [hchar] at hread
          cases hread
          rfl
        | none =>
          rw [hchar] at hread
          cases hread
          rfl
    case h_2 => cases hread

/-! ## Tags -/

theorem scanAttribute_closes : Closes scanAttribute := by
  rintro cs ⟨name, value⟩ rest h
  obtain ⟨⟨tag, afterName⟩, htag, hread⟩ := Option.bind_eq_some_iff.mp h
  obtain ⟨used, rfl, -, hused⟩ := scanTagName_reads htag
  obtain ⟨run, hrun, -, hskip⟩ := exists_skipSpace afterName
  dsimp only at hread
  split at hread
  case h_1 afterSign hsign =>
    obtain ⟨⟨quoted, stop⟩, hquoted, heq⟩ := Option.bind_eq_some_iff.mp hread
    cases heq
    obtain ⟨text, rfl, hscan⟩ := scanQuoted_skipSpace hquoted
    rw [hsign] at hrun
    subst hrun
    refine ⟨used ++ (run ++ '=' :: text), by simp, fun rest' => ?_⟩
    have hname := hused (run ++ '=' :: (text ++ rest')) (head?_append_congr (by rfl) run)
    have hwhole : used ++ (run ++ '=' :: text) ++ rest'
        = used ++ (run ++ '=' :: (text ++ rest')) := by simp
    unfold scanAttribute
    rw [hwhole, hname]
    dsimp only [Option.bind_eq_bind, Option.bind_some]
    rw [hskip _ (stopsAt_cons.mpr (by decide))]
    show Option.bind (scanQuoted (skipSpace (text ++ rest'))) _ = _
    rw [hscan rest']
    rfl
  case h_2 => cases hread

/-- An attribute begins with its name. -/
theorem head_of_scanAttribute {cs rest : List Char} {entry : TagName × List Char}
    (h : scanAttribute cs = some (entry, rest)) :
    ∃ c more, cs = c :: more ∧ isNameStart c = true := by
  obtain ⟨⟨tag, afterName⟩, htag, -⟩ := Option.bind_eq_some_iff.mp h
  obtain ⟨rfl, hisTag⟩ := scanTagName_eq_some htag
  obtain ⟨c, more, hraw, hc⟩ := hisTag.exists_raw
  exact ⟨c, more ++ afterName, by rw [hraw]; rfl, hc⟩

/-- Behind white space there is the end of the tag or an attribute. -/
theorem scanAttributes_space {c : Char} (hc : isSpace c = true) (fuel : Nat) (cs : List Char) :
    scanAttributes (fuel + 1) (c :: cs) =
      (match skipSpace (c :: cs) with
      | '>' :: rest => some (([], false), rest)
      | '/' :: '>' :: rest => some (([], true), rest)
      | more => do
        let (entry, rest) ← scanAttribute more
        let ((entries, closed), rest) ← scanAttributes fuel rest
        pure ((entry :: entries, closed), rest)) := by
  have hend : c ≠ '>' := ne_of_class hc (by decide)
  have hslash : c ≠ '/' := ne_of_class hc (by decide)
  exact (scanAttributes.eq_4 fuel c cs hend fun _ heq _ => hslash heq).trans (if_pos hc)

/-- The characters are attributes and the end of a start tag, whatever follows them and whatever
bounds the number of attributes. -/
def AttributesAre (used : List Char) (x : List (TagName × List Char) × Bool) : Prop :=
  ∀ rest fuel, used.length < fuel → scanAttributes fuel (used ++ rest) = some (x, rest)

/-- How a start tag ends. -/
def EndsTag (mark : List Char) (closed : Bool) : Prop :=
  mark = ['>'] ∧ closed = false ∨ mark = ['/', '>'] ∧ closed = true

theorem EndsTag.attributesAre {mark : List Char} {closed : Bool} (h : EndsTag mark closed) :
    AttributesAre mark ([], closed) := by
  intro rest fuel hfuel
  obtain ⟨fuel, rfl⟩ := Nat.exists_eq_add_one_of_ne_zero (Nat.ne_zero_of_lt hfuel)
  rcases h with ⟨rfl, rfl⟩ | ⟨rfl, rfl⟩ <;> rfl

section Attributes

variable {c : Char} {run : List Char} (hspace : isSpace c = true)
  (hskip : ∀ rest, StopsAt isSpace rest → skipSpace (c :: run ++ rest) = rest)

include hspace hskip

/-- White space before the end of a tag. -/
theorem EndsTag.attributesAre_space {mark : List Char} {closed : Bool} (h : EndsTag mark closed) :
    AttributesAre (c :: run ++ mark) ([], closed) := by
  intro rest fuel hfuel
  obtain ⟨fuel, rfl⟩ := Nat.exists_eq_add_one_of_ne_zero (Nat.ne_zero_of_lt hfuel)
  have hstop : StopsAt isSpace (mark ++ rest) := by
    rcases h with ⟨rfl, -⟩ | ⟨rfl, -⟩ <;> exact stopsAt_cons.mpr (by decide)
  have hmark := hskip _ hstop
  rw [List.cons_append] at hmark
  rw [List.append_assoc, List.cons_append, scanAttributes_space hspace, hmark]
  rcases h with ⟨rfl, rfl⟩ | ⟨rfl, rfl⟩ <;> rfl

/-- White space before an attribute, and the others behind it. -/
theorem AttributesAre.cons {text used : List Char} {entry : TagName × List Char}
    {entries : List (TagName × List Char)} {closed : Bool}
    (hscan : ∀ rest, scanAttribute (text ++ rest) = some (entry, rest))
    (hused : AttributesAre used (entries, closed)) :
    AttributesAre (c :: run ++ (text ++ used)) (entry :: entries, closed) := by
  intro rest fuel hfuel
  obtain ⟨fuel, rfl⟩ := Nat.exists_eq_add_one_of_ne_zero (Nat.ne_zero_of_lt hfuel)
  have hlast := hused rest fuel
    (by simp only [List.length_append, List.length_cons] at hfuel; omega)
  obtain ⟨d, more, hd, hname⟩ := head_of_scanAttribute (hscan (used ++ rest))
  have hstop : StopsAt isSpace (text ++ (used ++ rest)) := by
    rw [hd]
    exact stopsAt_cons.mpr (not_isSpace_of_isNameChar (isNameChar_of_isNameStart hname))
  have hmark := hskip _ hstop
  rw [List.cons_append] at hmark
  rw [List.append_assoc, List.append_assoc, List.cons_append, scanAttributes_space hspace, hmark]
  -- an attribute begins with a letter, so that the tag does not end here
  split
  case h_1 heq =>
    rw [hd] at heq
    exact absurd (List.cons.inj heq).1 (ne_of_class hname (by decide +kernel))
  case h_2 heq =>
    rw [hd] at heq
    exact absurd (List.cons.inj heq).1 (ne_of_isNameStart hname).2.2
  case h_3 =>
    rw [hscan]
    show Option.bind (scanAttributes fuel (used ++ rest)) _ = _
    rw [hlast]
    rfl

end Attributes

/-- The attributes of a start tag close it, whatever bounds their number. -/
theorem scanAttributes_append : ∀ {fuel : Nat} {cs rest : List Char}
    {x : List (TagName × List Char) × Bool}, scanAttributes fuel cs = some (x, rest) →
    ∃ used, cs = used ++ rest ∧ ∀ rest' fuel', used.length < fuel' →
      scanAttributes fuel' (used ++ rest') = some (x, rest')
  | 0, _, _, _, h => nomatch h
  | fuel + 1, cs, rest, x, h => by
    have hend : EndsTag ['>'] false := .inl ⟨rfl, rfl⟩
    have hclose : EndsTag ['/', '>'] true := .inr ⟨rfl, rfl⟩
    unfold scanAttributes at h
    split at h
    case h_1 more =>
      cases h
      exact ⟨['>'], rfl, hend.attributesAre⟩
    case h_2 more =>
      cases h
      exact ⟨['/', '>'], rfl, hclose.attributesAre⟩
    case h_4 => cases h
    case h_3 c cs _ _ =>
      split at h
      case isFalse => cases h
      case isTrue hspace =>
        obtain ⟨run, hrun, hstop, hskip⟩ := exists_skipSpace (c :: cs)
        generalize skipSpace (c :: cs) = after at h hrun hstop
        cases run with
        | nil =>
          rw [List.nil_append] at hrun
          subst hrun
          exact absurd hspace (by rw [stopsAt_cons.mp hstop]; decide)
        | cons d run =>
          obtain ⟨rfl, rfl⟩ := List.cons.inj hrun
          split at h
          case h_1 more =>
            cases h
            exact ⟨c :: run ++ ['>'], by simp, hend.attributesAre_space hspace hskip⟩
          case h_2 more =>
            cases h
            exact ⟨c :: run ++ ['/', '>'], by simp, hclose.attributesAre_space hspace hskip⟩
          case h_3 =>
            obtain ⟨⟨entry, mid⟩, hentry, hread⟩ := Option.bind_eq_some_iff.mp h
            obtain ⟨⟨⟨entries, closed⟩, stop⟩, hmore, heq⟩ := Option.bind_eq_some_iff.mp hread
            cases heq
            obtain ⟨text, rfl, hscan⟩ := scanAttribute_closes hentry
            obtain ⟨used, rfl, hused⟩ := scanAttributes_append hmore
            exact ⟨c :: run ++ (text ++ used), by simp,
              AttributesAre.cons hspace hskip hscan hused⟩

theorem scanStartTag_closes : Closes scanStartTag := by
  intro cs tag rest h
  obtain ⟨⟨name, afterName⟩, hname, hread⟩ := Option.bind_eq_some_iff.mp h
  obtain ⟨⟨⟨attributes, closed⟩, stop⟩, hattributes, heq⟩ := Option.bind_eq_some_iff.mp hread
  cases heq
  obtain ⟨used, rfl, -, hused⟩ := scanTagName_reads hname
  obtain ⟨c, _, _, hafter, -⟩ := scanAttributes_eq_some hattributes
  obtain ⟨text, rfl, hscan⟩ := scanAttributes_append hattributes
  refine ⟨used ++ text, by simp, fun rest' => ?_⟩
  have hhead : (text ++ rest').head? = (text ++ rest).head? := by
    cases text with
    | nil => exact absurd (hscan [] 1 Nat.one_pos) nofun
    | cons => rfl
  have hlast := hscan rest' ((text ++ rest').length + 1) (by rw [List.length_append]; omega)
  unfold scanStartTag
  rw [List.append_assoc, hused _ hhead]
  show Option.bind (scanAttributes ((text ++ rest').length + 1) (text ++ rest')) _ = _
  rw [hlast]
  rfl

theorem scanEndTag_closes : Closes scanEndTag := by
  intro cs name rest h
  obtain ⟨⟨tag, afterName⟩, htag, hread⟩ := Option.bind_eq_some_iff.mp h
  obtain ⟨used, rfl, -, hused⟩ := scanTagName_reads htag
  obtain ⟨run, hrun, -, hskip⟩ := exists_skipSpace afterName
  dsimp only at hread
  split at hread
  case h_1 more hend =>
    cases hread
    rw [hend] at hrun
    subst hrun
    refine ⟨used ++ (run ++ ['>']), by simp, fun rest' => ?_⟩
    have hname := hused (run ++ '>' :: rest') (head?_append_congr (by rfl) run)
    have htext : used ++ (run ++ ['>']) ++ rest' = used ++ (run ++ '>' :: rest') := by simp
    unfold scanEndTag
    rw [htext, hname]
    dsimp only [Option.bind_eq_bind, Option.bind_some]
    rw [hskip _ (stopsAt_cons.mpr (by decide))]
    rfl
  case h_2 => cases hread

/-! ## Parts of the content -/

/-- **The markup of the content** is scanned whatever follows it. -/
theorem scanMarkup_closes : Closes scanMarkup := by
  intro cs piece rest h
  unfold scanMarkup at h
  split at h
  case h_1 =>
    obtain ⟨used, rfl, hused⟩ := scanEndTag_closes.map Piece.finish h
    exact ⟨'/' :: used, rfl, hused⟩
  case h_2 =>
    obtain ⟨used, rfl, hused⟩ :=
      scanInstruction_closes.map (fun p => Piece.instruction p.1 p.2) h
    exact ⟨'?' :: used, rfl, hused⟩
  case h_3 after =>
    split at h
    case h_1 more hpre =>
      obtain rfl : '-' :: '-' :: more = after := List.isPrefixOf?_eq_some_iff_append_eq.mp hpre
      obtain ⟨used, rfl, hused⟩ := scanComment_closes.map Piece.comment h
      exact ⟨'!' :: '-' :: '-' :: used, rfl, hused⟩
    case h_2 =>
      split at h
      case h_1 more hpre =>
        obtain rfl := List.isPrefixOf?_eq_some_iff_append_eq.mp hpre
        obtain ⟨used, rfl, hused⟩ := scanData_closes.map Piece.text h
        exact ⟨'!' :: ("[CDATA[".toList ++ used), rfl, hused⟩
      case h_2 => cases h
  case h_4 hend hinstruction hother =>
    obtain ⟨used, rfl, hused⟩ := scanStartTag_closes.map Piece.start h
    refine ⟨used, rfl, fun rest' => ?_⟩
    cases used with
    | nil => exact absurd (hused []) nofun
    | cons c used =>
      have hscan := hused rest'
      show scanMarkup (c :: (used ++ rest')) = _
      unfold scanMarkup
      split
      case h_1 heq => exact (hend _ (by rw [(List.cons.inj heq).1]; rfl)).elim
      case h_2 heq => exact (hinstruction _ (by rw [(List.cons.inj heq).1]; rfl)).elim
      case h_3 heq => exact (hother _ (by rw [(List.cons.inj heq).1]; rfl)).elim
      case h_4 => exact hscan

/-- A part of the content that begins with no plain character is scanned whatever follows it. -/
theorem scanPiece_closes {c : Char} (hc : isPlain c = false) {cs rest : List Char} {piece : Piece}
    (h : scanPiece (c :: cs) = some (piece, rest)) : ∃ used, c :: cs = used ++ rest ∧
      ∀ rest', scanPiece (used ++ rest') = some (piece, rest') := by
  unfold scanPiece at h
  split at h
  case h_1 heq =>
    cases heq
    obtain ⟨used, rfl, hused⟩ := scanMarkup_closes h
    exact ⟨'<' :: used, rfl, fun rest' => hused rest'⟩
  case h_2 heq =>
    cases heq
    split at h
    case h_1 d stop hscan =>
      cases h
      obtain ⟨used, rfl, hused⟩ := scanReference_closes hscan
      refine ⟨'&' :: used, rfl, fun rest' => ?_⟩
      show scanPiece ('&' :: (used ++ rest')) = _
      rw [scanPiece, hused rest']
    case h_2 name stop hscan =>
      cases h
      obtain ⟨used, rfl, hused⟩ := scanReference_closes hscan
      refine ⟨'&' :: used, rfl, fun rest' => ?_⟩
      show scanPiece ('&' :: (used ++ rest')) = _
      rw [scanPiece, hused rest']
    case h_3 => cases h
  case h_3 hlt hamp =>
    -- a character that opens neither markup nor a reference is plain
    have hlt : c ≠ '<' := fun heq => hlt cs (by rw [heq])
    have hamp : c ≠ '&' := fun heq => hamp cs (by rw [heq])
    unfold isPlain at hc
    simp [hlt, hamp] at hc

/-- **A part of the content** is scanned whatever follows it, but that a run of text goes on as
long as it can. -/
theorem scanPiece_append {cs rest : List Char} {piece : Piece}
    (h : scanPiece cs = some (piece, rest)) : ∃ used, cs = used ++ rest ∧
      ∀ rest', (StopsAt isPlain rest → StopsAt isPlain rest') →
        scanPiece (used ++ rest') = some (piece, rest') := by
  cases cs with
  | nil => exact absurd h nofun
  | cons c cs =>
    cases hc : isPlain c with
    | true =>
      obtain ⟨more, rfl, hmore, hstop, hquiet, rfl⟩ := (scanPiece_plain_iff hc).mp h
      exact ⟨c :: more, rfl, fun rest' hrest =>
        (scanPiece_plain_iff hc).mpr ⟨more, rfl, hmore, hrest hstop, hquiet, rfl⟩⟩
    | false =>
      obtain ⟨used, heq, hused⟩ := scanPiece_closes hc h
      exact ⟨used, heq, fun rest' _ => hused rest'⟩

end Rollout.Xml
