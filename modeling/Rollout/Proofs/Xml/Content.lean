import Rollout.Proofs.Xml.Outside

/-!
# The text of the root

Every part of the content of a root is scanned from the front, and its text says what it is.

- `scanReference_eq_some`, `scanAttribute_eq_some`, `scanStartTag_eq_some`, `scanEndTag_eq_some`:
  the text of a reference, an attribute and a tag.
- `Spelled`: a part of the content and its text.
- `scanPiece_eq_some`: **a part of the content** is taken from the front.

That a text holds no `<` matters for tags: there they tell where a tag begins.
-/

namespace Rollout.Xml

/-! ## References -/

theorem foldl_digit_none (base : Nat) (digits : List Char) :
    digits.foldl (fun value c => do
      let value ← value
      let digit ← codeOf?.digitIn? base c
      pure (base * value + digit)) none = none := by
  induction digits with
  | nil => rfl
  | cons c digits ih => exact ih

/-- Digits that have a value are digits. -/
theorem digitIn?_of_codeOf? {base : Nat} {digits : List Char} {code : Nat}
    (h : codeOf? base digits = some code) :
    ∀ c ∈ digits, (codeOf?.digitIn? base c).isSome = true := by
  -- a character that is no digit leaves no value, and the rest of the fold keeps that
  have hfold : ∀ (digits : List Char) (value : Nat),
      (digits.foldl (fun value c => do
        let value ← value
        let digit ← codeOf?.digitIn? base c
        pure (base * value + digit)) (some value)) ≠ none →
      ∀ c ∈ digits, (codeOf?.digitIn? base c).isSome = true := by
    intro digits
    induction digits with
    | nil => exact fun _ _ _ hc => nomatch hc
    | cons d digits ih =>
      intro value hne
      rw [List.foldl_cons] at hne
      cases hd : codeOf?.digitIn? base d with
      | none =>
        rw [hd] at hne
        exact absurd (foldl_digit_none base digits) hne
      | some digit =>
        rw [hd] at hne
        exact List.forall_mem_cons.mpr ⟨by rw [hd]; rfl, ih _ hne⟩
  unfold codeOf? at h
  split at h
  case isTrue => cases h
  case isFalse => exact hfold digits 0 (by rw [h]; exact Option.some_ne_none _)

/-- The text of a reference holds no markup. -/
theorem scanReference_eq_some {cs rest : List Char} {reference : Reference}
    (h : scanReference cs = some (reference, rest)) :
    ∃ used, cs = used ++ rest ∧ '<' ∉ used := by
  have hnumbered : ∀ {base : Nat} {after rest digits : List Char} {c : Char},
      splitAt? [';'] after = some (digits, rest) → numberedChar? base digits = some c →
      (codeOf?.digitIn? base '<' = none) → ∃ used, after = used ++ rest ∧ '<' ∉ used := by
    intro base after rest digits c hsplit hchar hbase
    obtain ⟨rfl, -⟩ := (splitAt?_eq_some (List.cons_ne_nil _ _)).mp hsplit
    refine ⟨digits ++ [';'], rfl, fun hmem => ?_⟩
    unfold numberedChar? at hchar
    cases hcode : codeOf? base digits with
    | none =>
      rw [hcode] at hchar
      cases hchar
    | some code =>
      have hmem : '<' ∈ digits := by simpa using hmem
      have hdigit := digitIn?_of_codeOf? hcode _ hmem
      rw [hbase] at hdigit
      cases hdigit
  unfold scanReference at h
  split at h
  case h_1 after =>
    obtain ⟨⟨digits, stop⟩, hsplit, hread⟩ := Option.bind_eq_some_iff.mp h
    obtain ⟨c, hchar, heq⟩ := Option.bind_eq_some_iff.mp hread
    cases heq
    obtain ⟨used, rfl, hused⟩ := hnumbered hsplit hchar (by decide)
    exact ⟨'#' :: 'x' :: used, rfl, by simpa using hused⟩
  case h_2 after _ =>
    obtain ⟨⟨digits, stop⟩, hsplit, hread⟩ := Option.bind_eq_some_iff.mp h
    obtain ⟨c, hchar, heq⟩ := Option.bind_eq_some_iff.mp hread
    cases heq
    obtain ⟨used, rfl, hused⟩ := hnumbered hsplit hchar (by decide)
    exact ⟨'#' :: used, rfl, by simpa using hused⟩
  case h_3 notHex notDecimal =>
    obtain ⟨⟨name, stop⟩, hname, hread⟩ := Option.bind_eq_some_iff.mp h
    obtain ⟨rfl, hisName, -⟩ := scanName_eq_some.mp hname
    have hfree : '<' ∉ name := fun hmem =>
      absurd (hisName.isNameChar _ hmem) (by decide +kernel)
    dsimp only at hread
    split at hread
    case h_1 more =>
      have hmore : rest = more := by
        split at hread <;> cases hread <;> rfl
      subst hmore
      exact ⟨name ++ [';'], by simp, by simpa using hfree⟩
    case h_2 => cases hread

/-! ## Tags -/

/-- A text in quotes. -/
theorem scanQuoted_eq_some {cs value rest : List Char} (h : scanQuoted cs = some (value, rest)) :
    ∃ quote, (quote = '"' ∨ quote = '\'') ∧ cs = quote :: (value ++ quote :: rest) ∧
      quote ∉ value := by
  have hsplit : ∀ {quote : Char} {cs : List Char}, splitAt? [quote] cs = some (value, rest) →
      cs = value ++ quote :: rest ∧ quote ∉ value := by
    intro quote cs hsplit
    obtain ⟨rfl, hunmarked⟩ := (splitAt?_eq_some (List.cons_ne_nil _ _)).mp hsplit
    refine ⟨by simp, fun hmem => ?_⟩
    obtain ⟨a, b, rfl⟩ := List.append_of_mem hmem
    exact absurd (hunmarked a (b ++ [quote]) (by simp)) (by simp)
  unfold scanQuoted at h
  split at h
  case h_1 =>
    obtain ⟨rfl, hquote⟩ := hsplit h
    exact ⟨'"', .inl rfl, rfl, hquote⟩
  case h_2 =>
    obtain ⟨rfl, hquote⟩ := hsplit h
    exact ⟨'\'', .inr rfl, rfl, hquote⟩
  case h_3 => cases h

/-- White space at the front. -/
theorem exists_eq_append_skipSpace (cs : List Char) :
    ∃ run, cs = run ++ skipSpace cs ∧ ∀ c ∈ run, isSpace c = true := by
  obtain ⟨run, hcs, hrun, -⟩ := exists_eq_append_dropWhile isSpace cs
  exact ⟨run, hcs, hrun⟩

theorem not_mem_of_isSpace {run : List Char} (h : ∀ c ∈ run, isSpace c = true) : '<' ∉ run :=
  fun hmem => absurd (h _ hmem) (by decide)

theorem IsTagName.not_mem_raw {tag : TagName} (h : IsTagName tag) {c : Char}
    (hc : Xml.isTagNameChar c = false) : c ∉ tag.raw :=
  fun hmem => absurd (h.isTagNameChar _ hmem) (by rw [hc]; decide)

/-- The text of an attribute holds no markup unless its value does. -/
theorem scanAttribute_eq_some {cs value rest : List Char} {name : TagName}
    (h : scanAttribute cs = some ((name, value), rest)) :
    ∃ used, cs = used ++ rest ∧ IsTagName name ∧ value ⊆ used ∧ ('<' ∉ value → '<' ∉ used) := by
  obtain ⟨⟨tag, afterName⟩, htag, hread⟩ := Option.bind_eq_some_iff.mp h
  obtain ⟨rfl, hisTag⟩ := scanTagName_eq_some htag
  dsimp only at hread
  obtain ⟨run, hrun, hspace⟩ := exists_eq_append_skipSpace afterName
  split at hread
  case h_1 afterSign heq =>
    obtain ⟨⟨quoted, stop⟩, hquoted, hfinal⟩ := Option.bind_eq_some_iff.mp hread
    cases hfinal
    obtain ⟨run', hrun', hspace'⟩ := exists_eq_append_skipSpace afterSign
    obtain ⟨quote, hquote, hvalue, -⟩ := scanQuoted_eq_some hquoted
    refine ⟨name.raw ++ run ++ '=' :: run' ++ quote :: (quoted ++ [quote]), ?_, hisTag, ?_, ?_⟩
    · rw [hrun, heq, hrun', hvalue]
      simp
    · exact fun c hc => List.mem_append_right _ (by simp [hc])
    · intro hfree
      have hname := hisTag.not_mem_raw (c := '<') (by decide +kernel)
      have hspaces := not_mem_of_isSpace hspace
      have hspaces' := not_mem_of_isSpace hspace'
      rcases hquote with rfl | rfl <;> simp [hname, hspaces, hspaces', hfree]
  case h_2 => cases hread

/-- The rest of a start tag after its name. -/
theorem scanAttributes_eq_some : ∀ {fuel : Nat} {cs rest : List Char}
    {entries : List (TagName × List Char)} {closed : Bool},
    scanAttributes fuel cs = some ((entries, closed), rest) →
    ∃ c used, (c = '>' ∨ c = '/' ∨ isSpace c = true) ∧ cs = c :: used ++ rest ∧
      (∀ entry ∈ entries, IsTagName entry.1 ∧ entry.2 ⊆ c :: used) ∧
      ((∀ entry ∈ entries, '<' ∉ entry.2) → '<' ∉ c :: used)
  | 0, _, _, _, _, h => nomatch h
  | fuel + 1, cs, rest, entries, closed, h => by
    have hnone : ∀ {used}, ∀ entry ∈ ([] : List (TagName × List Char)),
        IsTagName entry.1 ∧ entry.2 ⊆ used := fun _ hmem => nomatch hmem
    unfold scanAttributes at h
    split at h
    case h_1 =>
      cases h
      exact ⟨'>', [], .inl rfl, rfl, hnone, fun _ => by decide⟩
    case h_2 =>
      cases h
      exact ⟨'/', ['>'], .inr (.inl rfl), rfl, hnone, fun _ => by decide⟩
    case h_4 => cases h
    case h_3 c cs _ _ =>
      split at h
      case isFalse => cases h
      case isTrue hspace =>
        have hhead : skipSpace (c :: cs) = skipSpace cs := List.dropWhile_cons_of_pos hspace
        obtain ⟨more, hcs, hspaces⟩ := exists_eq_append_skipSpace cs
        rw [← hhead] at hcs
        have hfree := not_mem_of_isSpace (List.forall_mem_cons.mpr ⟨hspace, hspaces⟩)
        generalize skipSpace (c :: cs) = after at h hcs
        subst hcs
        split at h
        case h_1 =>
          cases h
          exact ⟨c, more ++ ['>'], .inr (.inr hspace), by simp, hnone,
            fun _ => by simpa using hfree⟩
        case h_2 =>
          cases h
          exact ⟨c, more ++ ['/', '>'], .inr (.inr hspace), by simp, hnone,
            fun _ => by simpa using hfree⟩
        case h_3 =>
          obtain ⟨⟨⟨name, value⟩, stop⟩, hattribute, hread⟩ := Option.bind_eq_some_iff.mp h
          obtain ⟨⟨⟨others, closed'⟩, stop'⟩, hmore, hfinal⟩ := Option.bind_eq_some_iff.mp hread
          cases hfinal
          obtain ⟨used, rfl, hname, hinside, hvalue⟩ := scanAttribute_eq_some hattribute
          obtain ⟨d, used', -, rfl, hnames, hvalues⟩ := scanAttributes_eq_some hmore
          refine ⟨c, more ++ used ++ d :: used', .inr (.inr hspace), by simp,
            List.forall_mem_cons.mpr ⟨⟨hname, fun e he => ?_⟩, fun entry hentry => ?_⟩,
            fun hall => ?_⟩
          · exact List.mem_cons_of_mem _ (by simp [hinside he])
          · obtain ⟨hisTag, hsubset⟩ := hnames entry hentry
            exact ⟨hisTag, fun e he => List.mem_cons_of_mem _
              (List.mem_append_right _ (hsubset he))⟩
          · obtain ⟨hfirst, hothers⟩ := List.forall_mem_cons.mp hall
            have hused := hvalue hfirst
            have hused' := hvalues hothers
            simp only [List.mem_cons, List.mem_append, not_or] at hfree hused' ⊢
            exact ⟨hfree.1, ⟨hfree.2, hused⟩, hused'⟩

/-- **A start tag**: a name, then a character that ends names, then attributes. -/
theorem scanStartTag_eq_some {cs rest : List Char} {tag : StartTag}
    (h : scanStartTag cs = some (tag, rest)) :
    ∃ c used, (c = '>' ∨ c = '/' ∨ isSpace c = true) ∧ cs = tag.name.raw ++ (c :: used ++ rest) ∧
      IsTagName tag.name ∧
      (∀ entry ∈ tag.attributes, IsTagName entry.1 ∧ entry.2 ⊆ c :: used) ∧
      ((∀ entry ∈ tag.attributes, '<' ∉ entry.2) → '<' ∉ tag.name.raw ++ c :: used) := by
  obtain ⟨⟨name, afterName⟩, hname, hread⟩ := Option.bind_eq_some_iff.mp h
  obtain ⟨⟨⟨entries, closed⟩, stop⟩, hattributes, hfinal⟩ := Option.bind_eq_some_iff.mp hread
  cases hfinal
  obtain ⟨rfl, hisTag⟩ := scanTagName_eq_some hname
  obtain ⟨c, used, hc, rfl, hnames, hfree⟩ := scanAttributes_eq_some hattributes
  refine ⟨c, used, hc, rfl, hisTag, hnames, fun hall hmem => ?_⟩
  rcases List.mem_append.mp hmem with hmem | hmem
  · exact hisTag.not_mem_raw (by decide +kernel) hmem
  · exact hfree hall hmem

/-- **An end tag**: a name, white space and the mark that ends tags. -/
theorem scanEndTag_eq_some {cs rest : List Char} {name : TagName}
    (h : scanEndTag cs = some (name, rest)) :
    ∃ run, cs = name.raw ++ (run ++ '>' :: rest) ∧ IsTagName name ∧
      ∀ c ∈ run, isSpace c = true := by
  obtain ⟨⟨tag, afterName⟩, htag, hread⟩ := Option.bind_eq_some_iff.mp h
  obtain ⟨rfl, hisTag⟩ := scanTagName_eq_some htag
  obtain ⟨run, hrun, hspace⟩ := exists_eq_append_skipSpace afterName
  dsimp only at hread
  split at hread
  case h_1 more heq =>
    cases hread
    rw [heq] at hrun
    exact ⟨run, by rw [hrun], hisTag, hspace⟩
  case h_2 => cases hread

/-! ## Parts of the content -/

/-- A part of the content and its text. -/
inductive Spelled : Piece → List Char → Prop
  | start {tag : StartTag} {c : Char} {used : List Char}
      (after : c = '>' ∨ c = '/' ∨ isSpace c = true)
      (name : IsTagName tag.name)
      (entries : ∀ entry ∈ tag.attributes, IsTagName entry.1 ∧ entry.2 ⊆ c :: used)
      (free : (∀ entry ∈ tag.attributes, '<' ∉ entry.2) → '<' ∉ tag.name.raw ++ c :: used) :
      Spelled (.start tag) ('<' :: (tag.name.raw ++ c :: used))
  | finish {name : TagName} {run : List Char} (isTag : IsTagName name)
      (space : ∀ c ∈ run, isSpace c = true) :
      Spelled (.finish name) ('<' :: '/' :: (name.raw ++ (run ++ ['>'])))
  | comment {raw : List Char} (unmarked : Unmarked ['-', '-'] raw) :
      Spelled (.comment (Text.unifyNewlineChars raw))
        ('<' :: '!' :: '-' :: '-' :: (raw ++ ['-', '-', '>']))
  | instruction {target raw : List Char} (name : IsName target)
      (free : isReservedTarget target = false) (first : SpaceFirst raw)
      (unmarked : Unmarked ['?', '>'] raw) :
      Spelled (.instruction target (Text.unifyNewlineChars (skipSpace raw)))
        ('<' :: '?' :: (target ++ (raw ++ ['?', '>'])))
  | data {raw : List Char} :
      Spelled (.text (Text.unifyNewlineChars raw)) ("<![CDATA[".toList ++ (raw ++ "]]>".toList))
  | char {c : Char} {used : List Char} (legal : isLegal c = true) :
      Spelled (.text [c]) ('&' :: used)
  | entity {name used : List Char} : Spelled (.entity name) ('&' :: used)
  | text {run : List Char} (ne : run ≠ []) : Spelled (.text (Text.unifyNewlineChars run)) run

theorem Spelled.ne_nil {piece : Piece} {used : List Char} (h : Spelled piece used) : used ≠ [] := by
  cases h with
  | text ne => exact ne
  | data => exact List.append_ne_nil_of_left_ne_nil (by decide) _
  | _ => exact List.cons_ne_nil _ _

/-- A character given by its number is one that a document may hold. -/
theorem isLegal_of_numberedChar? {base : Nat} {digits : List Char} {c : Char}
    (h : numberedChar? base digits = some c) : isLegal c = true := by
  unfold numberedChar? at h
  cases hcode : codeOf? base digits with
  | none =>
    rw [hcode] at h
    cases h
  | some code =>
    rw [hcode] at h
    dsimp only at h
    split at h
    case isTrue hlegal =>
      cases h
      -- a legal code is no surrogate, so the character has that code
      have hvalid : code.isValidChar := by
        unfold isLegalCode at hlegal
        simp only [Bool.or_eq_true, beq_iff_eq, Bool.and_eq_true, decide_eq_true_eq] at hlegal
        unfold Nat.isValidChar
        omega
      have hcode : (Char.ofNat code).toNat = code := by
        unfold Char.ofNat
        rw [dif_pos hvalid]
        rfl
      unfold isLegal
      rw [hcode]
      exact hlegal
    case isFalse => cases h

/-- The characters with a name of their own are ones that a document may hold. -/
theorem isLegal_of_predefined? {name : List Char} {c : Char} (h : predefined? name = some c) :
    isLegal c = true := by
  have hmem : c ∈ ['<', '>', '&', '"', '\''] := by
    unfold predefined? at h
    split_ifs at h <;> cases h <;> simp
  have hlegal : Legal ['<', '>', '&', '"', '\''] := by decide
  exact hlegal c hmem

/-- A reference that is no entity stands for a character that a document may hold. -/
theorem isLegal_of_scanReference {cs rest : List Char} {c : Char}
    (h : scanReference cs = some (.char c, rest)) : isLegal c = true := by
  unfold scanReference at h
  split at h
  case h_1 | h_2 =>
    obtain ⟨⟨digits, stop⟩, hsplit, hread⟩ := Option.bind_eq_some_iff.mp h
    obtain ⟨d, hchar, heq⟩ := Option.bind_eq_some_iff.mp hread
    cases heq
    exact isLegal_of_numberedChar? hchar
  case h_3 notHex notDecimal =>
    obtain ⟨⟨name, stop⟩, hname, hread⟩ := Option.bind_eq_some_iff.mp h
    dsimp only at hread
    split at hread
    case h_1 =>
      split at hread
      case h_1 hchar =>
        cases hread
        exact isLegal_of_predefined? hchar
      case h_2 => cases hread
    case h_2 => cases hread

theorem scanMarkup_eq_some {cs rest : List Char} {piece : Piece}
    (h : scanMarkup cs = some (piece, rest)) :
    ∃ used, '<' :: cs = used ++ rest ∧ Spelled piece used := by
  unfold scanMarkup at h
  split at h
  case h_1 =>
    obtain ⟨⟨name, stop⟩, htag, heq⟩ := Option.map_eq_some_iff.mp h
    cases heq
    obtain ⟨run, rfl, hname, hspace⟩ := scanEndTag_eq_some htag
    exact ⟨_, by simp, .finish hname hspace⟩
  case h_2 =>
    obtain ⟨⟨⟨target, data⟩, stop⟩, hinstruction, heq⟩ := Option.map_eq_some_iff.mp h
    cases heq
    obtain ⟨raw, rfl, hname, hfree, hfirst, hunmarked, rfl⟩ :=
      scanInstruction_eq_some.mp hinstruction
    exact ⟨_, by simp, .instruction hname hfree hfirst hunmarked⟩
  case h_3 after =>
    split at h
    case h_1 more hpre =>
      obtain rfl : '-' :: '-' :: more = after := List.isPrefixOf?_eq_some_iff_append_eq.mp hpre
      obtain ⟨⟨text, stop⟩, hcomment, heq⟩ := Option.map_eq_some_iff.mp h
      cases heq
      obtain ⟨raw, rfl, hunmarked, rfl⟩ := scanComment_eq_some.mp hcomment
      exact ⟨_, by simp, .comment hunmarked⟩
    case h_2 =>
      split at h
      case h_1 more hpre =>
        obtain rfl := List.isPrefixOf?_eq_some_iff_append_eq.mp hpre
        obtain ⟨⟨text, stop⟩, hdata, heq⟩ := Option.map_eq_some_iff.mp h
        cases heq
        obtain ⟨raw, rfl, -, rfl⟩ := scanData_eq_some.mp hdata
        refine ⟨_, ?_, .data⟩
        show '<' :: '!' :: ("[CDATA[".toList ++ (raw ++ "]]>".toList ++ rest))
          = '<' :: '!' :: ("[CDATA[".toList ++ (raw ++ "]]>".toList)) ++ rest
        simp only [List.append_assoc, List.cons_append]
      case h_2 => cases h
  case h_4 =>
    obtain ⟨⟨tag, stop⟩, htag, heq⟩ := Option.map_eq_some_iff.mp h
    cases heq
    obtain ⟨c, used, hafter, rfl, hname, hnames, hfree⟩ := scanStartTag_eq_some htag
    exact ⟨_, by simp, .start hafter hname hnames hfree⟩

/-- **A part of the content** is taken from the front. -/
theorem scanPiece_eq_some {cs rest : List Char} {piece : Piece}
    (h : scanPiece cs = some (piece, rest)) : ∃ used, cs = used ++ rest ∧ Spelled piece used := by
  unfold scanPiece at h
  split at h
  case h_1 => exact scanMarkup_eq_some h
  case h_2 after =>
    split at h
    case h_1 c stop hreference =>
      cases h
      obtain ⟨used, rfl, -⟩ := scanReference_eq_some hreference
      exact ⟨_, rfl, .char (isLegal_of_scanReference hreference)⟩
    case h_2 name stop hreference =>
      cases h
      obtain ⟨used, rfl, -⟩ := scanReference_eq_some hreference
      exact ⟨_, rfl, .entity⟩
    case h_3 => cases h
  case h_3 notMarkup notReference =>
    cases hspan : cs.span isPlain with | mk run stop =>
    rw [hspan] at h
    dsimp only at h
    split at h
    case isTrue => cases h
    case isFalse hne =>
      cases h
      obtain ⟨rfl, -, -⟩ := span_eq_iff.mp hspan
      refine ⟨run, rfl, .text fun hnil => hne ?_⟩
      rw [hnil]
      rfl

/-- **A run of plain text** is scanned up to the next markup or reference. -/
theorem scanPiece_plain_iff {c : Char} (hc : isPlain c = true) {cs rest : List Char}
    {piece : Piece} :
    scanPiece (c :: cs) = some (piece, rest) ↔ ∃ more, cs = more ++ rest ∧
      (∀ d ∈ more, isPlain d = true) ∧ StopsAt isPlain rest ∧
      Text.occurs "]]>".toList (c :: more) = false ∧
      piece = .text (Text.unifyNewlineChars (c :: more)) := by
  have hlt : c ≠ '<' := ne_of_class hc (by decide)
  have hamp : c ≠ '&' := ne_of_class hc (by decide)
  have hother : ∀ d after, c ≠ d → c :: cs = d :: after → False := fun _ _ hne heq =>
    hne (List.cons.inj heq).1
  have hrun := scanPiece.eq_3 (c :: cs) (fun after => hother _ after hlt) fun after =>
    hother _ after hamp
  rw [hrun]
  constructor
  · intro h
    cases hspan : (c :: cs).span isPlain with | mk run stop =>
    rw [hspan] at h
    dsimp only at h
    split at h
    case isTrue => cases h
    case isFalse hquiet =>
      cases h
      obtain ⟨hcs, hplain, hstop⟩ := span_eq_iff.mp hspan
      cases run with
      | nil =>
        rw [List.nil_append] at hcs
        subst hcs
        exact absurd hc (by rw [stopsAt_cons.mp hstop]; decide)
      | cons d more =>
        obtain ⟨rfl, rfl⟩ := List.cons.inj hcs
        exact ⟨more, rfl, (List.forall_mem_cons.mp hplain).2, hstop, by simpa using hquiet, rfl⟩
  · rintro ⟨more, rfl, hplain, hstop, hquiet, rfl⟩
    have hspan : (c :: (more ++ rest)).span isPlain = (c :: more, rest) :=
      span_eq_iff.mpr ⟨rfl, List.forall_mem_cons.mpr ⟨hc, hplain⟩, hstop⟩
    rw [hspan]
    dsimp only
    rw [hquiet]
    rfl

end Rollout.Xml
