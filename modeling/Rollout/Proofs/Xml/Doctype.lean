import Rollout.Proofs.Xml.Parts
import Rollout.Xml.DtdReader

/-!
# The text of a document type declaration

A document type declaration is scanned from the front, so that what follows it is an end of the
text. What it declares does not matter here.

- `suffix_scanToken`, `suffix_tokenize`: the declarations between the brackets.
- `suffix_scanDoctype`: **the whole declaration**.
-/

namespace Rollout.Xml

section Suffix

variable {cs rest : List Char}

theorem suffix_skipSpace (cs : List Char) : skipSpace cs <:+ cs := List.dropWhile_suffix _

theorem suffix_span {p : Char → Bool} {run : List Char} (h : cs.span p = (run, rest)) :
    rest <:+ cs := by
  obtain ⟨rfl, -, -⟩ := span_eq_iff.mp h
  exact List.suffix_append ..

theorem suffix_splitAt? {mark before : List Char} (hmark : mark ≠ [])
    (h : splitAt? mark cs = some (before, rest)) : rest <:+ cs := by
  obtain ⟨rfl, -⟩ := (splitAt?_eq_some hmark).mp h
  exact List.suffix_append ..

theorem suffix_scanName {name : List Char} (h : scanName cs = some (name, rest)) : rest <:+ cs := by
  obtain ⟨rfl, -, -⟩ := scanName_eq_some.mp h
  exact List.suffix_append ..

theorem suffix_scanTagName {tag : TagName} (h : scanTagName cs = some (tag, rest)) :
    rest <:+ cs := by
  obtain ⟨rfl, -⟩ := scanTagName_eq_some h
  exact List.suffix_append ..

theorem suffix_scanComment {text : List Char} (h : scanComment cs = some (text, rest)) :
    rest <:+ cs := by
  obtain ⟨raw, rfl, -, -⟩ := scanComment_eq_some.mp h
  exact (List.suffix_cons ..).trans (List.suffix_append ..)

theorem suffix_scanInstruction {content : List Char × List Char}
    (h : scanInstruction cs = some (content, rest)) : rest <:+ cs := by
  obtain ⟨raw, rfl, -, -, -, -, -⟩ := scanInstruction_eq_some.mp h
  exact (List.suffix_append ..).trans (List.suffix_append ..)

theorem suffix_scanQuoted {value : List Char} (h : scanQuoted cs = some (value, rest)) :
    rest <:+ cs := by
  unfold scanQuoted at h
  split at h
  case h_1 | h_2 => exact (suffix_splitAt? (List.cons_ne_nil _ _) h).trans (List.suffix_cons ..)
  case h_3 => cases h

theorem suffix_of_isPrefixOf? {mark : List Char} (h : mark.isPrefixOf? cs = some rest) :
    rest <:+ cs :=
  ⟨mark, List.isPrefixOf?_eq_some_iff_append_eq.mp h⟩

theorem suffix_scanRepeat {kind : Repeat} (h : scanRepeat cs = (kind, rest)) : rest <:+ cs := by
  unfold scanRepeat at h
  split at h
  case h_1 | h_2 | h_3 =>
    cases h
    exact List.suffix_cons ..
  case h_4 =>
    cases h
    exact List.suffix_refl _

/-! ## Tokens -/

theorem suffix_scanNameLike {token : Token} (h : scanNameLike cs = some (token, rest)) :
    rest <:+ cs := by
  unfold scanNameLike at h
  cases hspan : cs.span fun c => isNameChar c || c == ':' with | mk run after =>
  cases hrepeat : scanRepeat after with | mk kind more =>
  rw [hspan] at h
  dsimp only at h
  rw [hrepeat] at h
  have hafter := suffix_span hspan
  have hmore := suffix_scanRepeat hrepeat
  dsimp only at h
  split at h
  · cases h
  · split at h
    · split at h
      · cases h
        exact hafter
      · cases h
    · split at h
      · cases h
      · cases h
        exact hmore.trans hafter

theorem suffix_quotedToken {scanned : Option (List Char × List Char)} {token? : Option Token}
    (h : scanToken.quotedToken scanned = some (token?, rest)) :
    ∃ text, scanned = some (text, rest) := by
  unfold scanToken.quotedToken at h
  split at h
  case h_1 text more =>
    split at h
    · cases h
      exact ⟨text, rfl⟩
    · cases h
  case h_2 => cases h

theorem suffix_scanToken {token? : Option Token} (h : scanToken cs = some (token?, rest)) :
    rest <:+ cs := by
  -- a text in quotes ends at its closing quote, whether or not it is kept as a token
  have hquoted : ∀ {quote : Char} {more : List Char},
      scanToken.quotedToken (splitAt? [quote] more) = some (token?, rest) →
        rest <:+ quote :: more := by
    intro quote more hquoted
    obtain ⟨text, htext⟩ := suffix_quotedToken hquoted
    exact (suffix_splitAt? (List.cons_ne_nil _ _) htext).trans (List.suffix_cons ..)
  unfold scanToken at h
  split at h
  case h_1 more =>
    obtain ⟨⟨text, stop⟩, hcomment, heq⟩ := Option.map_eq_some_iff.mp h
    cases heq
    exact (suffix_scanComment hcomment).trans (List.suffix_append ['<', '!', '-', '-'] more)
  case h_2 more _ =>
    cases hspan : more.span isNameStart with | mk letters after =>
    rw [hspan] at h
    dsimp only at h
    split at h
    · cases h
    · cases h
      exact (suffix_span hspan).trans (List.suffix_append ['<', '!'] more)
  case h_3 more =>
    obtain ⟨⟨content, stop⟩, hinstruction, heq⟩ := Option.map_eq_some_iff.mp h
    cases heq
    exact (suffix_scanInstruction hinstruction).trans (List.suffix_append ['<', '?'] more)
  case h_4 | h_5 | h_7 | h_8 =>
    cases h
    exact List.suffix_cons ..
  case h_6 more =>
    cases hrepeat : scanRepeat more with | mk kind after =>
    rw [hrepeat] at h
    dsimp only at h
    split at h
    · cases h
    · cases h
      exact (suffix_scanRepeat hrepeat).trans (List.suffix_cons ..)
  case h_9 more =>
    split at h
    case h_1 name after hname =>
      split at h
      · cases h
        exact (suffix_scanName hname).trans (List.suffix_cons ..)
      · cases h
    case h_2 => cases h
  case h_10 more =>
    split at h
    · cases h
      exact List.suffix_cons ..
    · split at h
      case h_1 name after hname =>
        cases h
        exact (List.suffix_cons ..).trans ((suffix_scanName hname).trans (List.suffix_cons ..))
      case h_2 => cases h
  case h_11 => exact hquoted h
  case h_12 => exact hquoted h
  case h_13 =>
    obtain ⟨⟨token, stop⟩, hname, heq⟩ := Option.map_eq_some_iff.mp h
    cases heq
    exact suffix_scanNameLike hname

theorem suffix_tokenize : ∀ {fuel : Nat} {cs rest : List Char} {tokens : List Token},
    tokenize fuel cs = some (tokens, rest) → rest <:+ cs
  | 0, _, _, _, h => nomatch h
  | fuel + 1, cs, rest, tokens, h => by
    have hspace := suffix_skipSpace cs
    unfold tokenize at h
    generalize skipSpace cs = after at h hspace
    split at h
    case h_1 =>
      split at h
      · cases h
      · cases h
        exact (List.suffix_cons ..).trans hspace
    case h_2 =>
      obtain ⟨⟨token?, stop⟩, htoken, hread⟩ := Option.bind_eq_some_iff.mp h
      obtain ⟨⟨others, stop'⟩, hothers, hfinal⟩ := Option.bind_eq_some_iff.mp hread
      cases hfinal
      exact (suffix_tokenize hothers).trans ((suffix_scanToken htoken).trans hspace)

/-! ## The declaration -/

theorem suffix_scanSystem (h : scanDoctypeId.scanSystem cs = some rest) : rest <:+ cs := by
  unfold scanDoctypeId.scanSystem at h
  split at h
  case h_1 value more hquoted =>
    split at h
    · cases h
      exact (suffix_scanQuoted hquoted).trans (suffix_skipSpace cs)
    · cases h
  case h_2 => cases h

theorem suffix_scanDoctypeId {outside : Bool} (h : scanDoctypeId cs = some (outside, rest)) :
    rest <:+ cs := by
  unfold scanDoctypeId at h
  split at h
  case h_1 more hpre =>
    have hmore := suffix_of_isPrefixOf? hpre
    split at h
    · obtain ⟨stop, hsystem, heq⟩ := Option.map_eq_some_iff.mp h
      cases heq
      exact (suffix_scanSystem hsystem).trans hmore
    · cases h
  case h_2 =>
    split at h
    case h_1 more hpre =>
      have hmore := suffix_of_isPrefixOf? hpre
      split at h
      · unfold scanDoctypeId.scanPublic at h
        split at h
        case h_1 value after hquoted =>
          have hafter := (suffix_scanQuoted hquoted).trans (suffix_skipSpace more)
          split at h
          · obtain ⟨stop, hsystem, heq⟩ := Option.map_eq_some_iff.mp h
            cases heq
            exact (suffix_scanSystem hsystem).trans (hafter.trans hmore)
          · cases h
        case h_2 => cases h
      · cases h
    case h_2 =>
      cases h
      exact List.suffix_refl _

/-- **What follows a document type declaration** is an end of the text. -/
theorem suffix_scanDoctype {standalone : Bool} {dtd : Dtd}
    (h : scanDoctype standalone cs = some (dtd, rest)) : rest <:+ cs := by
  unfold scanDoctype at h
  split at h
  case isTrue => cases h
  case isFalse =>
    obtain ⟨⟨name, afterName⟩, hname, h⟩ := Option.bind_eq_some_iff.mp h
    have hafterName := (suffix_scanTagName hname).trans (suffix_skipSpace cs)
    dsimp only at h
    split at h
    case isTrue => cases h
    case isFalse =>
      obtain ⟨⟨outside, afterId⟩, hid, h⟩ := Option.bind_eq_some_iff.mp h
      have hafterId := (suffix_scanDoctypeId hid).trans
        ((suffix_skipSpace afterName).trans hafterName)
      have hspace := (suffix_skipSpace afterId).trans hafterId
      dsimp only at h
      generalize skipSpace afterId = after at h hspace
      split at h
      case h_1 =>
        cases h
        exact (List.suffix_cons ..).trans hspace
      case h_2 inside =>
        obtain ⟨⟨tokens, more⟩, htokens, h⟩ := Option.bind_eq_some_iff.mp h
        obtain ⟨seen, hseen, h⟩ := Option.bind_eq_some_iff.mp h
        have hmore := (suffix_tokenize htokens).trans ((List.suffix_cons ..).trans hspace)
        have hend := (suffix_skipSpace more).trans hmore
        generalize skipSpace more = stop at h hend
        split at h
        case h_1 =>
          cases h
          exact (List.suffix_cons ..).trans hend
        case h_2 => cases h
      case h_3 => cases h

end Suffix

end Rollout.Xml
