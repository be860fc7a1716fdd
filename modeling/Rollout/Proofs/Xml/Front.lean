import Rollout.Proofs.Xml.Lookahead
import Rollout.Proofs.Xml.Reading

/-!
# What stands before the root

The front of a document is read in the same way whatever root follows it.

- `scanToken_reads`, `tokenize_append`: the declarations between the brackets.
- `scanDoctype_closes`: **a document type declaration** is scanned whatever follows it.
- `Reading.replaceRoot`: **another root** behind the front of a document.
-/

namespace Rollout.Xml

/-! ## Tokens -/

theorem exists_cons_of_head? {cs : List Char} {c : Char} {more : List Char}
    (h : cs.head? = (c :: more).head?) : ∃ more', cs = c :: more' := by
  cases cs with
  | nil => cases h
  | cons d more' =>
    cases h
    exact ⟨more', rfl⟩

theorem endsAt_congr {marks rest rest' : List Char} (h : rest'.head? = rest.head?) :
    endsAt marks rest' = endsAt marks rest := by
  cases rest with
  | nil =>
    cases rest' with
    | nil => rfl
    | cons => cases h
  | cons c rest =>
    cases rest' with
    | nil => cases h
    | cons =>
      cases h
      rfl

/-- The sign behind a name or a group, or none. -/
theorem scanRepeat_cases {cs rest : List Char} {kind : Repeat} (h : scanRepeat cs = (kind, rest)) :
    (kind = .once ∧ rest = cs ∧ ∀ cs', cs'.head? = cs.head? → scanRepeat cs' = (.once, cs')) ∨
      (kind ≠ .once ∧ ∃ sign, cs = sign :: rest ∧
        ∀ rest', scanRepeat (sign :: rest') = (kind, rest')) := by
  unfold scanRepeat at h
  split at h
  case h_1 | h_2 | h_3 =>
    cases h
    exact .inr ⟨nofun, _, rfl, fun _ => rfl⟩
  case h_4 hoptional hany hsome =>
    cases h
    refine .inl ⟨rfl, rfl, fun cs' hhead => ?_⟩
    cases cs' with
    | nil => rfl
    | cons sign cs' =>
      obtain ⟨more, rfl⟩ := exists_cons_of_head? hhead.symm
      rw [scanRepeat]
      · exact fun _ heq => hoptional _ (by rw [(List.cons.inj heq).1])
      · exact fun _ heq => hany _ (by rw [(List.cons.inj heq).1])
      · exact fun _ heq => hsome _ (by rw [(List.cons.inj heq).1])

theorem scanNameLike_reads : Reads scanNameLike := by
  intro cs token rest h
  unfold scanNameLike at h
  cases hspan : cs.span fun c => isNameChar c || c == ':' with | mk run after =>
  cases hrepeat : scanRepeat after with | mk kind more =>
  rw [hspan] at h
  dsimp only at h
  rw [hrepeat] at h
  obtain ⟨rfl, hrun, hstop⟩ := span_eq_iff.mp hspan
  have hcut : ∀ after', after'.head? = after.head? →
      (run ++ after').span (fun c => isNameChar c || c == ':') = (run, after') :=
    fun after' hhead => span_eq_iff.mpr ⟨rfl, hrun, hstop.congr hhead⟩
  dsimp only at h
  split at h
  case isTrue => cases h
  case isFalse hne =>
    rcases scanRepeat_cases hrepeat with ⟨rfl, rfl, honce⟩ | ⟨hkind, sign, rfl, hsign⟩
    · rw [if_pos rfl] at h
      split at h
      case isTrue hend =>
        cases h
        refine ⟨run, rfl, by simpa using hne, fun rest' hhead => ?_⟩
        unfold scanNameLike
        rw [hcut rest' hhead]
        dsimp only
        rw [honce rest' hhead, if_neg hne]
        dsimp only
        rw [if_pos rfl, endsAt_congr hhead, if_pos hend]
      case isFalse => cases h
    · rw [if_neg hkind] at h
      split at h
      case isTrue => cases h
      case isFalse hname =>
        cases h
        refine ⟨run ++ [sign], by simp, by simp, fun rest' _ => ?_⟩
        have htext : run ++ [sign] ++ rest' = run ++ sign :: rest' := by simp
        unfold scanNameLike
        rw [htext, hcut (sign :: rest') rfl]
        dsimp only
        rw [hsign rest', if_neg hne]
        dsimp only
        rw [if_neg hkind, if_neg hname]

/-- A literal ends at its closing quote, and a separator has to follow. -/
theorem quotedToken_reads (quote : Char) :
    Reads fun cs => scanToken.quotedToken (splitAt? [quote] cs) := by
  intro cs token? rest h
  dsimp only at h
  unfold scanToken.quotedToken at h
  split at h
  case h_1 text more hsplit =>
    split at h
    case isTrue hend =>
      cases h
      obtain ⟨used, rfl, hused⟩ := splitAt?_closes (List.cons_ne_nil _ _) hsplit
      have hne : used ≠ [] := by
        rintro rfl
        exact absurd (hused []) nofun
      refine ⟨used, rfl, hne, fun rest' hhead => ?_⟩
      dsimp only
      rw [hused rest']
      unfold scanToken.quotedToken
      dsimp only
      rw [endsAt_congr hhead, if_pos hend]
    case isFalse => cases h
  case h_2 => cases h

/-- The first character of a name or a name token. -/
theorem head_of_scanNameLike {cs rest : List Char} {token : Token}
    (h : scanNameLike cs = some (token, rest)) :
    ∃ c more, cs = c :: more ∧ (isNameChar c || c == ':') = true := by
  unfold scanNameLike at h
  cases hspan : cs.span fun c => isNameChar c || c == ':' with | mk run after =>
  rw [hspan] at h
  obtain ⟨rfl, hrun, -⟩ := span_eq_iff.mp hspan
  cases run with
  | nil => cases h
  | cons c run => exact ⟨c, run ++ after, rfl, hrun c (List.mem_cons_self ..)⟩

/-! ## Kinds of tokens -/

section Kinds

variable {cs rest : List Char}

/-- A keyword ends at white space. -/
theorem scanToken_keyword {letters : List Char} (hspan : cs.span isNameStart = (letters, rest))
    (hend : ¬ (letters.isEmpty || !endsAt [] rest) = true) :
    ReadsAt scanToken ('<' :: '!' :: cs) (some (.keyword letters)) rest := by
  obtain ⟨rfl, hletters, hstop⟩ := span_eq_iff.mp hspan
  refine ⟨'<' :: '!' :: letters, rfl, List.cons_ne_nil _ _, fun rest' hhead => ?_⟩
  have hcut : (letters ++ rest').span isNameStart = (letters, rest') :=
    span_eq_iff.mpr ⟨rfl, hletters, hstop.congr hhead⟩
  show scanToken ('<' :: '!' :: (letters ++ rest')) = _
  rw [scanToken, hcut]
  · dsimp only
    rw [endsAt_congr hhead, if_neg hend]
  · -- the keyword has a letter, so that no comment begins
    intro comment heq
    cases letters with
    | nil => exact hend rfl
    | cons c letters =>
      have hc := hletters c (List.mem_cons_self ..)
      rw [(List.cons.inj heq).1] at hc
      exact absurd hc (by decide +kernel)

/-- The end of a group, with or without a sign behind it. -/
theorem scanToken_right {kind : Repeat} (hrepeat : scanRepeat cs = (kind, rest))
    (hend : ¬ (decide (kind = .once) && !endsAt ['>', ',', '|', ')'] rest) = true) :
    ReadsAt scanToken (')' :: cs) (some (.right kind)) rest := by
  rcases scanRepeat_cases hrepeat with ⟨rfl, rfl, honce⟩ | ⟨hkind, sign, rfl, hsign⟩
  · refine ⟨[')'], rfl, List.cons_ne_nil _ _, fun rest' hhead => ?_⟩
    show scanToken (')' :: rest') = _
    rw [scanToken, honce rest' hhead]
    dsimp only
    rw [endsAt_congr hhead, if_neg hend]
  · refine ⟨[')', sign], rfl, List.cons_ne_nil _ _, fun rest' _ => ?_⟩
    show scanToken (')' :: sign :: rest') = _
    rw [scanToken, hsign rest']
    dsimp only
    rw [decide_eq_false hkind, Bool.false_and, if_neg Bool.false_ne_true]

/-- A marked name. -/
theorem scanToken_marked {name : List Char} (hname : scanName cs = some (name, rest))
    (hend : endsAt [')', '>', '%', '|'] rest = true) :
    ReadsAt scanToken ('#' :: cs) (some (.marked name)) rest := by
  obtain ⟨used, rfl, -, hused⟩ := scanName_reads hname
  refine ⟨'#' :: used, rfl, List.cons_ne_nil _ _, fun rest' hhead => ?_⟩
  show scanToken ('#' :: (used ++ rest')) = _
  rw [scanToken, hused rest' hhead]
  dsimp only
  rw [endsAt_congr hhead, if_pos hend]

/-- A percent sign that stands alone. -/
theorem scanToken_percent (hend : endsAt ['%'] cs = true) :
    ReadsAt scanToken ('%' :: cs) (some .percent) cs := by
  refine ⟨['%'], rfl, List.cons_ne_nil _ _, fun rest' hhead => ?_⟩
  show scanToken ('%' :: rest') = _
  rw [scanToken, endsAt_congr hhead, if_pos hend]

/-- A reference to a parameter entity. -/
theorem scanToken_parameter {name : List Char} (hname : ¬ endsAt ['%'] cs = true)
    (hscan : scanName cs = some (name, ';' :: rest)) :
    ReadsAt scanToken ('%' :: cs) (some .parameter) rest := by
  obtain ⟨used, rfl, -, hused⟩ := scanName_reads hscan
  refine ⟨'%' :: (used ++ [';']), by simp, List.cons_ne_nil _ _, fun rest' _ => ?_⟩
  have htext : '%' :: (used ++ [';']) ++ rest' = '%' :: (used ++ ';' :: rest') := by simp
  have hhead : (used ++ ';' :: rest').head? = (used ++ ';' :: rest).head? :=
    head?_append_congr (by rfl) used
  rw [htext, scanToken, endsAt_congr hhead, if_neg hname, hused (';' :: rest') rfl]
  rfl

/-- A name or a name token. -/
theorem scanToken_nameLike {token : Token} (hname : scanNameLike cs = some (token, rest)) :
    ReadsAt scanToken cs (some token) rest := by
  obtain ⟨used, rfl, hne, hused⟩ := scanNameLike_reads hname
  refine ⟨used, rfl, hne, fun rest' hhead => ?_⟩
  have hscan := hused rest' hhead
  obtain ⟨c, more, hc, hclass⟩ := head_of_scanNameLike hscan
  -- its first character begins no other token
  have hother : ∀ {d : Char} {after : List Char}, used ++ rest' = d :: after →
      (isNameChar d || d == ':') = false → False := fun heq hd => by
    rw [hc] at heq
    rw [(List.cons.inj heq).1, hd] at hclass
    cases hclass
  unfold scanToken
  split
  case h_13 =>
    rw [hscan]
    rfl
  all_goals
    rename_i heq
    exact (hother heq (by decide +kernel)).elim

end Kinds

theorem scanToken_reads : Reads scanToken := by
  intro cs token? rest h
  unfold scanToken at h
  split at h
  case h_1 more =>
    obtain ⟨used, rfl, hused⟩ := scanComment_closes.map (fun _ => none) h
    exact ⟨'<' :: '!' :: '-' :: '-' :: used, rfl, List.cons_ne_nil _ _, fun rest' _ => hused rest'⟩
  case h_2 more _ =>
    cases hspan : more.span isNameStart with | mk letters after =>
    rw [hspan] at h
    dsimp only at h
    split at h
    case isTrue => cases h
    case isFalse hend =>
      cases h
      exact scanToken_keyword hspan hend
  case h_3 more =>
    obtain ⟨used, rfl, hused⟩ := scanInstruction_closes.map (fun _ => none) h
    exact ⟨'<' :: '?' :: used, rfl, List.cons_ne_nil _ _, fun rest' _ => hused rest'⟩
  case h_4 | h_5 | h_7 | h_8 =>
    cases h
    exact ⟨[_], rfl, List.cons_ne_nil _ _, fun _ _ => rfl⟩
  case h_6 more =>
    cases hrepeat : scanRepeat more with | mk kind after =>
    rw [hrepeat] at h
    dsimp only at h
    split at h
    case isTrue => cases h
    case isFalse hend =>
      cases h
      exact scanToken_right hrepeat hend
  case h_9 more =>
    split at h
    case h_1 name after hname =>
      split at h
      case isTrue hend =>
        cases h
        exact scanToken_marked hname hend
      case isFalse => cases h
    case h_2 => cases h
  case h_10 more =>
    split at h
    case isTrue hend =>
      cases h
      exact scanToken_percent hend
    case isFalse hname =>
      split at h
      case h_1 name after hscan =>
        cases h
        exact scanToken_parameter hname hscan
      case h_2 => cases h
  case h_11 | h_12 =>
    obtain ⟨used, rfl, -, hused⟩ := quotedToken_reads _ h
    exact ⟨_ :: used, rfl, List.cons_ne_nil _ _, hused⟩
  case h_13 =>
    obtain ⟨⟨token, stop⟩, hname, heq⟩ := Option.map_eq_some_iff.mp h
    cases heq
    exact scanToken_nameLike hname

/-- The tokens up to the closing bracket are the same whatever follows it, another bracket aside,
and whatever bounds their number. -/
theorem tokenize_append : ∀ {fuel : Nat} {cs rest : List Char} {tokens : List Token},
    tokenize fuel cs = some (tokens, rest) → ∃ used, cs = used ++ rest ∧
      ∀ rest' fuel', rest'.head? ≠ some ']' → used.length < fuel' →
        tokenize fuel' (used ++ rest') = some (tokens, rest')
  | 0, _, _, _, h => nomatch h
  | fuel + 1, cs, rest, tokens, h => by
    obtain ⟨run, hrun, hstop, hskip⟩ := exists_skipSpace cs
    unfold tokenize at h
    generalize skipSpace cs = after at h hrun hstop
    subst hrun
    split at h
    case h_1 more =>
      split at h
      case isTrue => cases h
      case isFalse hdata =>
        cases h
        refine ⟨run ++ [']'], by simp, fun rest' fuel' hrest hfuel => ?_⟩
        obtain ⟨fuel', rfl⟩ := Nat.exists_eq_add_one_of_ne_zero (Nat.ne_zero_of_lt hfuel)
        have htext : run ++ [']'] ++ rest' = run ++ ']' :: rest' := by simp
        have hquiet : "]>".toList.isPrefixOf rest' = false := by
          rw [Bool.eq_false_iff]
          intro hpre
          obtain ⟨more, rfl⟩ := List.isPrefixOf_iff_prefix.mp hpre
          exact hrest rfl
        unfold tokenize
        rw [htext, hskip _ (stopsAt_cons.mpr (by decide))]
        show (if "]>".toList.isPrefixOf rest' = true then none else some ([], rest')) = _
        rw [hquiet, if_neg Bool.false_ne_true]
    case h_2 hbracket =>
      obtain ⟨⟨token?, stop⟩, htoken, hread⟩ := Option.bind_eq_some_iff.mp h
      obtain ⟨⟨others, stop'⟩, hothers, heq⟩ := Option.bind_eq_some_iff.mp hread
      cases heq
      obtain ⟨text, rfl, hne, hscan⟩ := scanToken_reads htoken
      obtain ⟨used, rfl, hused⟩ := tokenize_append hothers
      obtain ⟨c, text, rfl⟩ := List.exists_cons_of_ne_nil hne
      refine ⟨run ++ (c :: text ++ used), by simp, fun rest' fuel' hrest hfuel => ?_⟩
      obtain ⟨fuel', rfl⟩ := Nat.exists_eq_add_one_of_ne_zero (Nat.ne_zero_of_lt hfuel)
      simp only [List.length_append, List.length_cons] at hfuel
      have hothers := hused rest' fuel' hrest (by omega)
      -- the closing bracket is among what is taken, so that nothing else is looked at
      have hhead : (used ++ rest').head? = (used ++ rest).head? := by
        cases used with
        | nil => exact absurd (hused [] 1 nofun Nat.one_pos) nofun
        | cons => rfl
      have htoken := hscan (used ++ rest') hhead
      have htext : run ++ (c :: text ++ used) ++ rest' = run ++ (c :: text ++ (used ++ rest')) := by
        simp
      have hskip := hskip (c :: text ++ (used ++ rest')) (stopsAt_cons.mpr (stopsAt_cons.mp hstop))
      unfold tokenize
      rw [htext, hskip]
      split
      case h_1 heq => exact (hbracket _ (by rw [(List.cons.inj heq).1]; rfl)).elim
      case h_2 =>
        rw [htoken]
        show Option.bind (tokenize fuel' (used ++ rest')) _ = _
        rw [hothers]
        rfl

/-! ## The declaration -/

/-- An identifier ends at its closing quote, and a separator has to follow. -/
theorem scanSystem_append {cs rest : List Char} (h : scanDoctypeId.scanSystem cs = some rest) :
    ∃ used, cs = used ++ rest ∧ ∀ rest', rest'.head? = rest.head? →
      scanDoctypeId.scanSystem (used ++ rest') = some rest' := by
  unfold scanDoctypeId.scanSystem at h
  split at h
  case h_1 value more hquoted =>
    split at h
    case isTrue hend =>
      cases h
      obtain ⟨used, rfl, hused⟩ := scanQuoted_skipSpace hquoted
      refine ⟨used, rfl, fun rest' hhead => ?_⟩
      unfold scanDoctypeId.scanSystem
      rw [hused rest']
      dsimp only
      rw [endsAt_congr hhead, if_pos hend]
    case isFalse => cases h
  case h_2 => cases h

theorem scanPublic_append {cs rest : List Char} {outside : Bool}
    (h : scanDoctypeId.scanPublic cs = some (outside, rest)) :
    ∃ used, cs = used ++ rest ∧ ∀ rest', rest'.head? = rest.head? →
      scanDoctypeId.scanPublic (used ++ rest') = some (outside, rest') := by
  unfold scanDoctypeId.scanPublic at h
  split at h
  case h_1 publicId more hquoted =>
    split at h
    case isTrue hend =>
      obtain ⟨stop, hsystem, heq⟩ := Option.map_eq_some_iff.mp h
      cases heq
      obtain ⟨text, rfl, hscan⟩ := scanQuoted_skipSpace hquoted
      obtain ⟨used, rfl, hused⟩ := scanSystem_append hsystem
      refine ⟨text ++ used, by simp, fun rest' hhead => ?_⟩
      unfold scanDoctypeId.scanPublic
      rw [List.append_assoc, hscan (used ++ rest')]
      dsimp only
      rw [endsAt_congr (head?_append_congr hhead used), if_pos hend, hused rest' hhead]
      rfl
    case isFalse => cases h
  case h_2 => cases h

/-- The identifier of a document type, if there is one. -/
theorem scanDoctypeId_cases {cs rest : List Char} {outside : Bool}
    (h : scanDoctypeId cs = some (outside, rest)) : (outside = false ∧ rest = cs) ∨
      ∃ used, cs = used ++ rest ∧ ∀ rest', rest'.head? = rest.head? →
        scanDoctypeId (used ++ rest') = some (outside, rest') := by
  unfold scanDoctypeId at h
  split at h
  case h_1 more hpre =>
    obtain rfl := List.isPrefixOf?_eq_some_iff_append_eq.mp hpre
    split at h
    case isTrue hend =>
      obtain ⟨stop, hsystem, heq⟩ := Option.map_eq_some_iff.mp h
      cases heq
      obtain ⟨used, rfl, hused⟩ := scanSystem_append hsystem
      refine .inr ⟨"SYSTEM".toList ++ used, by simp, fun rest' hhead => ?_⟩
      have hpre' : "SYSTEM".toList.isPrefixOf? ("SYSTEM".toList ++ used ++ rest')
          = some (used ++ rest') :=
        List.isPrefixOf?_eq_some_iff_append_eq.mpr (by simp)
      unfold scanDoctypeId
      rw [hpre']
      dsimp only
      rw [endsAt_congr (head?_append_congr hhead used), if_pos hend, hused rest' hhead]
      rfl
    case isFalse => cases h
  case h_2 hsystem =>
    split at h
    case h_1 more hpre =>
      obtain rfl := List.isPrefixOf?_eq_some_iff_append_eq.mp hpre
      split at h
      case isTrue hend =>
        obtain ⟨used, rfl, hused⟩ := scanPublic_append h
        refine .inr ⟨"PUBLIC".toList ++ used, by simp, fun rest' hhead => ?_⟩
        have hpre' : "PUBLIC".toList.isPrefixOf? ("PUBLIC".toList ++ used ++ rest')
            = some (used ++ rest') :=
          List.isPrefixOf?_eq_some_iff_append_eq.mpr (by simp)
        have hother : "SYSTEM".toList.isPrefixOf? ("PUBLIC".toList ++ used ++ rest') = none := rfl
        unfold scanDoctypeId
        rw [hother, hpre']
        dsimp only
        rw [endsAt_congr (head?_append_congr hhead used), if_pos hend, hused rest' hhead]
      case isFalse => cases h
    case h_2 =>
      cases h
      exact .inl ⟨rfl, rfl⟩

/-- The end of a document type declaration, before it the declarations in brackets if there are
any. -/
def scanDoctypeEnd (standalone : Bool) (start : Dtd) (cs : List Char) : Option (Dtd × List Char) :=
  match skipSpace cs with
  | '>' :: more => pure (start, more)
  | '[' :: inside => do
    let (tokens, more) ← tokenize (inside.length + 1) inside
    let seen ← readSubset (tokens.length + 1) ⟨start, true, standalone⟩ tokens
    match skipSpace more with
    | '>' :: after => pure (seen.dtd, after)
    | _ => none
  | _ => none

theorem head_of_scanDoctypeEnd {standalone : Bool} {start dtd : Dtd} {cs rest : List Char}
    (h : scanDoctypeEnd standalone start cs = some (dtd, rest)) :
    ∃ c more, skipSpace cs = c :: more ∧ (c = '>' ∨ c = '[') := by
  unfold scanDoctypeEnd at h
  split at h
  case h_1 more heq => exact ⟨'>', more, heq, .inl rfl⟩
  case h_2 inside heq => exact ⟨'[', inside, heq, .inr rfl⟩
  case h_3 => cases h

theorem scanDoctypeEnd_closes (standalone : Bool) (start : Dtd) :
    Closes (scanDoctypeEnd standalone start) := by
  intro cs dtd rest h
  obtain ⟨run, hrun, hstop, hskip⟩ := exists_skipSpace cs
  unfold scanDoctypeEnd at h
  generalize skipSpace cs = after at h hrun hstop
  subst hrun
  split at h
  case h_1 more =>
    cases h
    refine ⟨run ++ ['>'], by simp, fun rest' => ?_⟩
    have htext : run ++ ['>'] ++ rest' = run ++ '>' :: rest' := by simp
    unfold scanDoctypeEnd
    rw [htext, hskip _ (stopsAt_cons.mpr (by decide))]
    rfl
  case h_2 inside =>
    obtain ⟨⟨tokens, more⟩, htokens, hread⟩ := Option.bind_eq_some_iff.mp h
    obtain ⟨seen, hseen, hlast⟩ := Option.bind_eq_some_iff.mp hread
    clear h hread
    obtain ⟨used, rfl, hused⟩ := tokenize_append htokens
    obtain ⟨run', hrun', hstop', hskip'⟩ := exists_skipSpace more
    generalize skipSpace more = last at hlast hrun' hstop'
    subst hrun'
    split at hlast
    case h_1 after =>
      cases hlast
      refine ⟨run ++ '[' :: (used ++ (run' ++ ['>'])), by simp, fun rest' => ?_⟩
      have htext : run ++ '[' :: (used ++ (run' ++ ['>'])) ++ rest'
          = run ++ '[' :: (used ++ (run' ++ '>' :: rest')) := by simp
      have hbracket : (run' ++ '>' :: rest').head? ≠ some ']' := by
        cases run' with
        | nil => exact nofun
        | cons c run' =>
          rintro ⟨⟩
          -- a bracket is no white space, so that it would be the end of the declaration
          have hend := hskip' ('>' :: rest') (stopsAt_cons.mpr (by decide))
          exact absurd (List.cons.inj hend).1 (by decide)
      have htokens := hused (run' ++ '>' :: rest')
        ((used ++ (run' ++ '>' :: rest')).length + 1) hbracket (by rw [List.length_append]; omega)
      unfold scanDoctypeEnd
      rw [htext, hskip _ (stopsAt_cons.mpr (by decide))]
      show Option.bind (tokenize _ (used ++ (run' ++ '>' :: rest'))) _ = _
      rw [htokens]
      show Option.bind (readSubset _ _ tokens) _ = _
      rw [hseen]
      dsimp only [Option.bind_some]
      rw [hskip' _ (stopsAt_cons.mpr (by decide))]
      rfl
    case h_2 => cases hlast
  case h_3 => cases h

/-- The identifier of a document type, or none, is scanned in front of an end of the declaration,
whatever follows that. -/
theorem exists_scanDoctypeId {cs last rest more : List Char} {outside : Bool} {c d : Char}
    (h : scanDoctypeId (skipSpace cs) = some (outside, d :: last ++ rest))
    (hhead : skipSpace (d :: last ++ rest) = c :: more) (hc : c = '>' ∨ c = '[') :
    ∃ ident, skipSpace cs = ident ++ (d :: last ++ rest) ∧
      ∀ rest', scanDoctypeId (ident ++ (d :: last ++ rest'))
        = some (outside, d :: last ++ rest') := by
  rcases scanDoctypeId_cases h with ⟨rfl, hnone⟩ | ⟨used, hused, hscan⟩
  · refine ⟨[], hnone.symm, fun rest' => ?_⟩
    obtain ⟨-, -, hstop, -⟩ := exists_skipSpace cs
    rw [← hnone] at hstop
    have hspace : skipSpace (d :: (last ++ rest)) = d :: (last ++ rest) :=
      List.dropWhile_cons_of_neg (Bool.eq_false_iff.mp (stopsAt_cons.mp hstop))
    rw [List.cons_append, hspace] at hhead
    obtain rfl := (List.cons.inj hhead).1
    rcases hc with rfl | rfl <;> rfl
  · exact ⟨used, hused, fun rest' => hscan _ rfl⟩

/-- **A document type declaration** is scanned whatever follows it. -/
theorem scanDoctype_closes (standalone : Bool) : Closes (scanDoctype standalone) := by
  intro cs dtd rest h
  unfold scanDoctype at h
  split at h
  case isTrue => cases h
  case isFalse hfirst =>
    obtain ⟨⟨name, afterName⟩, hname, h⟩ := Option.bind_eq_some_iff.mp h
    dsimp only at h
    split at h
    case isTrue => cases h
    case isFalse hseparated =>
      obtain ⟨⟨outside, afterId⟩, hid, h⟩ := Option.bind_eq_some_iff.mp h
      obtain ⟨start, hstart⟩ : ∃ start : Dtd,
        start = { Dtd.empty with incomplete := outside && !standalone } := ⟨_, rfl⟩
      have hend : scanDoctypeEnd standalone start afterId = some (dtd, rest) := hstart ▸ h
      obtain ⟨c, more, hhead, hc⟩ := head_of_scanDoctypeEnd hend
      obtain ⟨last, rfl, hclosed⟩ := scanDoctypeEnd_closes standalone start hend
      obtain ⟨run, hrun, hstop, hskip⟩ := exists_skipSpace cs
      obtain ⟨run', hrun', hstop', hskip'⟩ := exists_skipSpace afterName
      obtain ⟨text, htext, hne, hscan⟩ := scanTagName_reads hname
      obtain ⟨d, last, rfl⟩ : ∃ d last', last = d :: last' := by
        cases last with
        | nil => exact absurd (hclosed []) nofun
        | cons d last => exact ⟨d, last, rfl⟩
      obtain ⟨ident, hident, hscanId⟩ := exists_scanDoctypeId hid hhead hc
      rw [hident] at hrun' hstop'
      rw [htext] at hrun hstop
      subst hrun'
      obtain ⟨e, text, rfl⟩ := List.exists_cons_of_ne_nil hne
      refine ⟨run ++ (e :: text ++ (run' ++ (ident ++ d :: last))), by rw [hrun]; simp,
        fun rest' => ?_⟩
      have hwhole : run ++ (e :: text ++ (run' ++ (ident ++ d :: last))) ++ rest'
          = run ++ (e :: text ++ (run' ++ (ident ++ (d :: last ++ rest')))) := by simp
      have hsame : (ident ++ (d :: last ++ rest')).head? = (ident ++ (d :: last ++ rest)).head? :=
        head?_append_congr (by rfl) ident
      have hsame' := head?_append_congr hsame run'
      have hspace := hskip (e :: text ++ (run' ++ (ident ++ (d :: last ++ rest'))))
        (stopsAt_cons.mpr (stopsAt_cons.mp hstop))
      have hfirst' : endsAt [] (run ++ (e :: text ++ (run' ++ (ident ++ (d :: last ++ rest')))))
          = endsAt [] cs := by
        rw [hrun]
        exact endsAt_congr (head?_append_congr (by rfl) run)
      rw [hwhole]
      unfold scanDoctype
      rw [hfirst', if_neg hfirst, hspace, hscan _ hsame']
      dsimp only [Option.bind_eq_bind, Option.bind_some]
      rw [endsAt_congr hsame', if_neg hseparated, hskip' _ (hstop'.congr hsame), hscanId rest']
      subst hstart
      exact hclosed rest'

/-! ## Another root -/

/-- The mark of the encoding, or nothing, in front of a text that begins as before. -/
theorem exists_mark (text : List Char) : ∃ mark, text = mark ++ withoutMark text ∧
    ∀ cs, cs.head? = (withoutMark text).head? → withoutMark (mark ++ cs) = cs := by
  cases text with
  | nil =>
    refine ⟨[], rfl, fun cs hhead => ?_⟩
    cases cs with
    | nil => rfl
    | cons => cases hhead
  | cons c text =>
    cases hmark : c.toNat == 0xFEFF with
    | true =>
      have hwithout : ∀ cs, withoutMark (c :: cs) = cs := fun cs => if_pos hmark
      exact ⟨[c], by rw [hwithout]; rfl, fun cs _ => hwithout cs⟩
    | false =>
      have hwithout : ∀ cs, withoutMark (c :: cs) = c :: cs := fun cs =>
        if_neg (by rw [hmark]; decide)
      refine ⟨[], (hwithout text).symm, fun cs hhead => ?_⟩
      rw [hwithout] at hhead
      obtain ⟨more, rfl⟩ := exists_cons_of_head? hhead
      exact hwithout more

/-- The XML declaration, if there is one, is the same whatever follows what stands behind it. -/
theorem scanDeclaration_append {cs used rest : List Char} {alone : Bool}
    (h : scanDeclaration cs = some (alone, used ++ rest)) (hmisc : Misc used)
    (hrest : ∀ more, rest ≠ '<' :: '?' :: more) :
    ∃ front, cs = front ++ (used ++ rest) ∧ ∀ rest', (∀ more, rest' ≠ '<' :: '?' :: more) →
      scanDeclaration (front ++ (used ++ rest')) = some (alone, used ++ rest') := by
  rcases scanDeclaration_cases h with heq | ⟨inside, hinside, -, hscan⟩
  · refine ⟨[], heq.symm, fun rest' hrest' => ?_⟩
    -- without a declaration the document does not stand alone
    have hnone := scanDeclaration_of_misc hmisc hrest
    rw [heq, h] at hnone
    obtain rfl : alone = false := congrArg Prod.fst (Option.some.inj hnone)
    show scanDeclaration (used ++ rest') = _
    exact scanDeclaration_of_misc hmisc hrest'
  · exact ⟨_, hinside, fun rest' _ => hscan (used ++ rest')⟩

/-- The declaration of a type begins with no white space, comment or instruction. -/
theorem skipMisc_doctype (more : List Char) (fuel : Nat) :
    skipMisc (fuel + 1) ("<!DOCTYPE".toList ++ more) = some ("<!DOCTYPE".toList ++ more) := rfl

theorem scanType_doctype (standalone : Bool) (more : List Char) :
    scanType standalone ("<!DOCTYPE".toList ++ more) = scanDoctype standalone more := rfl

namespace Reading

variable {text : List Char} {root : Node} (r : Reading text root)

/-- The steps that lead to the root are taken in the same way whatever root there is. -/
theorem exists_front : ∃ front, withoutMark text = front ++ r.fromRoot ∧
    ∀ fromRoot, atStartTag fromRoot = true → ∃ afterDeclaration afterMisc afterType,
      scanDeclaration (front ++ fromRoot) = some (r.standalone, afterDeclaration) ∧
      skipMisc (afterDeclaration.length + 1) afterDeclaration = some afterMisc ∧
      scanType r.standalone afterMisc = some (r.dtd, afterType) ∧
      skipMisc (afterType.length + 1) afterType = some fromRoot := by
  obtain ⟨first, hfirst, hmisc⟩ := exists_misc r.misc
  obtain ⟨second, hsecond, hmoreMisc⟩ := exists_misc r.moreMisc
  have hdeclaration := r.declaration
  cases hdeclares : r.declaresType with
  | false =>
    obtain ⟨hdtd, htype⟩ := r.dtd_eq_empty hdeclares
    rw [hfirst, ← htype, hsecond, ← List.append_assoc] at hdeclaration
    obtain ⟨front, hfront, hscan⟩ := scanDeclaration_append hdeclaration (hmisc.append hmoreMisc)
      (ne_instruction_of_atStartTag r.start)
    refine ⟨front ++ (first ++ second), by rw [hfront]; simp only [List.append_assoc],
      fun fromRoot hstart => ⟨first ++ second ++ fromRoot, fromRoot, fromRoot, ?_, ?_, ?_, ?_⟩⟩
    · rw [List.append_assoc]
      exact hscan fromRoot (ne_instruction_of_atStartTag hstart)
    · exact skipMisc_misc (hmisc.append hmoreMisc) hstart
    · rw [hdtd]
      exact scanType_of_not_declares (not_doctype_of_atStartTag hstart)
    · exact skipMisc_of_atStartTag hstart _
  | true =>
    obtain ⟨more, hmore⟩ : ∃ more, "<!DOCTYPE".toList ++ more = r.afterMisc :=
      List.isPrefixOf_iff_prefix.mp hdeclares
    have hdoctype := r.doctype
    rw [← hmore, scanType_doctype] at hdoctype
    obtain ⟨used, rfl, hused⟩ := scanDoctype_closes r.standalone hdoctype
    rw [hfirst, ← hmore] at hdeclaration
    obtain ⟨front, hfront, hscan⟩ := scanDeclaration_append hdeclaration hmisc nofun
    refine ⟨front ++ (first ++ ("<!DOCTYPE".toList ++ (used ++ second))), ?_, fun fromRoot hstart =>
      ⟨first ++ ("<!DOCTYPE".toList ++ (used ++ (second ++ fromRoot))),
        "<!DOCTYPE".toList ++ (used ++ (second ++ fromRoot)), second ++ fromRoot, ?_, ?_, ?_, ?_⟩⟩
    · rw [hfront, hsecond]
      simp only [List.append_assoc]
    · have htext := hscan ("<!DOCTYPE".toList ++ (used ++ (second ++ fromRoot))) nofun
      simpa only [List.append_assoc] using htext
    · exact skipMisc_append hmisc (skipMisc_doctype _) _ (by rw [List.length_append]; omega)
    · rw [scanType_doctype]
      exact hused (second ++ fromRoot)
    · exact skipMisc_misc hmoreMisc hstart

/-- **Another root** behind the front of a document. -/
theorem replaceRoot {fromRoot after : List Char} {pieces whole : List Piece} {root' : Node}
    (legal : Legal fromRoot) (start : atStartTag fromRoot = true)
    (scan : scanRoot (fromRoot.length + 1) 0 fromRoot = some (pieces, after))
    (expand : expandContent r.dtd r.dtd.depth pieces = some whole)
    (trailing : skipMisc (after.length + 1) after = some [])
    (build : buildTree r.dtd whole = some root') :
    Nonempty (Reading (r.before ++ fromRoot) root') := by
  obtain ⟨front, hfront, hsteps⟩ := r.exists_front
  obtain ⟨afterDeclaration, afterMisc, afterType, hdeclaration, hmisc, hdoctype, hmoreMisc⟩ :=
    hsteps fromRoot start
  obtain ⟨mark, hmark, hwithout⟩ := exists_mark text
  have hwhole : text = mark ++ front ++ r.fromRoot := by
    rw [List.append_assoc, ← hfront]
    exact hmark
  have hbefore : r.before = mark ++ front :=
    List.append_cancel_right (r.before_append.trans hwhole)
  have hhead : (front ++ fromRoot).head? = (withoutMark text).head? := by
    obtain ⟨c, more, hroot, -⟩ := atStartTag_iff.mp r.start
    obtain ⟨c', more', rfl, -⟩ := atStartTag_iff.mp start
    rw [hfront, hroot]
    exact head?_append_congr (by rfl) front
  have htext : withoutMark (r.before ++ fromRoot) = front ++ fromRoot := by
    rw [hbefore, List.append_assoc]
    exact hwithout _ hhead
  have hlegal : Legal (front ++ fromRoot) := by
    have hall : Legal (withoutMark text) := List.all_eq_true.mp r.legal
    rw [hfront] at hall
    exact legal_append.mpr ⟨(legal_append.mp hall).1, legal⟩
  refine ⟨⟨r.standalone, afterDeclaration, afterMisc, r.dtd, afterType, fromRoot, pieces, after,
    whole, ?_, ?_, hmisc, hdoctype, hmoreMisc, start, scan, expand, trailing, build⟩⟩
  · rw [htext]
    exact List.all_eq_true.mpr hlegal
  · rw [htext]
    exact hdeclaration

end Reading

end Rollout.Xml
