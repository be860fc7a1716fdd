import Rollout.Proofs.Xml.Parts
import Rollout.Xml.Reader

/-!
# Around the root

What may stand outside the root of a document, and that it is read in the same way whatever root
follows.

- `Misc`: comments, processing instructions and white space.
- `exists_misc`, `skipMisc_append`: what is skipped is just that.
- `scanDeclaration_cases`: the XML declaration, or none.
- `atStartTag_iff`: where a root begins.
-/

namespace Rollout.Xml

/-! ## Where a root begins -/

theorem atStartTag_iff {cs : List Char} :
    atStartTag cs = true ↔ ∃ c more, cs = '<' :: c :: more ∧ isNameStart c = true := by
  constructor
  · intro h
    unfold atStartTag at h
    split at h
    case h_1 c more => exact ⟨c, more, rfl, h⟩
    case h_2 => cases h
  · rintro ⟨c, more, rfl, hc⟩
    exact hc

/-- The mark of other markup does not begin a name. -/
theorem ne_of_isNameStart {c : Char} (h : isNameStart c = true) : c ≠ '!' ∧ c ≠ '?' ∧ c ≠ '/' :=
  ⟨ne_of_class h (by decide +kernel), ne_of_class h (by decide +kernel),
    ne_of_class h (by decide +kernel)⟩

theorem ne_instruction_of_atStartTag {cs : List Char} (h : atStartTag cs = true)
    (more : List Char) :
    cs ≠ '<' :: '?' :: more := by
  rintro rfl
  exact (ne_of_isNameStart h).2.1 rfl

/-! ## Comments, instructions and white space -/

/-- Comments, processing instructions and white space. -/
inductive Misc : List Char → Prop
  | nil : Misc []
  | space {c : Char} {cs : List Char} (blank : isSpace c = true) (rest : Misc cs) : Misc (c :: cs)
  | comment {raw cs : List Char} (unmarked : Unmarked ['-', '-'] raw) (rest : Misc cs) :
      Misc ('<' :: '!' :: '-' :: '-' :: (raw ++ ['-', '-'] ++ '>' :: cs))
  | instruction {target raw cs : List Char} (name : IsName target)
      (free : isReservedTarget target = false) (first : SpaceFirst raw)
      (unmarked : Unmarked ['?', '>'] raw) (rest : Misc cs) :
      Misc ('<' :: '?' :: (target ++ (raw ++ ['?', '>'] ++ cs)))

theorem Misc.append_space {front cs : List Char} (hfront : ∀ c ∈ front, isSpace c = true)
    (h : Misc cs) : Misc (front ++ cs) := by
  induction front with
  | nil => exact h
  | cons c front ih =>
    obtain ⟨hc, hfront⟩ := List.forall_mem_cons.mp hfront
    exact .space hc (ih hfront)

theorem Misc.append {a b : List Char} (ha : Misc a) (hb : Misc b) : Misc (a ++ b) := by
  induction ha with
  | nil => exact hb
  | space blank _ ih => exact .space blank ih
  | @comment raw cs unmarked _ ih =>
    have hcomment : Misc ('<' :: '!' :: '-' :: '-' :: (raw ++ ['-', '-'] ++ '>' :: (cs ++ b))) :=
      .comment unmarked ih
    simpa using hcomment
  | @instruction target raw cs name free first unmarked _ ih =>
    have hinstruction : Misc ('<' :: '?' :: (target ++ (raw ++ ['?', '>'] ++ (cs ++ b)))) :=
      .instruction name free first unmarked ih
    simpa using hinstruction

/-- What is skipped outside the root. -/
theorem exists_misc : ∀ {fuel : Nat} {cs rest : List Char}, skipMisc fuel cs = some rest →
    ∃ used, cs = used ++ rest ∧ Misc used
  | 0, _, _, h => nomatch h
  | fuel + 1, cs, rest, h => by
    obtain ⟨run, hcs, hrun, -⟩ := exists_eq_append_dropWhile isSpace cs
    rw [skipMisc] at h
    unfold skipSpace at h
    generalize cs.dropWhile isSpace = after at h hcs
    subst hcs
    split at h
    case h_1 more =>
      obtain ⟨⟨text, stop⟩, hcomment, hskip⟩ := Option.bind_eq_some_iff.mp h
      obtain ⟨raw, rfl, hunmarked, -⟩ := scanComment_eq_some.mp hcomment
      obtain ⟨used, rfl, hmisc⟩ := exists_misc hskip
      exact ⟨_, by simp, Misc.append_space hrun (.comment hunmarked hmisc)⟩
    case h_2 more =>
      obtain ⟨⟨⟨target, data⟩, stop⟩, hinstruction, hskip⟩ := Option.bind_eq_some_iff.mp h
      obtain ⟨raw, rfl, hname, hfree, hfirst, hunmarked, -⟩ :=
        scanInstruction_eq_some.mp hinstruction
      obtain ⟨used, rfl, hmisc⟩ := exists_misc hskip
      exact ⟨_, by simp, Misc.append_space hrun (.instruction hname hfree hfirst hunmarked hmisc)⟩
    case h_3 =>
      cases h
      exact ⟨run, rfl, by simpa using Misc.append_space hrun .nil⟩

theorem skipMisc_space {fuel : Nat} {c : Char} (hc : isSpace c = true) (cs : List Char) :
    skipMisc fuel (c :: cs) = skipMisc fuel cs := by
  cases fuel with
  | zero => rfl
  | succ fuel =>
    rw [skipMisc, skipMisc]
    unfold skipSpace
    rw [List.dropWhile_cons_of_pos hc]

/-- Nothing is skipped at the root. -/
theorem skipMisc_of_atStartTag {cs : List Char} (h : atStartTag cs = true) (fuel : Nat) :
    skipMisc (fuel + 1) cs = some cs := by
  obtain ⟨c, more, rfl, hc⟩ := atStartTag_iff.mp h
  obtain ⟨hbang, hquery, -⟩ := ne_of_isNameStart hc
  have hspace : skipSpace ('<' :: c :: more) = '<' :: c :: more := rfl
  rw [skipMisc, hspace]
  split
  case h_1 heq =>
    cases heq
    exact absurd rfl hbang
  case h_2 heq =>
    cases heq
    exact absurd rfl hquery
  case h_3 => rfl

/-- **Everything outside the root is skipped**, whatever follows it. -/
theorem skipMisc_append {used rest : List Char} (h : Misc used)
    (hstop : ∀ fuel, skipMisc (fuel + 1) rest = some rest) :
    ∀ fuel, used.length < fuel → skipMisc fuel (used ++ rest) = some rest := by
  induction h with
  | nil =>
    intro fuel hfuel
    obtain ⟨fuel, rfl⟩ := Nat.exists_eq_add_one_of_ne_zero (Nat.ne_of_gt hfuel)
    exact hstop fuel
  | @space c cs blank _ ih =>
    intro fuel hfuel
    show skipMisc fuel (c :: (cs ++ rest)) = some rest
    rw [skipMisc_space blank]
    exact ih fuel (by rw [List.length_cons] at hfuel; omega)
  | @comment raw cs unmarked _ ih =>
    intro fuel hfuel
    simp only [List.length_cons, List.length_append] at hfuel
    obtain ⟨fuel, rfl⟩ := Nat.exists_eq_add_one_of_ne_zero (n := fuel) (by omega)
    have hscan : scanComment (raw ++ ['-', '-'] ++ '>' :: cs ++ rest)
        = some (Text.unifyNewlineChars raw, cs ++ rest) :=
      scanComment_eq_some.mpr ⟨raw, by simp, unmarked, rfl⟩
    show skipMisc (fuel + 1)
      ('<' :: '!' :: '-' :: '-' :: (raw ++ ['-', '-'] ++ '>' :: cs ++ rest)) = _
    rw [skipMisc]
    show Option.bind (scanComment (raw ++ ['-', '-'] ++ '>' :: cs ++ rest)) _ = _
    rw [hscan]
    exact ih fuel (by omega)
  | @instruction target raw cs name free first unmarked _ ih =>
    intro fuel hfuel
    simp only [List.length_cons, List.length_append] at hfuel
    obtain ⟨fuel, rfl⟩ := Nat.exists_eq_add_one_of_ne_zero (n := fuel) (by omega)
    have hscan : scanInstruction (target ++ (raw ++ ['?', '>'] ++ cs) ++ rest)
        = some ((target, Text.unifyNewlineChars (skipSpace raw)), cs ++ rest) :=
      scanInstruction_eq_some.mpr ⟨raw, by simp, name, free, first, unmarked, rfl⟩
    show skipMisc (fuel + 1) ('<' :: '?' :: (target ++ (raw ++ ['?', '>'] ++ cs) ++ rest)) = _
    rw [skipMisc]
    show Option.bind (scanInstruction (target ++ (raw ++ ['?', '>'] ++ cs) ++ rest)) _ = _
    rw [hscan]
    exact ih fuel (by omega)

/-! ## The XML declaration -/

/-- A run of a class is a part of what such a run begins. -/
theorem exists_eq_append_of_run {p : Char → Bool} {run more front back : List Char}
    (h : run ++ more = front ++ back) (hrun : ∀ c ∈ run, p c = true) (hback : StopsAt p back) :
    ∃ middle, front = run ++ middle ∧ more = middle ++ back := by
  rcases List.append_eq_append_iff.mp h with ⟨middle, hfront, hmore⟩ | ⟨middle, hrunEq, hbackEq⟩
  · exact ⟨middle, hfront, hmore⟩
  · cases middle with
    | nil => exact ⟨[], by simpa using hrunEq.symm, by simpa using hbackEq.symm⟩
    | cons c middle =>
      have hc : p c = true := hrun c (by rw [hrunEq]; simp)
      rw [hbackEq] at hback
      exact absurd hc (by rw [stopsAt_cons.mp hback]; decide)

/-- **The XML declaration** ends at its first end mark, whatever follows it. -/
theorem scanDeclaration_cases {cs rest : List Char} {alone : Bool}
    (h : scanDeclaration cs = some (alone, rest)) : rest = cs ∨
      ∃ inside, cs = "<?xml".toList ++ inside ++ ['?', '>'] ++ rest ∧ Unmarked ['?', '>'] inside ∧
        ∀ rest', scanDeclaration ("<?xml".toList ++ inside ++ ['?', '>'] ++ rest')
          = some (alone, rest') := by
  have hmark : ['?', '>'] ≠ [] := List.cons_ne_nil _ _
  unfold scanDeclaration at h
  split at h
  case h_2 =>
    cases h
    exact .inl rfl
  case h_1 more hpre =>
    split at h
    case h_2 => cases h
    case h_1 c after =>
      split at h
      case isTrue =>
        cases h
        exact .inl rfl
      case isFalse hc =>
        obtain ⟨⟨inside, stop⟩, hsplit, hread⟩ := Option.bind_eq_some_iff.mp h
        obtain ⟨standalone, hstandalone, heq⟩ := Option.bind_eq_some_iff.mp hread
        cases heq
        obtain ⟨hinside, hunmarked⟩ := (splitAt?_eq_some hmark).mp hsplit
        refine .inr ⟨inside, ?_, hunmarked, fun rest' => ?_⟩
        · rw [← List.isPrefixOf?_eq_some_iff_append_eq.mp hpre, hinside]
          simp
        · -- the character behind the mark is one of the declaration, whatever follows it
          obtain ⟨after', hafter⟩ : ∃ after', inside ++ ['?', '>'] ++ rest' = c :: after' := by
            cases inside with
            | nil => exact ⟨'>' :: rest', by rw [(List.cons.inj hinside).1]; rfl⟩
            | cons d inside => exact ⟨_, by rw [(List.cons.inj hinside).1]; rfl⟩
          have hfound : "<?xml".toList.isPrefixOf? ("<?xml".toList ++ inside ++ ['?', '>'] ++ rest')
              = some (c :: after') := by
            rw [List.isPrefixOf?_eq_some_iff_append_eq, ← hafter]
            simp
          have hscan : splitAt? ['?', '>'] (c :: after') = some (inside, rest') :=
            (splitAt?_eq_some hmark).mpr ⟨hafter.symm, hunmarked⟩
          unfold scanDeclaration
          rw [hfound]
          dsimp only
          rw [if_neg hc, hscan]
          show Option.bind (readDeclarationText inside) _ = _
          rw [hstandalone]
          rfl

/-- What stands outside the root is no XML declaration. -/
theorem scanDeclaration_of_misc {used rest : List Char} (h : Misc used)
    (hrest : ∀ more, rest ≠ '<' :: '?' :: more) :
    scanDeclaration (used ++ rest) = some (false, used ++ rest) := by
  have hno : ∀ cs : List Char, (∀ more, "<?xml".toList ++ more ≠ cs) →
      scanDeclaration cs = some (false, cs) := fun cs hcs => by
    unfold scanDeclaration
    split
    case h_1 more hpre =>
      exact absurd (List.isPrefixOf?_eq_some_iff_append_eq.mp hpre) (hcs more)
    case h_2 => rfl
  cases h with
  | nil => exact hno _ fun other heq => hrest _ heq.symm
  | space blank =>
    refine hno _ fun other heq => ?_
    obtain rfl := (List.cons.inj heq).1
    exact absurd blank (by decide)
  | comment =>
    refine hno _ fun other heq => ?_
    exact absurd (List.cons.inj (List.cons.inj heq).2).1 (by decide)
  | @instruction target raw cs name free first unmarked _ =>
    -- a longer target may begin with the reserved one, and is no declaration either
    unfold scanDeclaration
    split
    case h_2 => rfl
    case h_1 more hpre =>
      have heq : '<' :: '?' :: (['x', 'm', 'l'] ++ more) = _ :=
        List.isPrefixOf?_eq_some_iff_append_eq.mp hpre
      have hxml : ['x', 'm', 'l'] ++ more = target ++ (raw ++ ['?', '>'] ++ cs ++ rest) := by
        rw [(List.cons.inj (List.cons.inj heq).2).2]
        simp
      have hstop : StopsAt isNameChar (raw ++ ['?', '>'] ++ cs ++ rest) := by
        simpa using first.stopsAt ('>' :: (cs ++ rest))
      have hrun : ∀ c ∈ "xml".toList, isNameChar c = true :=
        List.all_eq_true.mp (by decide +kernel)
      -- the reserved target is a part of this one, but not all of it
      obtain ⟨middle, rfl, rfl⟩ := exists_eq_append_of_run hxml hrun hstop
      cases middle with
      | nil => exact absurd free (by decide)
      | cons c middle =>
        have hc : isNameChar c = true := name.isNameChar c (by simp)
        show (if isNameChar c then _ else _) = _
        rw [if_pos hc]

end Rollout.Xml
