import Rollout.Pom.Descriptor
import Rollout.Proofs.Xml.Reading

/-!
# The items before the root

A descriptor finds the text before its root by passing over blanks and items.

- `Items`: blanks and items, each of them up to its first end mark.
- `afterItem?_eq_some`: an item is passed over up to its first end mark.
- `exists_items`, `afterItems_append`: items are passed over, and nothing else.
- `splitProlog_iff`: **the text before the root is kept** exactly when it consists of items.
- `Items.of_misc`, `items_before`: what stands before the root of a document that has neither
  encoding mark nor type declaration consists of items.
-/

namespace Rollout.Pom

open Xml

/-! ## Items -/

/-- How the items before a root open and end. -/
def itemMarks : List (List Char × List Char) :=
  [("<?".toList, "?>".toList), ("<!--".toList, "-->".toList), ("<!DOCTYPE".toList, ">".toList)]

/-- Blanks and items, each of them up to its first end mark. -/
inductive Items : List Char → Prop
  | nil : Items []
  | blank {c : Char} {cs : List Char} (blank : Text.isBlank c = true) (rest : Items cs) :
      Items (c :: cs)
  | item {opening ending inside cs : List Char} (kind : (opening, ending) ∈ itemMarks)
      (unmarked : Unmarked ending inside) (rest : Items cs) :
      Items (opening ++ (inside ++ ending ++ cs))

theorem afterFirst?_eq {ending : List Char} (hending : ending ≠ []) : ∀ cs : List Char,
    afterFirst? ending cs = (splitAt? ending cs).map Prod.snd
  | [] => by
    rw [afterFirst?, if_neg (by simpa using hending)]
    rfl
  | c :: cs => by
    rw [afterFirst?, splitAt?]
    cases ending.isPrefixOf? (c :: cs) with
    | some rest => rfl
    | none =>
      show afterFirst? ending cs = _
      rw [afterFirst?_eq hending cs, Option.map_map]
      rfl

theorem afterFirst?_eq_some {ending cs rest : List Char} (hending : ending ≠ []) :
    afterFirst? ending cs = some rest ↔
      ∃ inside, cs = inside ++ ending ++ rest ∧ Unmarked ending inside := by
  rw [afterFirst?_eq hending, Option.map_eq_some_iff]
  constructor
  · rintro ⟨⟨inside, more⟩, hsplit, rfl⟩
    exact ⟨inside, (splitAt?_eq_some hending).mp hsplit⟩
  · rintro ⟨inside, hsplit⟩
    exact ⟨(inside, rest), (splitAt?_eq_some hending).mpr hsplit, rfl⟩

/-- **An item** ends at its first end mark. -/
theorem afterItem?_eq_some {cs rest : List Char} : afterItem? cs = some rest ↔
    ∃ opening ending inside, (opening, ending) ∈ itemMarks ∧
      cs = opening ++ (inside ++ ending ++ rest) ∧ Unmarked ending inside := by
  have hwithin : ∀ opening ending : String, ending.toList ≠ [] →
      ((opening.toList.isPrefixOf? cs).bind (afterFirst? ending.toList) = some rest ↔
        ∃ inside, cs = opening.toList ++ (inside ++ ending.toList ++ rest) ∧
          Unmarked ending.toList inside) := by
    intro opening ending hending
    rw [Option.bind_eq_some_iff]
    constructor
    · rintro ⟨more, hpre, hafter⟩
      obtain ⟨inside, rfl, hunmarked⟩ := (afterFirst?_eq_some hending).mp hafter
      exact ⟨inside, (List.isPrefixOf?_eq_some_iff_append_eq.mp hpre).symm, hunmarked⟩
    · rintro ⟨inside, rfl, hunmarked⟩
      exact ⟨_, List.isPrefixOf?_eq_some_iff_append_eq.mpr rfl,
        (afterFirst?_eq_some hending).mpr ⟨inside, rfl, hunmarked⟩⟩
  have hquery := hwithin "<?" "?>" (by decide)
  have hcomment := hwithin "<!--" "-->" (by decide)
  have htype := hwithin "<!DOCTYPE" ">" (by decide)
  unfold afterItem? itemMarks
  dsimp only
  constructor
  · intro h
    rcases Option.or_eq_some_iff.mp h with h | ⟨-, h⟩
    · rcases Option.or_eq_some_iff.mp h with h | ⟨-, h⟩
      · obtain ⟨inside, hcs, hunmarked⟩ := hquery.mp h
        exact ⟨_, _, inside, by simp, hcs, hunmarked⟩
      · obtain ⟨inside, hcs, hunmarked⟩ := hcomment.mp h
        exact ⟨_, _, inside, by simp, hcs, hunmarked⟩
    · obtain ⟨inside, hcs, hunmarked⟩ := htype.mp h
      exact ⟨_, _, inside, by simp, hcs, hunmarked⟩
  · rintro ⟨opening, ending, inside, hkind, hcs, hunmarked⟩
    simp only [List.mem_cons, Prod.mk.injEq, List.not_mem_nil, or_false] at hkind
    rcases hkind with ⟨rfl, rfl⟩ | ⟨rfl, rfl⟩ | ⟨rfl, rfl⟩
    · rw [hquery.mpr ⟨inside, hcs, hunmarked⟩]
      rfl
    · -- no two openings agree in their first three characters
      have hno : "<?".toList.isPrefixOf? cs = none := by
        rw [hcs]
        rfl
      rw [hno, hcomment.mpr ⟨inside, hcs, hunmarked⟩]
      rfl
    · have hno : "<?".toList.isPrefixOf? cs = none := by
        rw [hcs]
        rfl
      have hno' : "<!--".toList.isPrefixOf? cs = none := by
        rw [hcs]
        rfl
      rw [hno, hno', htype.mpr ⟨inside, hcs, hunmarked⟩]
      rfl

theorem Items.append_blank {front cs : List Char} (hfront : ∀ c ∈ front, Text.isBlank c = true)
    (h : Items cs) : Items (front ++ cs) := by
  induction front with
  | nil => exact h
  | cons c front ih =>
    obtain ⟨hc, hfront⟩ := List.forall_mem_cons.mp hfront
    exact .blank hc (ih hfront)

/-- What is passed over before the root. -/
theorem exists_items : ∀ (fuel : Nat) (cs : List Char),
    ∃ used, cs = used ++ afterItems fuel cs ∧ Items used
  | 0, cs => by
    obtain ⟨run, hcs, hrun, -⟩ := exists_eq_append_dropWhile Text.isBlank cs
    exact ⟨run, hcs, by simpa using Items.append_blank hrun .nil⟩
  | fuel + 1, cs => by
    obtain ⟨run, hcs, hrun, -⟩ := exists_eq_append_dropWhile Text.isBlank cs
    rw [afterItems]
    cases hitem : afterItem? (cs.dropWhile Text.isBlank) with
    | none => exact ⟨run, hcs, by simpa using Items.append_blank hrun .nil⟩
    | some rest =>
      obtain ⟨opening, ending, inside, hkind, hopening, hunmarked⟩ := afterItem?_eq_some.mp hitem
      -- what the item leaves is passed over with one step of fuel less
      obtain ⟨used, hused, hitems⟩ := exists_items fuel rest
      refine ⟨run ++ (opening ++ (inside ++ ending ++ used)), ?_,
        Items.append_blank hrun (.item hkind hunmarked hitems)⟩
      show cs = _ ++ afterItems fuel rest
      rw [hcs, hopening]
      conv_lhs => rw [hused]
      simp only [List.append_assoc]

/-- Where a root begins, nothing is passed over. -/
theorem afterItems_root {cs : List Char} (h : atStartTag cs = true) (fuel : Nat) :
    afterItems fuel cs = cs := by
  obtain ⟨c, more, rfl, hc⟩ := atStartTag_iff.mp h
  obtain ⟨hbang, hquery, -⟩ := ne_of_isNameStart hc
  have hblank : ('<' :: c :: more).dropWhile Text.isBlank = '<' :: c :: more :=
    List.dropWhile_cons_of_neg (by decide)
  have hitem : afterItem? ('<' :: c :: more) = none := by
    rw [Option.eq_none_iff_forall_ne_some]
    intro rest hrest
    obtain ⟨opening, ending, inside, hkind, hcs, -⟩ := afterItem?_eq_some.mp hrest
    simp only [itemMarks, List.mem_cons, Prod.mk.injEq, List.not_mem_nil, or_false] at hkind
    rcases hkind with ⟨rfl, -⟩ | ⟨rfl, -⟩ | ⟨rfl, -⟩
    · exact hquery (List.cons.inj (List.cons.inj hcs).2).1
    · exact hbang (List.cons.inj (List.cons.inj hcs).2).1
    · exact hbang (List.cons.inj (List.cons.inj hcs).2).1
  cases fuel with
  | zero => exact hblank
  | succ fuel =>
    rw [afterItems, hblank, hitem]

theorem afterItems_blank {c : Char} (hc : Text.isBlank c = true) (fuel : Nat) (cs : List Char) :
    afterItems fuel (c :: cs) = afterItems fuel cs := by
  cases fuel with
  | zero => exact List.dropWhile_cons_of_pos hc
  | succ fuel =>
    rw [afterItems, afterItems, List.dropWhile_cons_of_pos hc]

/-- **Items before a root are passed over**, and nothing else. -/
theorem afterItems_append {used rest : List Char} (h : Items used)
    (hroot : atStartTag rest = true) :
    ∀ fuel, used.length ≤ fuel → afterItems fuel (used ++ rest) = rest := by
  induction h with
  | nil => exact fun fuel _ => afterItems_root hroot fuel
  | blank hblank _ ih =>
    intro fuel hfuel
    rw [List.cons_append, afterItems_blank hblank]
    exact ih fuel (by rw [List.length_cons] at hfuel; omega)
  | @item opening ending inside cs kind unmarked _ ih =>
    intro fuel hfuel
    -- an item is no shorter than the one step of fuel that it takes
    have hopening : ∃ more, opening = '<' :: more := by
      simp only [itemMarks, List.mem_cons, Prod.mk.injEq, List.not_mem_nil, or_false] at kind
      rcases kind with ⟨rfl, -⟩ | ⟨rfl, -⟩ | ⟨rfl, -⟩ <;> exact ⟨_, rfl⟩
    obtain ⟨more, rfl⟩ := hopening
    simp only [List.length_append, List.length_cons] at hfuel
    obtain ⟨fuel, rfl⟩ := Nat.exists_eq_add_one_of_ne_zero (n := fuel) (by omega)
    have hitem : afterItem? ('<' :: more ++ (inside ++ ending ++ cs) ++ rest) = some (cs ++ rest) :=
      afterItem?_eq_some.mpr ⟨'<' :: more, ending, inside, kind, by simp, unmarked⟩
    have hblank : ('<' :: more ++ (inside ++ ending ++ cs) ++ rest).dropWhile Text.isBlank
        = '<' :: more ++ (inside ++ ending ++ cs) ++ rest :=
      List.dropWhile_cons_of_neg (by decide)
    rw [afterItems, hblank, hitem]
    exact ih fuel (by omega)

/-! ## What is kept and what is left -/

theorem splitProlog_append (cs : List Char) : (splitProlog cs).1 ++ (splitProlog cs).2 = cs := by
  obtain ⟨used, hused, -⟩ := exists_items cs.length cs
  exact Xml.Reading.take_append_of_suffix ⟨used, hused.symm⟩

/-- What is kept consists of items. -/
theorem items_splitProlog (cs : List Char) : Items (splitProlog cs).1 := by
  obtain ⟨used, hused, hitems⟩ := exists_items cs.length cs
  have hprolog : (splitProlog cs).1 = used :=
    List.append_cancel_right ((splitProlog_append cs).trans hused)
  rw [hprolog]
  exact hitems

/-- A text before a root is kept when it consists of items, and the root is left. -/
theorem splitProlog_of_items {before fromRoot : List Char} (hroot : atStartTag fromRoot = true)
    (h : Items before) : splitProlog (before ++ fromRoot) = (before, fromRoot) := by
  have hleft : (splitProlog (before ++ fromRoot)).2 = fromRoot :=
    afterItems_append h hroot _ (by rw [List.length_append]; omega)
  have happend := splitProlog_append (before ++ fromRoot)
  rw [hleft] at happend
  exact Prod.ext (List.append_cancel_right happend) hleft

/-! ## Items that are read -/

/-- The text before the root that is read is kept when it consists of items. -/
theorem splitProlog_reading {text : List Char} {root : Node} (r : Xml.Reading text root)
    (h : Items r.before) : splitProlog text = (r.before, r.fromRoot) :=
  (congrArg splitProlog r.before_append).symm.trans (splitProlog_of_items r.start h)

theorem splitProlog_iff {text : List Char} {root : Node} (r : Xml.Reading text root) :
    (splitProlog text).1 = r.before ↔ Items r.before := by
  constructor
  · intro h
    rw [← h]
    exact items_splitProlog text
  · exact fun h => congrArg Prod.fst (splitProlog_reading r h)

theorem Items.append {a b : List Char} (ha : Items a) (hb : Items b) : Items (a ++ b) := by
  induction ha with
  | nil => exact hb
  | blank hblank _ ih => exact .blank hblank ih
  | @item opening ending inside cs kind unmarked _ ih =>
    have hitem : Items (opening ++ (inside ++ ending ++ (cs ++ b))) := .item kind unmarked ih
    simpa only [List.append_assoc] using hitem

/-- **Comments, instructions and white space** are items and blanks. -/
theorem Items.of_misc {cs : List Char} (h : Misc cs) : Items cs := by
  induction h with
  | nil => exact .nil
  | space blank _ ih => exact .blank (isBlank_of_isSpace blank) ih
  | @comment raw cs unmarked _ ih =>
    have hmark : Unmarked (['-', '-'] ++ ['>']) raw := unmarked.append_mark
    have hitem : Items ("<!--".toList ++ (raw ++ "-->".toList ++ cs)) :=
      .item (by simp [itemMarks]) hmark ih
    have heq : '<' :: '!' :: '-' :: '-' :: (raw ++ ['-', '-'] ++ '>' :: cs)
        = "<!--".toList ++ (raw ++ "-->".toList ++ cs) := by
      show _ = '<' :: '!' :: '-' :: '-' :: (raw ++ ['-', '-', '>'] ++ cs)
      simp
    rw [heq]
    exact hitem
  | @instruction target raw cs name free first unmarked _ ih =>
    -- the target is part of what stands inside the item, and holds no `?`
    have hmark : Unmarked "?>".toList (target ++ raw) :=
      unmarked.append_front (List.cons_ne_nil _ _) fun c hc hhead => by
        cases hhead
        exact absurd (name.isNameChar _ hc) (by decide +kernel)
    have hitem : Items ("<?".toList ++ (target ++ raw ++ "?>".toList ++ cs)) :=
      .item (by simp [itemMarks]) hmark ih
    have heq : '<' :: '?' :: (target ++ (raw ++ ['?', '>'] ++ cs))
        = "<?".toList ++ (target ++ raw ++ "?>".toList ++ cs) := by
      show _ = '<' :: '?' :: (target ++ raw ++ ['?', '>'] ++ cs)
      simp
    rw [heq]
    exact hitem

/-- **Before the root** of a document that has neither encoding mark nor type declaration there are
items. -/
theorem items_before {text : List Char} {root : Node} (r : Xml.Reading text root)
    (hmark : withoutMark text = text) (htype : r.declaresType = false) : Items r.before := by
  obtain ⟨declaration, misc, hbefore, hmisc, hdeclaration⟩ := r.before_cases hmark htype
  rw [hbefore]
  refine Items.append ?_ (.of_misc hmisc)
  rcases hdeclaration with rfl | ⟨inside, rfl, hunmarked, -⟩
  · exact .nil
  · have hmark : Unmarked "?>".toList ("xml".toList ++ inside) :=
      hunmarked.append_front (List.cons_ne_nil _ _) (by simp)
    have hitem : Items ("<?".toList ++ ("xml".toList ++ inside ++ "?>".toList ++ [])) :=
      .item (by simp [itemMarks]) hmark .nil
    have heq : "<?xml".toList ++ inside ++ ['?', '>']
        = "<?".toList ++ ("xml".toList ++ inside ++ "?>".toList ++ []) := by
      show _ = '<' :: '?' :: ('x' :: 'm' :: 'l' :: inside ++ ['?', '>'] ++ [])
      rw [List.append_nil]
      rfl
    rw [heq]
    exact hitem

end Rollout.Pom
