import Mathlib.Data.List.Basic
import Mathlib.Data.List.TakeDrop
import Mathlib.Data.List.TakeWhile
import Rollout.Xml.Scan

/-!
# Runs and marks

Where a text is cut: behind a run of characters of one class, or at the first or last occurrence of
a mark.

- `StopsAt`: texts that do not go on with a character of a class; `span_eq_iff` cuts there.
- `Unmarked`: a text whose first mark is the one that follows it; `splitAt?_eq_some` cuts there.
- `lastFrom?_append`: the last occurrence of a mark, by parts.
-/

namespace Rollout.Xml

/-! ## Runs -/

/-- The text does not begin with a character of the class. -/
def StopsAt (p : Char → Bool) (cs : List Char) : Prop :=
  ∀ c ∈ cs.head?, p c = false

section Runs

variable {p q : Char → Bool}

@[simp] theorem stopsAt_nil : StopsAt p [] := fun _ h => nomatch h

@[simp] theorem stopsAt_cons {c : Char} {cs : List Char} : StopsAt p (c :: cs) ↔ p c = false := by
  constructor
  · intro h
    exact h c rfl
  · intro h d hd
    cases hd
    exact h

theorem StopsAt.mono {cs : List Char} (h : StopsAt p cs) (hq : ∀ c, q c = true → p c = true) :
    StopsAt q cs := by
  intro c hc
  have hp := h c hc
  exact Bool.eq_false_iff.mpr fun hqc => absurd (hq c hqc) (by rw [hp]; decide)

/-- **The run of a class** at the start of a text and what follows it. -/
theorem span_eq_iff {cs run rest : List Char} : cs.span p = (run, rest) ↔
    cs = run ++ rest ∧ (∀ c ∈ run, p c = true) ∧ StopsAt p rest := by
  rw [List.span_eq_takeWhile_dropWhile, Prod.mk.injEq]
  constructor
  · rintro ⟨rfl, rfl⟩
    refine ⟨(List.takeWhile_append_dropWhile ..).symm, fun c hc => ?_, fun c hc => ?_⟩
    · exact List.mem_takeWhile_imp hc
    · have hne : cs.dropWhile p ≠ [] := fun hnil => by
        rw [hnil] at hc
        cases hc
      rw [List.head?_eq_some_head hne, Option.mem_some] at hc
      rw [← hc]
      exact List.head_dropWhile_not p hne
  · rintro ⟨rfl, hrun, hrest⟩
    have hstop : rest.takeWhile p = [] ∧ rest.dropWhile p = rest := by
      cases rest with
      | nil => exact ⟨rfl, rfl⟩
      | cons c rest =>
        have hc : ¬ p c = true := Bool.eq_false_iff.mp (stopsAt_cons.mp hrest)
        exact ⟨List.takeWhile_cons_of_neg hc, List.dropWhile_cons_of_neg hc⟩
    rw [List.takeWhile_append_of_pos hrun, List.dropWhile_append_of_pos hrun, hstop.1, hstop.2]
    exact ⟨List.append_nil run, rfl⟩

theorem exists_eq_append_dropWhile (p : Char → Bool) (cs : List Char) :
    ∃ run, cs = run ++ cs.dropWhile p ∧ (∀ c ∈ run, p c = true) ∧ StopsAt p (cs.dropWhile p) :=
  ⟨cs.takeWhile p, span_eq_iff.mp (List.span_eq_takeWhile_dropWhile ..)⟩

end Runs

/-! ## The first mark -/

/-- The only occurrence of `mark` in `before ++ mark` is the one at its end. -/
def Unmarked (mark before : List Char) : Prop :=
  ∀ a b, before ++ mark = a ++ mark ++ b → b = []

section Marks

variable {mark before rest : List Char}

theorem Unmarked.nil (mark : List Char) : Unmarked mark [] := by
  intro a b h
  have hlength := congrArg List.length h
  simp only [List.nil_append, List.length_append] at hlength
  exact List.length_eq_zero_iff.mp (by omega)

theorem Unmarked.tail {c : Char} (h : Unmarked mark (c :: before)) : Unmarked mark before :=
  fun a b heq => h (c :: a) b (congrArg (c :: ·) heq)

theorem Unmarked.of_append {front : List Char} (h : Unmarked mark (front ++ before)) :
    Unmarked mark before := by
  induction front with
  | nil => exact h
  | cons c front ih => exact ih h.tail

/-- The first character of an unmarked text does not begin the mark. -/
theorem Unmarked.not_prefix_append {c : Char} (h : Unmarked mark (c :: before)) (rest : List Char) :
    ¬ mark <+: c :: before ++ mark ++ rest := by
  intro hpre
  -- a mark at the front ends before the last one does
  have hshort : mark <+: c :: before ++ mark :=
    List.prefix_of_prefix_length_le hpre (List.prefix_append ..)
      (by simp only [List.length_append, List.length_cons]; omega)
  obtain ⟨b, hb⟩ := hshort
  have hnil := h [] b (by rw [List.nil_append, hb])
  have hlength := congrArg List.length hb
  rw [hnil] at hlength
  simp only [List.append_nil, List.length_append, List.length_cons] at hlength
  omega

/-- A text is unmarked when it does not begin with the mark and what follows is unmarked. -/
theorem unmarked_cons {c : Char} :
    Unmarked mark (c :: before) ↔ ¬ mark <+: c :: before ++ mark ∧ Unmarked mark before := by
  constructor
  · intro h
    have hfirst := h.not_prefix_append []
    rw [List.append_nil] at hfirst
    exact ⟨hfirst, h.tail⟩
  · rintro ⟨hfirst, hrest⟩ a b heq
    cases a with
    | nil => exact absurd ⟨b, heq.symm⟩ hfirst
    | cons d a => exact hrest a b (congrArg List.tail heq)

/-- Characters that do not begin the mark may precede. -/
theorem Unmarked.append_front {front : List Char} (h : Unmarked mark before) (hmark : mark ≠ [])
    (hfront : ∀ c ∈ front, mark.head? ≠ some c) : Unmarked mark (front ++ before) := by
  induction front with
  | nil => exact h
  | cons c front ih =>
    intro a b heq
    cases a with
    | nil =>
      obtain ⟨d, more, rfl⟩ := List.exists_cons_of_ne_nil hmark
      have hhead := congrArg List.head? heq
      exact absurd hhead.symm (hfront c (List.mem_cons_self ..))
    | cons d a =>
      have htail := congrArg List.tail heq
      exact ih (fun c hc => hfront c (List.mem_cons_of_mem _ hc)) a b htail

/-- A text without a mark has no longer mark either. -/
theorem Unmarked.append_mark {more : List Char} (h : Unmarked mark before) :
    Unmarked (mark ++ more) before := by
  intro a b heq
  have hlength := congrArg List.length heq
  simp only [List.length_append] at hlength
  -- what the longer mark begins with stands at `a` too
  have hpre : a ++ mark <+: before ++ mark := by
    have hlong : a ++ mark <+: before ++ mark ++ more := by
      rw [List.append_assoc before, heq]
      exact ⟨more ++ b, by simp only [List.append_assoc]⟩
    exact List.prefix_of_prefix_length_le hlong (List.prefix_append ..)
      (by simp only [List.length_append]; omega)
  obtain ⟨b', hb⟩ := hpre
  have hnil := h a b' hb.symm
  have hshort := congrArg List.length hb
  rw [hnil] at hshort
  simp only [List.length_append, List.length_nil] at hshort
  exact List.length_eq_zero_iff.mp (by omega)

/-- **A text is split** at the first mark. -/
theorem splitAt?_eq_some (hmark : mark ≠ []) {cs : List Char} :
    splitAt? mark cs = some (before, rest) ↔
      cs = before ++ mark ++ rest ∧ Unmarked mark before := by
  constructor
  · intro h
    induction cs generalizing before with
    | nil => cases h
    | cons c cs ih =>
      rw [splitAt?] at h
      cases hpre : mark.isPrefixOf? (c :: cs) with
      | some found =>
        rw [hpre] at h
        cases h
        exact ⟨(List.isPrefixOf?_eq_some_iff_append_eq.mp hpre).symm, Unmarked.nil mark⟩
      | none =>
        rw [hpre] at h
        obtain ⟨⟨before', rest'⟩, hsplit, heq⟩ := Option.map_eq_some_iff.mp h
        cases heq
        obtain ⟨rfl, hunmarked⟩ := ih hsplit
        -- an occurrence is at the front, where none was found, or further behind
        refine ⟨rfl, fun a b hab => ?_⟩
        cases a with
        | nil =>
          have hfound : mark ++ (b ++ rest) = c :: (before' ++ mark ++ rest) := by
            rw [← List.append_assoc, ← List.nil_append (mark ++ b), ← List.append_assoc [], ← hab]
            rfl
          rw [List.isPrefixOf?_eq_some_iff_append_eq.mpr hfound] at hpre
          cases hpre
        | cons d a => exact hunmarked a b (congrArg List.tail hab)
  · rintro ⟨rfl, h⟩
    induction before with
    | nil =>
      obtain ⟨d, more, rfl⟩ := List.exists_cons_of_ne_nil hmark
      have hfound : (d :: more).isPrefixOf? (d :: (more ++ rest)) = some rest :=
        List.isPrefixOf?_eq_some_iff_append_eq.mpr rfl
      show splitAt? (d :: more) (d :: (more ++ rest)) = _
      rw [splitAt?, hfound]
    | cons c before ih =>
      have hnone : mark.isPrefixOf? (c :: (before ++ mark ++ rest)) = none := by
        cases hpre : mark.isPrefixOf? (c :: (before ++ mark ++ rest)) with
        | none => rfl
        | some found =>
          exact absurd ⟨found, List.isPrefixOf?_eq_some_iff_append_eq.mp hpre⟩
            (h.not_prefix_append rest)
      show splitAt? mark (c :: (before ++ mark ++ rest)) = _
      rw [splitAt?, hnone]
      dsimp only
      rw [ih h.tail]
      rfl

end Marks

/-! ## The last mark -/

section Last

variable {mark : List Char}

/-- The last occurrence in the part behind is the last one. -/
theorem lastFrom?_append {back found : List Char} (h : Text.lastFrom? mark back = some found) :
    ∀ front : List Char, Text.lastFrom? mark (front ++ back) = some found
  | [] => h
  | c :: front => by
    show Text.lastFrom? mark (c :: (front ++ back)) = some found
    rw [Text.lastFrom?, lastFrom?_append h front]

/-- Characters that do not begin the mark hold none. -/
theorem lastFrom?_append_none {front back : List Char} (hmark : mark ≠ [])
    (hfront : ∀ c ∈ front, mark.head? ≠ some c) (h : Text.lastFrom? mark back = none) :
    Text.lastFrom? mark (front ++ back) = none := by
  induction front with
  | nil => exact h
  | cons c front ih =>
    show Text.lastFrom? mark (c :: (front ++ back)) = none
    rw [Text.lastFrom?, ih fun d hd => hfront d (List.mem_cons_of_mem _ hd)]
    obtain ⟨d, more, rfl⟩ := List.exists_cons_of_ne_nil hmark
    have hne : (d == c) = false := by
      rw [beq_eq_false_iff_ne]
      intro hdc
      exact hfront c (List.mem_cons_self ..) (congrArg some hdc)
    simp [List.isPrefixOf, hne]

/-- What is found is an end of the text that begins with the mark. -/
theorem lastFrom?_eq_some {found : List Char} :
    ∀ {cs : List Char}, Text.lastFrom? mark cs = some found →
      ∃ front, cs = front ++ found ∧ mark <+: found
  | [], h => by
    rw [Text.lastFrom?] at h
    split at h
    case isTrue hempty =>
      cases h
      rw [List.isEmpty_iff.mp hempty]
      exact ⟨[], rfl, List.nil_prefix⟩
    case isFalse => cases h
  | c :: cs, h => by
    rw [Text.lastFrom?] at h
    cases hlast : Text.lastFrom? mark cs with
    | some last =>
      rw [hlast] at h
      cases h
      obtain ⟨front, rfl, hpre⟩ := lastFrom?_eq_some hlast
      exact ⟨c :: front, rfl, hpre⟩
    | none =>
      rw [hlast] at h
      split at h
      case h_1 heq => cases heq
      case h_2 =>
        split at h
        case isTrue hpre =>
          cases h
          exact ⟨[], rfl, List.isPrefixOf_iff_prefix.mp hpre⟩
        case isFalse => cases h

/-- **A mark is found** where it occurs at all. -/
theorem lastFrom?_eq_none_iff : ∀ {cs : List Char},
    Text.lastFrom? mark cs = none ↔ ¬ mark <:+: cs
  | [] => by
    rw [Text.lastFrom?]
    cases mark <;> simp
  | c :: cs => by
    rw [Text.lastFrom?, List.infix_cons_iff]
    cases hlast : Text.lastFrom? mark cs with
    | some found =>
      have hinside : mark <:+: cs := by
        refine Classical.byContradiction fun hnone => ?_
        rw [lastFrom?_eq_none_iff.mpr hnone] at hlast
        cases hlast
      simp [hinside]
    | none =>
      have hinside := lastFrom?_eq_none_iff.mp hlast
      by_cases hpre : mark.isPrefixOf (c :: cs) = true
      · have hfound := List.isPrefixOf_iff_prefix.mp hpre
        simp [hpre, hfound]
      · have hnot : ¬ mark <+: c :: cs := fun h => hpre (List.isPrefixOf_iff_prefix.mpr h)
        simp [hpre, hnot, hinside]

theorem occurs_eq_false_iff {cs : List Char} :
    Text.occurs mark cs = false ↔ ¬ mark <:+: cs := by
  unfold Text.occurs
  rw [Option.isSome_eq_false_iff, Option.isNone_iff_eq_none, lastFrom?_eq_none_iff]

/-- A part of a text without a mark holds none. -/
theorem occurs_of_infix {cs part : List Char} (h : Text.occurs mark cs = false)
    (hpart : part <:+: cs) :
    Text.occurs mark part = false := by
  rw [occurs_eq_false_iff] at h ⊢
  exact fun hinside => h (hinside.trans hpart)

end Last

end Rollout.Xml
