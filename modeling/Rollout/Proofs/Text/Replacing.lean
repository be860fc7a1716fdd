import Mathlib.Data.List.Basic
import Rollout.Text.Pieces

/-!
# Replacing

A pattern whose first character does not occur in it again never overlaps itself, so that a text
may be cut before every such character: replacing treats the parts on their own.

- `replaceFrom_append_cut`: replacing in a text that is cut.
- `replaceFrom_intercalate`: replacing in pieces that the pattern separates.
- `length_replaceFrom`: how the length changes with the number of occurrences.
- `intercalate_replaced_iff`: **when the pieces stay as they are**: the pattern does not occur in
  any of them, or stands for itself.
-/

namespace Rollout.Text

variable {c : Char} {pattern replacement cs : List Char}

/-! ## Replacing step by step -/

theorem replaceFrom_drop (pattern replacement : List Char) (skip : Nat) (cs : List Char) :
    replaceFrom pattern replacement skip cs
      = replaceFrom pattern replacement 0 (cs.drop skip) := by
  induction skip generalizing cs with
  | zero => rfl
  | succ skip ih =>
    cases cs with
    | nil => rfl
    | cons c cs => exact ih cs

/-- An occurrence at the front is replaced. -/
theorem replaceFrom_occurrence (c : Char) (ps replacement cs : List Char) :
    replaceFrom (c :: ps) replacement 0 (c :: ps ++ cs)
      = replacement ++ replaceFrom (c :: ps) replacement 0 cs := by
  have hprefix : (c :: ps).isPrefixOf (c :: (ps ++ cs)) = true :=
    List.isPrefixOf_iff_prefix.mpr (List.prefix_append (c :: ps) cs)
  rw [List.cons_append, replaceFrom, if_pos hprefix, replaceFrom_drop]
  congr 2
  exact List.drop_left

/-- A character where no occurrence begins stays. -/
theorem replaceFrom_cons (h : ¬ pattern <+: c :: cs) :
    replaceFrom pattern replacement 0 (c :: cs) = c :: replaceFrom pattern replacement 0 cs := by
  rw [replaceFrom, if_neg (mt List.isPrefixOf_iff_prefix.mp h)]

/-- What holds of the empty text, and of a text if it holds behind the occurrence or the character
at its front, holds of every text. -/
theorem induction_replaceFrom {motive : List Char → Prop} (c : Char) (ps : List Char)
    (nil : motive []) (occurrence : ∀ cs, motive cs → motive (c :: ps ++ cs))
    (cons : ∀ d cs, ¬ c :: ps <+: d :: cs → motive cs → motive (d :: cs)) (cs : List Char) :
    motive cs := by
  match cs with
  | [] => exact nil
  | d :: rest =>
    by_cases h : c :: ps <+: d :: rest
    · obtain ⟨behind, hbehind⟩ := h
      have hshorter : behind.length < (d :: rest).length := by
        rw [← hbehind, List.length_append, List.length_cons]
        omega
      rw [← hbehind]
      exact occurrence behind (induction_replaceFrom c ps nil occurrence cons behind)
    · exact cons d rest h (induction_replaceFrom c ps nil occurrence cons rest)
  termination_by cs.length
  decreasing_by
    · exact hshorter
    · exact Nat.lt_succ_self rest.length

/-- A pattern that does not occur is not replaced. -/
theorem replaceFrom_of_not_infix (h : ¬ pattern <:+: cs) :
    replaceFrom pattern replacement 0 cs = cs := by
  induction cs with
  | nil => rfl
  | cons c cs ih =>
    rw [List.infix_cons_iff, not_or] at h
    rw [replaceFrom_cons h.1, ih h.2]

/-- A pattern that stands for itself leaves the text as it is. -/
theorem replaceFrom_self (c : Char) (ps cs : List Char) :
    replaceFrom (c :: ps) (c :: ps) 0 cs = cs := by
  induction cs using induction_replaceFrom c ps with
  | nil => rfl
  | occurrence cs ih => rw [replaceFrom_occurrence, ih]
  | cons d cs h ih => rw [replaceFrom_cons h, ih]

/-! ## Cutting the text -/

/-- An occurrence at the front of a text does not reach behind a cut. -/
theorem prefix_of_prefix_cut {ps rest : List Char} (front : List Char) (hc : c ∉ ps)
    (h : c :: ps <+: front ++ c :: rest) : front = [] ∨ c :: ps <+: front := by
  obtain ⟨behind, hbehind⟩ := h
  rcases List.append_eq_append_iff.mp hbehind with ⟨common, hfront, -⟩ | ⟨common, hpattern, hrest⟩
  · exact .inr ⟨common, hfront.symm⟩
  · cases front with
    | nil => exact .inl rfl
    | cons d front =>
      obtain ⟨rfl, hps⟩ := List.cons.inj hpattern
      cases common with
      | nil =>
        have hfront : ps = front := hps.trans (List.append_nil front)
        exact .inr (hfront ▸ List.prefix_refl _)
      | cons e common =>
        obtain ⟨rfl, -⟩ := List.cons.inj hrest
        exact absurd (hps ▸ List.mem_append_right front (List.mem_cons_self ..)) hc

/-- **Replacing in a text that is cut** before a character that begins the pattern. -/
theorem replaceFrom_append_cut {ps : List Char} (hc : c ∉ ps) (replacement front rest : List Char) :
    replaceFrom (c :: ps) replacement 0 (front ++ c :: rest)
      = replaceFrom (c :: ps) replacement 0 front
        ++ replaceFrom (c :: ps) replacement 0 (c :: rest) := by
  induction front using induction_replaceFrom c ps with
  | nil => rfl
  | occurrence front ih =>
    rw [List.append_assoc, replaceFrom_occurrence, replaceFrom_occurrence, ih, List.append_assoc]
  | cons d front h ih =>
    have hlater : ¬ c :: ps <+: d :: (front ++ c :: rest) := fun hprefix =>
      (prefix_of_prefix_cut (d :: front) hc hprefix).elim (List.cons_ne_nil d front) h
    rw [List.cons_append, replaceFrom_cons hlater, replaceFrom_cons h, ih, List.cons_append]

/-- Replacing in pieces that the pattern separates. -/
theorem replaceFrom_intercalate {ps : List Char} (hc : c ∉ ps) (replacement : List Char)
    (pieces : List (List Char)) :
    replaceFrom (c :: ps) replacement 0 ((c :: ps).intercalate pieces)
      = replacement.intercalate (pieces.map (replaceFrom (c :: ps) replacement 0)) := by
  induction pieces with
  | nil => rfl
  | cons piece pieces ih =>
    cases pieces with
    | nil =>
      rw [List.map_singleton, List.intercalate_singleton, List.intercalate_singleton]
    | cons next pieces =>
      rw [List.intercalate_cons_cons, List.append_assoc, List.cons_append,
        replaceFrom_append_cut hc, ← List.cons_append, replaceFrom_occurrence, ih,
        List.map_cons, List.map_cons, List.map_cons, List.intercalate_cons_cons,
        List.append_assoc]

/-! ## What replacing changes -/

/-- Each occurrence that is replaced changes the length by the same. -/
theorem length_replaceFrom (c : Char) (ps replacement cs : List Char) :
    ∃ count, (replaceFrom (c :: ps) replacement 0 cs).length + count * (c :: ps).length
        = cs.length + count * replacement.length ∧
      (count = 0 → ¬ c :: ps <:+: cs) := by
  induction cs using induction_replaceFrom c ps with
  | nil => exact ⟨0, by simp, by simp⟩
  | occurrence cs ih =>
    obtain ⟨count, hlength, -⟩ := ih
    refine ⟨count + 1, ?_, nofun⟩
    rw [replaceFrom_occurrence, List.length_append, List.length_append, Nat.add_one_mul,
      Nat.add_one_mul]
    omega
  | cons d cs h ih =>
    obtain ⟨count, hlength, hnone⟩ := ih
    refine ⟨count, ?_, fun hcount => ?_⟩
    · simp only [replaceFrom_cons h, List.length_cons] at hlength ⊢
      omega
    · rw [List.infix_cons_iff, not_or]
      exact ⟨h, hnone hcount⟩

/-- A text that stays as it is has no occurrence of the pattern, unless it is replaced by as many
characters, and these are its own. -/
theorem eq_or_not_infix_of_replaceFrom {ps : List Char}
    (hlength : replacement.length = (c :: ps).length)
    (h : replaceFrom (c :: ps) replacement 0 cs = cs) :
    replacement = c :: ps ∨ ¬ c :: ps <:+: cs := by
  induction cs using induction_replaceFrom c ps with
  | nil => exact .inr (by simp)
  | occurrence cs ih =>
    rw [replaceFrom_occurrence] at h
    exact .inl (List.append_inj h hlength).1
  | cons d cs hbegins ih =>
    rw [replaceFrom_cons hbegins] at h
    refine (ih (List.cons.inj h).2).imp_right fun hnone => ?_
    rw [List.infix_cons_iff, not_or]
    exact ⟨hbegins, hnone⟩

section Pieces

variable {ps : List Char} {pieces : List (List Char)}

/-- The lengths of pieces add up. -/
theorem length_intercalate_replaced (c : Char) (ps replacement : List Char)
    (pieces : List (List Char)) :
    ∃ count, (replacement.intercalate
          (pieces.map (replaceFrom (c :: ps) replacement 0))).length + count * (c :: ps).length
        = (replacement.intercalate pieces).length + count * replacement.length ∧
      (count = 0 → ∀ piece ∈ pieces, ¬ c :: ps <:+: piece) := by
  induction pieces with
  | nil => exact ⟨0, by simp, by simp⟩
  | cons piece pieces ih =>
    obtain ⟨count, hlength, hnone⟩ := length_replaceFrom c ps replacement piece
    cases pieces with
    | nil =>
      refine ⟨count, ?_, ?_⟩
      · rw [List.map_singleton, List.intercalate_singleton, List.intercalate_singleton, hlength]
      · simpa using hnone
    | cons next pieces =>
      obtain ⟨more, hrest, hothers⟩ := ih
      refine ⟨count + more, ?_, fun hcount => ?_⟩
      · rw [List.map_cons, List.map_cons, List.intercalate_cons_cons, ← List.map_cons,
          List.intercalate_cons_cons]
        simp only [List.length_append, Nat.add_mul] at hlength hrest ⊢
        omega
      · obtain ⟨rfl, rfl⟩ := Nat.add_eq_zero_iff.mp hcount
        exact List.forall_mem_cons.mpr ⟨hnone rfl, hothers rfl⟩

/-- Pieces that keep their lengths are the same one by one if the texts are. -/
theorem replaced_eq_of_intercalate_eq {f : List Char → List Char}
    (hlength : ∀ piece, (f piece).length = piece.length)
    (h : replacement.intercalate (pieces.map f) = replacement.intercalate pieces) :
    ∀ piece ∈ pieces, f piece = piece := by
  induction pieces with
  | nil => exact nofun
  | cons piece pieces ih =>
    cases pieces with
    | nil =>
      rw [List.map_singleton, List.intercalate_singleton, List.intercalate_singleton] at h
      simpa using h
    | cons next pieces =>
      rw [List.map_cons, List.map_cons, List.intercalate_cons_cons, ← List.map_cons,
        List.intercalate_cons_cons, List.append_assoc, List.append_assoc] at h
      obtain ⟨hpiece, hrest⟩ := List.append_inj h (hlength piece)
      exact List.forall_mem_cons.mpr ⟨hpiece, ih (List.append_cancel_left hrest)⟩

/-- **When the pieces stay as they are**: the pattern occurs in none of them, or it stands for
itself. -/
theorem intercalate_replaced_iff :
    replacement.intercalate (pieces.map (replaceFrom (c :: ps) replacement 0))
        = replacement.intercalate pieces
      ↔ replacement = c :: ps ∨ ∀ piece ∈ pieces, ¬ c :: ps <:+: piece := by
  constructor
  · intro h
    obtain ⟨count, htotal, hnone⟩ := length_intercalate_replaced c ps replacement pieces
    rw [h, Nat.add_left_cancel_iff] at htotal
    rcases Nat.eq_zero_or_pos count with hcount | hcount
    · exact .inr (hnone hcount)
    · -- as many characters are put in as are taken out, so that the pieces can be told apart
      have hsame : replacement.length = (c :: ps).length :=
        (Nat.eq_of_mul_eq_mul_left hcount htotal).symm
      have hlength : ∀ piece,
          (replaceFrom (c :: ps) replacement 0 piece).length = piece.length := by
        intro piece
        obtain ⟨n, hn, -⟩ := length_replaceFrom c ps replacement piece
        rw [hsame] at hn
        exact Nat.add_right_cancel hn
      by_cases hself : replacement = c :: ps
      · exact .inl hself
      · exact .inr fun piece hpiece => (eq_or_not_infix_of_replaceFrom hsame
          (replaced_eq_of_intercalate_eq hlength h piece hpiece)).resolve_left hself
  · rintro (rfl | hnone)
    · rw [funext (replaceFrom_self c ps), List.map_id']
    · rw [List.map_congr_left fun piece hpiece => replaceFrom_of_not_infix (hnone piece hpiece),
        List.map_id']

end Pieces

end Rollout.Text
