import Mathlib.Data.List.Basic
import Rollout.Text.Pieces

/-!
# Pieces of a text

- `splitChars_eq_splitOn`: the pieces between separators.
- `afterLast_append`, `not_mem_afterLast`: the piece after the last separator.
- `dropEnding_append`, `dropTrailing_append`: a text without what is dropped at its end.
-/

namespace Rollout.Text

variable {sep c : Char}

theorem splitChars_eq_splitOn (sep : Char) (cs : List Char) :
    splitChars sep cs = cs.splitOn sep := by
  induction cs with
  | nil => rfl
  | cons c cs ih =>
    rw [splitChars, List.splitOn_cons_eq_if_modifyHead, ← ih]
    cases hc : c == sep with
    | true => rfl
    | false =>
      cases hsplit : splitChars sep cs with
      | nil => exact absurd (ih ▸ hsplit) (List.splitOn_ne_nil sep cs)
      | cons piece rest => rfl

/-- The part after the last separator. -/
theorem afterLast_append (front : List Char) {last : List Char} (h : sep ∉ last) :
    afterLast sep (String.ofList (front ++ sep :: last)) = String.ofList last := by
  unfold afterLast splitOn
  rw [String.toList_ofList, splitChars_eq_splitOn, List.splitOn_append_cons_self,
    List.splitOn_eq_singleton h]
  simp

theorem afterLast_of_not_mem {text : String} (h : sep ∉ text.toList) :
    afterLast sep text = text := by
  unfold afterLast splitOn
  rw [splitChars_eq_splitOn, List.splitOn_eq_singleton h]
  simp

theorem not_mem_afterLast (sep : Char) (text : String) : sep ∉ (afterLast sep text).toList := by
  by_cases h : sep ∈ text.toList
  · obtain ⟨last, front, htext, hlast⟩ := List.eq_append_cons_of_mem (List.mem_reverse.mpr h)
    have hlist : text.toList = front.reverse ++ sep :: last.reverse := by
      rw [← List.reverse_reverse text.toList, htext]
      simp
    rw [← @String.ofList_toList text, hlist,
      afterLast_append _ (by simpa using hlast), String.toList_ofList]
    simpa using hlast
  · rw [afterLast_of_not_mem h]
    exact h

theorem dropEnding_append (ending text : String) : dropEnding ending (text ++ ending) = text := by
  unfold dropEnding
  rw [String.toList_append, List.reverse_append,
    List.isPrefixOf?_eq_some_iff_append_eq.mpr rfl]
  simp

theorem mem_of_mem_dropEnding {ending text : String}
    (h : c ∈ (dropEnding ending text).toList) : c ∈ text.toList := by
  unfold dropEnding at h
  split at h
  case h_1 rest hrest =>
    rw [List.isPrefixOf?_eq_some_iff_append_eq] at hrest
    rw [String.toList_ofList, List.mem_reverse] at h
    rw [← List.mem_reverse, ← hrest]
    exact List.mem_append_right _ h
  case h_2 => exact h

/-- Characters at the end are dropped, up to one that is another. -/
theorem dropTrailing_append {c other : Char} (h : other ≠ c) (front : List Char) (count : Nat) :
    dropTrailing c (String.ofList (front ++ other :: List.replicate count c))
      = String.ofList (front ++ [other]) := by
  unfold dropTrailing
  rw [String.toList_ofList, List.reverse_append, List.reverse_cons, List.reverse_replicate,
    List.append_assoc, List.dropWhile_append_of_pos (by simp), List.singleton_append,
    List.dropWhile_cons_of_neg (by simpa using h)]
  simp

end Rollout.Text
