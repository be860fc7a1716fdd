import Mathlib.Data.List.Basic
import Mathlib.Data.String.Basic

/-!
# Moments

The cluster writes a moment as year, month, day, hour, minute and second, each with a fixed number
of digits and a mark behind it. Among such texts the order by code points is the order of time.

- `padded`: a number with a fixed number of digits.
- `Moment`, `Moment.text`: a moment and how it is written.
- `Moment.text_lt_text`: **texts are ordered as their moments**.
-/

namespace Rollout

/-! ## Lists of one length -/

section Lex

variable {α : Type} [LinearOrder α] {xs ys : List α}

/-- Behind parts of one length, the rest counts only where these are equal. -/
theorem append_lt_append_iff (h : xs.length = ys.length) (xs' ys' : List α) :
    xs ++ xs' < ys ++ ys' ↔ xs < ys ∨ xs = ys ∧ xs' < ys' := by
  induction xs generalizing ys with
  | nil =>
    obtain rfl : ys = [] := List.length_eq_zero_iff.mp h.symm
    simp
  | cons x xs ih =>
    cases ys with
    | nil => cases h
    | cons y ys =>
      rw [List.cons_append, List.cons_append, List.cons_lt_cons_iff, List.cons_lt_cons_iff,
        ih (Nat.succ.inj h), List.cons.injEq]
      tauto

end Lex

/-! ## Numbers -/

/-- The last digits of a number, the highest one first. -/
def padded : Nat → Nat → List Char
  | 0, _ => []
  | width + 1, n => padded width (n / 10) ++ [Nat.digitChar (n % 10)]

theorem length_padded (width n : Nat) : (padded width n).length = width := by
  induction width generalizing n with
  | zero => rfl
  | succ width ih => rw [padded, List.length_append, ih, List.length_singleton]

theorem digitChar_lt_iff {m n : Nat} (hm : m < 10) (hn : n < 10) :
    Nat.digitChar m < Nat.digitChar n ↔ m < n := by
  have hchars : Nat.digitChar m < Nat.digitChar n
      ↔ (Nat.digitChar m).toNat < (Nat.digitChar n).toNat := Iff.rfl
  rw [hchars, Nat.toNat_digitChar_of_lt_ten hm, Nat.toNat_digitChar_of_lt_ten hn]
  omega

theorem digitChar_inj {m n : Nat} (hm : m < 10) (hn : n < 10) :
    Nat.digitChar m = Nat.digitChar n ↔ m = n := by
  refine ⟨fun h => ?_, fun h => h ▸ rfl⟩
  have hcodes := congrArg Char.toNat h
  rw [Nat.toNat_digitChar_of_lt_ten hm, Nat.toNat_digitChar_of_lt_ten hn] at hcodes
  omega

theorem padded_inj {width m n : Nat} (hm : m < 10 ^ width) (hn : n < 10 ^ width) :
    padded width m = padded width n ↔ m = n := by
  refine ⟨fun h => ?_, fun h => h ▸ rfl⟩
  induction width generalizing m n with
  | zero => omega
  | succ width ih =>
    rw [Nat.pow_succ] at hm hn
    obtain ⟨hfront, hlast⟩ := List.append_inj' h rfl
    have hdiv : m / 10 = n / 10 := ih (by omega) (by omega) hfront
    have hmod : m % 10 = n % 10 :=
      (digitChar_inj (Nat.mod_lt m (by decide)) (Nat.mod_lt n (by decide))).mp
        (List.singleton_inj.mp hlast)
    omega

/-- Numbers of one width are ordered as their digits. -/
theorem padded_lt_padded {width m n : Nat} (hm : m < 10 ^ width) (hn : n < 10 ^ width) :
    padded width m < padded width n ↔ m < n := by
  induction width generalizing m n with
  | zero =>
    have hzero : ¬ m < n := by omega
    simp [padded, hzero]
  | succ width ih =>
    rw [Nat.pow_succ] at hm hn
    have hlength : (padded width (m / 10)).length = (padded width (n / 10)).length := by
      rw [length_padded, length_padded]
    have hm' : m / 10 < 10 ^ width := by omega
    have hn' : n / 10 < 10 ^ width := by omega
    have hdigit : [Nat.digitChar (m % 10)] < [Nat.digitChar (n % 10)] ↔ m % 10 < n % 10 := by
      rw [List.cons_lt_cons_iff, digitChar_lt_iff (Nat.mod_lt m (by decide))
        (Nat.mod_lt n (by decide))]
      simp
    rw [padded, padded, append_lt_append_iff hlength, ih hm' hn', padded_inj hm' hn', hdigit]
    omega

/-! ## Fields -/

/-- The fields of a moment: how many digits each one has, and the mark behind it. -/
def momentForm : List (Nat × Char) :=
  [(4, '-'), (2, '-'), (2, 'T'), (2, ':'), (2, ':'), (2, 'Z')]

/-- Every field has a number of its width. -/
abbrev Fit (form : List (Nat × Char)) (fields : List Nat) : Prop :=
  List.Forall₂ (fun field n => n < 10 ^ field.1) form fields

/-- Fields one after the other, each with its mark. -/
def written : List (Nat × Char) → List Nat → List Char
  | (width, mark) :: form, n :: fields => padded width n ++ mark :: written form fields
  | _, _ => []

/-- Fields are ordered as they are written. -/
theorem written_lt_written {form : List (Nat × Char)} {xs ys : List Nat} (hxs : Fit form xs)
    (hys : Fit form ys) : written form xs < written form ys ↔ xs < ys := by
  induction hxs generalizing ys with
  | nil =>
    cases hys
    simp [written]
  | @cons field x form xs hx _ ih =>
    cases hys with
    | @cons _ y _ ys hy hys =>
      have hlength : (padded field.1 x).length = (padded field.1 y).length := by
        rw [length_padded, length_padded]
      rw [written, written, append_lt_append_iff hlength, padded_lt_padded hx hy,
        padded_inj hx hy, List.cons_lt_cons_iff, List.cons_lt_cons_iff, ih hys]
      simp

/-! ## Moments -/

/-- A moment: year, month, day, hour, minute and second. -/
structure Moment where
  fields : List Nat
  fit : Fit momentForm fields

namespace Moment

/-- The order of time: by the first field that differs. -/
instance : LT Moment := ⟨fun a b => a.fields < b.fields⟩

/-- A moment as the cluster writes it, such as `2024-02-29T23:59:00Z`. -/
def text (moment : Moment) : String :=
  String.ofList (written momentForm moment.fields)

/-- **Texts are ordered as their moments.** -/
theorem text_lt_text {a b : Moment} : a.text < b.text ↔ a < b := by
  rw [String.lt_iff_toList_lt]
  unfold text
  rw [String.toList_ofList, String.toList_ofList]
  exact written_lt_written a.fit b.fit

end Moment

end Rollout
