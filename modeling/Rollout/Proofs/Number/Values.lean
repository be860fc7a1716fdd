import Mathlib.Tactic.Positivity
import Mathlib.Tactic.Ring
import Rollout.Number.Binary64

/-!
# Values of binary floating-point numbers

A finite number has a rational value, and finite numbers are compared by their values. Infinity has
none, but it is above every lower bound; no number is above none.

- `Binary64.value?`: the value of a finite number.
- `overTwoPow_eq`: the integers that are compared are values, all scaled alike.
- `less_iff`, `same_iff`: **comparing** is comparing values.
- `Meets`, `Passes`: numbers whose value meets a bound, and numbers it lets through.
- `fromZero_iff`, `aboveZero_iff`: which numbers a bound of zero lets through.
-/

namespace Rollout.Binary64

/-- The value of a finite number. -/
def value? : Binary64 → Option ℚ
  | .nan => none
  | .infinite _ => none
  | .finite negative mantissa exponent =>
    some ((if negative then -1 else 1) * mantissa * 2 ^ exponent)

theorem isSome_value? (x : Binary64) : x.value?.isSome = x.isFinite := by
  cases x <;> rfl

theorem value?_zero : zero.value? = some 0 := by
  simp [value?, zero]

/-- The integers that are compared are values, all scaled alike. -/
theorem overTwoPow_eq {shift : Nat} (negative : Bool) (mantissa : Nat) {exponent : Int}
    (h : 0 ≤ exponent + shift) :
    (overTwoPow shift negative mantissa exponent : ℚ)
      = (if negative then -1 else 1) * mantissa * 2 ^ exponent * 2 ^ shift := by
  have hscale : (2 : ℚ) ^ (exponent + shift).toNat = 2 ^ exponent * 2 ^ shift := by
    rw [← zpow_natCast, Int.toNat_of_nonneg h, zpow_add₀ two_ne_zero, zpow_natCast]
  have hmagnitude : ((mantissa * twoPow (exponent + shift).toNat : Nat) : ℚ)
      = mantissa * 2 ^ exponent * 2 ^ shift := by
    rw [Nat.cast_mul, mul_assoc, ← hscale]
    exact congrArg (_ * ·) (Nat.cast_pow 2 _)
  unfold overTwoPow
  cases negative with
  | true =>
    rw [if_pos rfl, if_pos rfl, Int.cast_neg, Int.cast_natCast, hmagnitude]
    ring
  | false =>
    rw [if_neg Bool.false_ne_true, if_neg Bool.false_ne_true, Int.cast_natCast, hmagnitude]
    ring

section Comparing

variable {x y : Binary64} {p q : ℚ}

/-- Both numbers of a comparison are covered by their common scale. -/
theorem commonShift_covers (e₁ e₂ : Int) :
    0 ≤ e₁ + commonShift e₁ e₂ ∧ 0 ≤ e₂ + commonShift e₁ e₂ := by
  unfold commonShift
  omega

/-- **Less** is less in value. -/
theorem less_iff (hx : x.value? = some p) (hy : y.value? = some q) :
    x.less y = true ↔ p < q := by
  cases x with
  | nan => cases hx
  | infinite => cases hx
  | finite n₁ m₁ e₁ =>
    cases y with
    | nan => cases hy
    | infinite => cases hy
    | finite n₂ m₂ e₂ =>
      cases hx
      cases hy
      obtain ⟨hfirst, hsecond⟩ := commonShift_covers e₁ e₂
      rw [less, decide_eq_true_iff, ← Int.cast_lt (R := ℚ), overTwoPow_eq n₁ m₁ hfirst,
        overTwoPow_eq n₂ m₂ hsecond]
      exact mul_lt_mul_iff_left₀ (by positivity)

/-- **Equal** is equal in value. -/
theorem same_iff (hx : x.value? = some p) (hy : y.value? = some q) :
    x.same y = true ↔ p = q := by
  cases x with
  | nan => cases hx
  | infinite => cases hx
  | finite n₁ m₁ e₁ =>
    cases y with
    | nan => cases hy
    | infinite => cases hy
    | finite n₂ m₂ e₂ =>
      cases hx
      cases hy
      obtain ⟨hfirst, hsecond⟩ := commonShift_covers e₁ e₂
      rw [same, decide_eq_true_iff, ← Int.cast_inj (α := ℚ), overTwoPow_eq n₁ m₁ hfirst,
        overTwoPow_eq n₂ m₂ hsecond]
      exact mul_left_inj' (by positivity)

end Comparing

/-! ## Numbers from zero on and above zero -/

section Bounds

variable {x : Binary64} {p : ℚ} {bound : ℚ → Prop}

/-- Besides the finite numbers, which have a value, there are three. -/
theorem value_cases (x : Binary64) :
    x = .nan ∨ x = .infinite true ∨ x = .infinite false ∨ ∃ p, x.value? = some p := by
  cases x with
  | nan => exact .inl rfl
  | infinite negative =>
    cases negative with
    | true => exact .inr (.inl rfl)
    | false => exact .inr (.inr (.inl rfl))
  | finite negative mantissa exponent => exact .inr (.inr (.inr ⟨_, rfl⟩))

/-- A number whose value meets a bound. -/
def Meets (bound : ℚ → Prop) (x : Binary64) : Prop :=
  ∃ p, x.value? = some p ∧ bound p

/-- What a lower bound lets through: the numbers that meet it, and infinity. -/
def Passes (bound : ℚ → Prop) (x : Binary64) : Prop :=
  x = .infinite false ∨ x.Meets bound

theorem meets_of_value (h : x.value? = some p) : x.Meets bound ↔ bound p := by
  constructor
  · rintro ⟨q, hq, hbound⟩
    cases h.symm.trans hq
    exact hbound
  · exact fun hbound => ⟨p, h, hbound⟩

/-- Of the numbers with a value, those that meet the bound are let through. -/
theorem passes_of_value (h : x.value? = some p) : x.Passes bound ↔ bound p := by
  have hfinite : x ≠ .infinite false := by
    rintro rfl
    cases h
  rw [Passes, or_iff_right hfinite, meets_of_value h]

/-- Of the numbers that are let through, the finite ones meet the bound. -/
theorem Passes.meets_iff (h : x.Passes bound) : x.Meets bound ↔ x.isFinite = true := by
  rw [← isSome_value?, Option.isSome_iff_exists]
  constructor
  · exact fun ⟨p, hp, _⟩ => ⟨p, hp⟩
  · exact fun ⟨p, hp⟩ => ⟨p, hp, (passes_of_value hp).mp h⟩

theorem not_passes_nan : ¬ nan.Passes bound := by
  rintro (h | ⟨_, h, _⟩) <;> cases h

theorem not_passes_minusInfinity : ¬ (infinite true).Passes bound := by
  rintro (h | ⟨_, h, _⟩) <;> cases h

/-- **From zero on** are infinity and the numbers whose value is not negative. -/
theorem fromZero_iff : (zero.less x || zero.same x) = true ↔ x.Passes (0 ≤ ·) := by
  rcases x.value_cases with rfl | rfl | rfl | ⟨p, hp⟩
  · exact iff_of_false nofun not_passes_nan
  · exact iff_of_false nofun not_passes_minusInfinity
  · exact iff_of_true rfl (.inl rfl)
  · rw [passes_of_value hp, Bool.or_eq_true, less_iff value?_zero hp, same_iff value?_zero hp,
      ← le_iff_lt_or_eq]

/-- **Above zero** are infinity and the numbers whose value is positive. -/
theorem aboveZero_iff : zero.less x = true ↔ x.Passes (0 < ·) := by
  rcases x.value_cases with rfl | rfl | rfl | ⟨p, hp⟩
  · exact iff_of_false nofun not_passes_nan
  · exact iff_of_false nofun not_passes_minusInfinity
  · exact iff_of_true rfl (.inl rfl)
  · rw [passes_of_value hp, less_iff value?_zero hp]

end Bounds

end Rollout.Binary64
