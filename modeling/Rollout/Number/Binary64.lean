/-!
# Binary floating-point numbers

The 64-bit numbers of binary floating point, exactly: a finite one is a sign, a mantissa below
`2 ^ 53` and an exponent of two that is at least `-1074`.

- `Binary64`: the type.
- `ofRatio`: the nearest number to a non-negative ratio, ties to the even mantissa.
- `ofInt`: the nearest number to an integer.
- `wholeValue?`: the integer a number is equal to, if any.
- `less`, `same`: the order and the equality of values; nothing holds of a not-a-number.
-/

namespace Rollout

/-- A binary floating-point number of 64 bits. -/
inductive Binary64
  /-- Not a number. -/
  | nan
  /-- Beyond every finite number, or below. -/
  | infinite (negative : Bool)
  /-- The value `mantissa * 2 ^ exponent`, negated when `negative`. -/
  | finite (negative : Bool) (mantissa : Nat) (exponent : Int)
  deriving DecidableEq, Repr

namespace Binary64

/-- The least exponent. -/
def minExponent : Int := -1074

/-- The greatest exponent. -/
def maxExponent : Int := 971

/-- The mantissas end before `2 ^ 53`. -/
def mantissaBound : Nat := 9007199254740992

/-- The zero without a sign. -/
def zero : Binary64 := .finite false 0 minExponent

/-- Two to a power. -/
def twoPow (n : Nat) : Nat := Nat.pow 2 n

/-! ## Rounding -/

/-- The quotient rounded to the nearest integer, ties to the even one. -/
def divideToEven (num den : Nat) : Nat :=
  let quotient := num / den
  let twice := 2 * (num % den)
  if twice < den then quotient
  else if den < twice then quotient + 1
  else quotient + quotient % 2

/-- The ratio `num / (den * 2 ^ exponent)` as a pair of naturals. -/
def scaled (num den : Nat) (exponent : Int) : Nat × Nat :=
  if 0 ≤ exponent then (num, den * twoPow exponent.toNat)
  else (num * twoPow (-exponent).toNat, den)

/-- The exponent that brings the mantissa of `num / den` to its 53 bits, as far as exponents go. -/
def fittingExponent (num den : Nat) : Int :=
  let guess : Int := (Nat.log2 num : Int) - Nat.log2 den - 53
  let fits (exponent : Int) : Bool :=
    let (n, d) := scaled num den exponent
    n / d < mantissaBound
  let exponent :=
    if fits guess then guess else if fits (guess + 1) then guess + 1 else guess + 2
  max exponent minExponent

/-- The number nearest to `num / den`, negated when `negative`. -/
def ofRatio (negative : Bool) (num den : Nat) : Binary64 :=
  if num = 0 then .finite negative 0 minExponent
  else
    let exponent := fittingExponent num den
    let (n, d) := scaled num den exponent
    let rounded := divideToEven n d
    let (mantissa, exponent) :=
      if rounded < mantissaBound then (rounded, exponent) else (rounded / 2, exponent + 1)
    if maxExponent < exponent then .infinite negative else .finite negative mantissa exponent

/-- The number nearest to an integer. -/
def ofInt (n : Int) : Binary64 :=
  ofRatio (decide (n < 0)) n.natAbs 1

/-! ## Values -/

/-- The value as an integer over `2 ^ shift`, for every `shift` that covers the exponent. -/
def overTwoPow (shift : Nat) (negative : Bool) (mantissa : Nat) (exponent : Int) : Int :=
  let magnitude : Int := (mantissa * twoPow (exponent + shift).toNat : Nat)
  if negative then -magnitude else magnitude

/-- The exponent below zero that both numbers can be brought to. -/
def commonShift (e₁ e₂ : Int) : Nat :=
  (max (max (-e₁) (-e₂)) 0).toNat

/-- Whether the first value is less than the second. -/
def less : Binary64 → Binary64 → Bool
  | .nan, _ => false
  | _, .nan => false
  | .infinite n₁, .infinite n₂ => n₁ && !n₂
  | .infinite n₁, .finite _ _ _ => n₁
  | .finite _ _ _, .infinite n₂ => !n₂
  | .finite n₁ m₁ e₁, .finite n₂ m₂ e₂ =>
    let shift := commonShift e₁ e₂
    decide (overTwoPow shift n₁ m₁ e₁ < overTwoPow shift n₂ m₂ e₂)

/-- Whether the two values are equal. -/
def same : Binary64 → Binary64 → Bool
  | .nan, _ => false
  | _, .nan => false
  | .infinite n₁, .infinite n₂ => n₁ == n₂
  | .infinite _, .finite _ _ _ => false
  | .finite _ _ _, .infinite _ => false
  | .finite n₁ m₁ e₁, .finite n₂ m₂ e₂ =>
    let shift := commonShift e₁ e₂
    decide (overTwoPow shift n₁ m₁ e₁ = overTwoPow shift n₂ m₂ e₂)

/-- The integer the number is equal to. -/
def wholeValue? : Binary64 → Option Int
  | .finite negative mantissa exponent =>
    let magnitude? : Option Nat :=
      if 0 ≤ exponent then some (mantissa * twoPow exponent.toNat)
      else
        let unit := twoPow (-exponent).toNat
        if mantissa % unit = 0 then some (mantissa / unit) else none
    magnitude?.map fun (magnitude : Nat) => if negative then -(magnitude : Int) else magnitude
  | _ => none

/-- Whether the number is a number and not infinite. -/
def isFinite : Binary64 → Bool
  | .finite _ _ _ => true
  | _ => false

end Binary64

end Rollout
