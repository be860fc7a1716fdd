import Rollout.Number.Binary64

/-!
# Decimal texts of numbers

- `Numeral`: what a decimal text says: a sign, digits, and an exponent of ten.
- `Numeral.value`: the nearest 64-bit number.
- `readDigits`, `readExponent`: reading from characters, with what is left.
- `Binary64.text`: the shortest text that reads back as the number, in plain or in scientific
  form.
-/

namespace Rollout

/-! ## Reading -/

/-- A decimal number `digits * 10 ^ exponent`, negated when `negative`. -/
structure Numeral where
  negative : Bool
  digits : Nat
  exponent : Int
  deriving DecidableEq, Repr

/-- Decimal exponents outside this range leave no finite number but zero. -/
def exponentReach : Int := 400

/-- The number of decimal digits of `n`. -/
def digitCount (n : Nat) : Nat :=
  (Nat.toDigits 10 n).length

/-- Ten to a power. -/
def tenPow (n : Nat) : Nat := Nat.pow 10 n

/-- The 64-bit number nearest to the numeral. -/
def Numeral.value (numeral : Numeral) : Binary64 :=
  let size : Int := numeral.exponent + digitCount numeral.digits
  if numeral.digits = 0 then Binary64.ofRatio numeral.negative 0 1
  else if exponentReach < size then .infinite numeral.negative
  else if size < -exponentReach then Binary64.ofRatio numeral.negative 0 1
  else if 0 ≤ numeral.exponent then
    Binary64.ofRatio numeral.negative (numeral.digits * tenPow numeral.exponent.toNat) 1
  else Binary64.ofRatio numeral.negative numeral.digits (tenPow (-numeral.exponent).toNat)

/-- Whether `c` is one of the ten decimal digits. -/
def isDigit (c : Char) : Bool :=
  '0' ≤ c && c ≤ '9'

/-- The value of a decimal digit. -/
def digitValue (c : Char) : Nat :=
  c.toNat - '0'.toNat

/-- The value of a run of decimal digits. -/
def digitsValue (cs : List Char) : Nat :=
  cs.foldl (fun value c => 10 * value + digitValue c) 0

/-- The run of digits the characters begin with, and the rest. -/
def readDigits (cs : List Char) : List Char × List Char :=
  cs.span isDigit

/-- The exponent that follows a mantissa, `0` when there is none, and the rest. -/
def readExponent (cs : List Char) : Int × List Char :=
  match cs with
  | mark :: rest =>
    if mark == 'e' || mark == 'E' then
      let (negative, afterSign) :=
        match rest with
        | '-' :: more => (true, more)
        | '+' :: more => (false, more)
        | _ => (false, rest)
      match readDigits afterSign with
      | ([], _) => (0, cs)
      | (digits, more) =>
        let magnitude : Int := digitsValue digits
        (if negative then -magnitude else magnitude, more)
    else (0, cs)
  | [] => (0, [])

/-! ## Writing -/

/-- The least `point` with `num / den < 10 ^ point`, searched from a guess upwards. -/
def decimalPoint (num den : Nat) : Nat → Int → Int
  | 0, point => point
  | fuel + 1, point =>
    let below : Bool :=
      if 0 ≤ point then num < den * tenPow point.toNat
      else num * tenPow (-point).toNat < den
    if below then point else decimalPoint num den fuel (point + 1)

/-- The magnitude of a finite number as a ratio. -/
def Binary64.ratio (mantissa : Nat) (exponent : Int) : Nat × Nat :=
  if 0 ≤ exponent then (mantissa * Binary64.twoPow exponent.toNat, 1)
  else (mantissa, Binary64.twoPow (-exponent).toNat)

/-- The decimal numbers with `count` digits just below and just above a ratio, nearer one first. -/
def neighbours (num den : Nat) (point : Int) (count : Nat) : List Numeral :=
  let exponent : Int := point - count
  let (n, d) :=
    if 0 ≤ exponent then (num, den * tenPow exponent.toNat)
    else (num * tenPow (-exponent).toNat, den)
  let floor := n / d
  let low : Numeral := ⟨false, floor, exponent⟩
  let high : Numeral := ⟨false, floor + 1, exponent⟩
  if n % d = 0 then [low]
  else if 2 * (n % d) < d || (2 * (n % d) == d && floor % 2 == 0) then [low, high]
  else [high, low]

/-- The first decimal number of at most `count + fuel` digits, shortest first, that reads back as
`target`. -/
def shortestNumeral (target : Binary64) (num den : Nat) (point : Int) : Nat → Nat → Option Numeral
  | 0, _ => none
  | fuel + 1, count =>
    match (neighbours num den point count).find? (·.value == target) with
    | some numeral => some numeral
    | none => shortestNumeral target num den point fuel (count + 1)

/-- Digits and the place of the point, in plain form between `10 ^ -4` and `10 ^ 16`, otherwise in
scientific form. `point` counts the digits before the point. -/
def layoutDigits (digits : List Char) (point : Int) : List Char :=
  if -4 < point && point ≤ 16 then
    if point ≤ 0 then '0' :: '.' :: (List.replicate (-point).toNat '0' ++ digits)
    else if digits.length ≤ point.toNat then
      digits ++ List.replicate (point.toNat - digits.length) '0' ++ ['.', '0']
    else digits.take point.toNat ++ '.' :: digits.drop point.toNat
  else
    let scale := point - 1
    let sign := if scale < 0 then '-' else '+'
    let amount := Nat.toDigits 10 scale.natAbs
    let padded := if amount.length < 2 then '0' :: amount else amount
    let head := digits.take 1
    let tail := digits.drop 1
    head ++ (if tail.isEmpty then [] else '.' :: tail) ++ 'e' :: sign :: padded

/-- The digits of a natural number without the zeros at its end. -/
def significantDigits (n : Nat) : List Char :=
  ((Nat.toDigits 10 n).reverse.dropWhile (· == '0')).reverse

/-- The shortest text that reads back as the number. -/
def Binary64.text : Binary64 → String
  | .nan => "nan"
  | .infinite negative => if negative then "-inf" else "inf"
  | .finite negative mantissa exponent =>
    let sign := if negative then "-" else ""
    if mantissa = 0 then sign ++ "0.0"
    else
      let (num, den) := Binary64.ratio mantissa exponent
      let guess : Int := ((Nat.log2 num : Int) - Nat.log2 den - 1) * 3 / 10 - 2
      let point := decimalPoint num den 40 guess
      match shortestNumeral (.finite false mantissa exponent) num den point 17 1 with
      | some numeral =>
        let digits := significantDigits numeral.digits
        let place := numeral.exponent + digitCount numeral.digits
        sign ++ String.ofList (layoutDigits digits place)
      | none => sign ++ "0.0"

/-! ## Integers and 64-bit numbers together -/

/-- A number that is written as an integer or as a decimal fraction. -/
inductive Number
  | int (n : Int)
  | real (x : Binary64)
  deriving DecidableEq, Repr

namespace Number

/-- The nearest 64-bit number. -/
def toReal : Number → Binary64
  | .int n => Binary64.ofInt n
  | .real x => x

/-- The number as text. -/
def text : Number → String
  | .int n => toString n
  | .real x => x.text

/-- The integer it is equal to. -/
def wholeValue? : Number → Option Int
  | .int n => some n
  | .real x => x.wholeValue?

/-- An integer as a value exactly, however large; used to compare it with a 64-bit number. -/
def exact : Number → Binary64
  | .int n => .finite (decide (n < 0)) n.natAbs 0
  | .real x => x

/-- Whether the first value is less than the second. -/
def less (a b : Number) : Bool :=
  a.exact.less b.exact

/-- Whether the two values are equal. -/
def same (a b : Number) : Bool :=
  a.exact.same b.exact

end Number

end Rollout
