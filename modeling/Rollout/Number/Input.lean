import Rollout.Number.Decimal
import Rollout.Text.Blank
import Rollout.Text.Pieces

/-!
# Numbers in settings

Settings may give numbers as text, written more freely than in JSON.

- `integerOfText?`: an integer, with white space around it, a sign, single underscores between
  digits, and zeros behind a point.
- `realOfText?`: a number with or without a point and an exponent, or the name of infinity or of
  no number.
-/

namespace Rollout

/-- The digits of a text where single underscores may stand between digits. -/
def digitsBetweenUnderscores : List Char → Option (List Char)
  | [] => some []
  | [c] => if isDigit c then some [c] else none
  | c :: '_' :: d :: cs =>
    if isDigit c && isDigit d then (c :: ·) <$> digitsBetweenUnderscores (d :: cs) else none
  | c :: d :: cs => if isDigit c then (c :: ·) <$> digitsBetweenUnderscores (d :: cs) else none

/-- The characters before a point that only zeros follow; all of them when there is no such
point. -/
def withoutZeroFraction (cs : List Char) : List Char :=
  match cs.span (· != '.') with
  | (whole, '.' :: fraction) => if fraction.all (· == '0') then whole else cs
  | _ => cs

/-- The characters after a sign, and whether the sign is a minus. -/
def afterSign : List Char → Bool × List Char
  | '-' :: cs => (true, cs)
  | '+' :: cs => (false, cs)
  | cs => (false, cs)

/-- The integer a text says. -/
def integerOfText? (text : String) : Option Int :=
  let (negative, body) := afterSign (withoutZeroFraction (Text.trim text).toList)
  match digitsBetweenUnderscores body with
  | none => none
  | some [] => none
  | some digits =>
    let magnitude : Int := digitsValue digits
    some (if negative then -magnitude else magnitude)

/-- The names of the values that are not finite; the case of their letters does not count. -/
def namedReal? (negative : Bool) (cs : List Char) : Option Binary64 :=
  let name := cs.map Char.toLower
  if name == "inf".toList || name == "infinity".toList then some (.infinite negative)
  else if name == "nan".toList then some .nan
  else none

/-- The number some characters say. -/
def realOfChars? (cs : List Char) : Option Binary64 :=
  let (negative, body) := afterSign cs
  match namedReal? negative body with
  | some named => some named
  | none =>
    let (whole, afterWhole) := readDigits body
    let (fraction, afterFraction) :=
      match afterWhole with
      | '.' :: rest => readDigits rest
      | _ => ([], afterWhole)
    if whole.isEmpty && fraction.isEmpty then none
    else
      match readExponent afterFraction with
      | (exponent, []) =>
        some (Numeral.value ⟨negative, digitsValue (whole ++ fraction), exponent - fraction.length⟩)
      | _ => none

/-- The number a text says; single underscores may stand inside. -/
def realOfText? (text : String) : Option Binary64 :=
  match realOfChars? (Text.trim text).toList with
  | some x => some x
  | none =>
    let cs := text.toList
    let twice := Text.occurs ['_', '_'] cs
    if cs.head? == some '_' || cs.getLast? == some '_' || twice || !cs.contains '_' then none
    else realOfChars? (cs.filter (· != '_'))

end Rollout
