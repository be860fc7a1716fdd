import Rollout.Json.Value

/-!
# Reading JSON

- `Json.read?`: the value of a JSON text, or nothing when the text is not JSON.

Beyond the standard, `NaN`, `Infinity` and `-Infinity` are numbers. Of members with one key the
last value counts, at the place of the first. The parts of the reader take the characters left and
return what they read with the characters after it; `fuel` bounds the nesting and the number of
items, and the length of the text is always enough.
-/

namespace Rollout

/-- White space of JSON. -/
def isJsonSpace (c : Char) : Bool :=
  c == ' ' || c == '\t' || c == '\n' || c == '\r'

/-- The characters after leading white space. -/
def skipJsonSpace (cs : List Char) : List Char :=
  cs.dropWhile isJsonSpace

/-- The value of a hexadecimal digit. -/
def hexValue? (c : Char) : Option Nat :=
  if '0' ≤ c && c ≤ '9' then some (c.toNat - '0'.toNat)
  else if 'a' ≤ c && c ≤ 'f' then some (c.toNat - 'a'.toNat + 10)
  else if 'A' ≤ c && c ≤ 'F' then some (c.toNat - 'A'.toNat + 10)
  else none

/-- Four hexadecimal digits. -/
def readUnit : List Char → Option (Nat × List Char)
  | a :: b :: c :: d :: rest => do
    let a ← hexValue? a
    let b ← hexValue? b
    let c ← hexValue? c
    let d ← hexValue? d
    pure (((a * 16 + b) * 16 + c) * 16 + d, rest)
  | _ => none

/-- The character of an escape whose first unit is read; two halves of a pair are one character. -/
def joinUnits (unit : Nat) (rest : List Char) : Char × List Char :=
  if 0xD800 ≤ unit && unit < 0xDC00 then
    match rest with
    | '\\' :: 'u' :: more =>
      match readUnit more with
      | some (low, after) =>
        if 0xDC00 ≤ low && low < 0xE000 then
          (Char.ofNat (0x10000 + (unit - 0xD800) * 0x400 + (low - 0xDC00)), after)
        else (Char.ofNat 0xFFFD, rest)
      | none => (Char.ofNat 0xFFFD, rest)
    | _ => (Char.ofNat 0xFFFD, rest)
  else if 0xDC00 ≤ unit && unit < 0xE000 then (Char.ofNat 0xFFFD, rest)
  else (Char.ofNat unit, rest)

/-- The character of the escape after a backslash. -/
def readEscape : List Char → Option (Char × List Char)
  | '"' :: rest => some ('"', rest)
  | '\\' :: rest => some ('\\', rest)
  | '/' :: rest => some ('/', rest)
  | 'b' :: rest => some (Char.ofNat 0x8, rest)
  | 'f' :: rest => some (Char.ofNat 0xC, rest)
  | 'n' :: rest => some ('\n', rest)
  | 'r' :: rest => some ('\r', rest)
  | 't' :: rest => some ('\t', rest)
  | 'u' :: rest => (readUnit rest).map fun (unit, more) => joinUnits unit more
  | _ => none

/-- A text after its opening quote; `read` is what was read of it, backwards. -/
def readText : Nat → List Char → List Char → Option (String × List Char)
  | 0, _, _ => none
  | _ + 1, _, [] => none
  | fuel + 1, read, c :: cs =>
    if c == '"' then some (String.ofList read.reverse, cs)
    else if c == '\\' then
      match readEscape cs with
      | some (escaped, rest) => readText fuel (escaped :: read) rest
      | none => none
    else if c.toNat < 0x20 then none
    else readText fuel (c :: read) cs

/-- The digits of the integer part: a zero, or a run that does not begin with one. -/
def readIntegerPart : List Char → Option (List Char × List Char)
  | '0' :: rest => some (['0'], rest)
  | cs =>
    match readDigits cs with
    | ([], _) => none
    | (digits, rest) => some (digits, rest)

/-- The digits after a point, when there are some. -/
def readFraction : List Char → List Char × List Char
  | '.' :: rest =>
    match readDigits rest with
    | ([], _) => ([], '.' :: rest)
    | (digits, more) => (digits, more)
  | cs => ([], cs)

/-- Whether an exponent follows. -/
def hasExponent (cs : List Char) : Bool :=
  (readExponent cs).2.length < cs.length

/-- A number after its sign. -/
def readNumber (negative : Bool) (cs : List Char) : Option (Number × List Char) :=
  match readIntegerPart cs with
  | none => none
  | some (whole, afterWhole) =>
    let (fraction, afterFraction) := readFraction afterWhole
    if fraction.isEmpty && !hasExponent afterFraction then
      let magnitude : Int := digitsValue whole
      some (.int (if negative then -magnitude else magnitude), afterWhole)
    else
      let (exponent, rest) := readExponent afterFraction
      let numeral : Numeral :=
        ⟨negative, digitsValue (whole ++ fraction), exponent - fraction.length⟩
      some (.real numeral.value, rest)

/-- A number, with a sign or a name of its own. -/
def readAnyNumber (cs : List Char) : Option (Number × List Char) :=
  match "NaN".toList.isPrefixOf? cs with
  | some rest => some (.real .nan, rest)
  | none =>
  match "Infinity".toList.isPrefixOf? cs with
  | some rest => some (.real (.infinite false), rest)
  | none =>
  match "-Infinity".toList.isPrefixOf? cs with
  | some rest => some (.real (.infinite true), rest)
  | none =>
  match cs with
  | '-' :: rest => readNumber true rest
  | _ => readNumber false cs

/-- The literals and the numbers. -/
def readScalar (cs : List Char) : Option (Json × List Char) :=
  match "null".toList.isPrefixOf? cs with
  | some rest => some (.null, rest)
  | none =>
  match "true".toList.isPrefixOf? cs with
  | some rest => some (.bool true, rest)
  | none =>
  match "false".toList.isPrefixOf? cs with
  | some rest => some (.bool false, rest)
  | none => (readAnyNumber cs).map fun (n, rest) => (.num n, rest)

mutual

/-- A value, at its first character. -/
def readValue : Nat → List Char → Option (Json × List Char)
  | 0, _ => none
  | fuel + 1, '"' :: cs => (readText fuel [] cs).map fun (s, rest) => (.str s, rest)
  | fuel + 1, '[' :: cs =>
    match skipJsonSpace cs with
    | ']' :: rest => some (.arr [], rest)
    | rest => (readItems fuel [] rest).map fun (items, more) => (.arr items, more)
  | fuel + 1, '{' :: cs =>
    match skipJsonSpace cs with
    | '}' :: rest => some (.obj [], rest)
    | rest => (readMembers fuel [] rest).map fun (members, more) => (.obj members, more)
  | _ + 1, cs => readScalar cs

/-- The items of a list from one item on; `items` are those before it. -/
def readItems : Nat → List Json → List Char → Option (List Json × List Char)
  | 0, _, _ => none
  | fuel + 1, items, cs =>
    match readValue fuel cs with
    | none => none
    | some (item, rest) =>
      match skipJsonSpace rest with
      | ',' :: more => readItems fuel (items ++ [item]) (skipJsonSpace more)
      | ']' :: more => some (items ++ [item], more)
      | _ => none

/-- The members of an object from one key on; `members` are those before it. -/
def readMembers : Nat → Members → List Char → Option (Members × List Char)
  | 0, _, _ => none
  | fuel + 1, members, '"' :: cs =>
    match readText fuel [] cs with
    | none => none
    | some (key, afterKey) =>
      match skipJsonSpace afterKey with
      | ':' :: afterColon =>
        match readValue fuel (skipJsonSpace afterColon) with
        | none => none
        | some (value, rest) =>
          let members := Members.put key value members
          match skipJsonSpace rest with
          | ',' :: more => readMembers fuel members (skipJsonSpace more)
          | '}' :: more => some (members, more)
          | _ => none
      | _ => none
  | _ + 1, _, _ => none

end

/-- The value of a JSON text. -/
def Json.read? (text : String) : Option Json :=
  let cs := skipJsonSpace text.toList
  match readValue (cs.length + 1) cs with
  | some (value, rest) => if (skipJsonSpace rest).isEmpty then some value else none
  | none => none

end Rollout
