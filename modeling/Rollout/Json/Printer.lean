import Rollout.Json.Display

/-!
# Writing JSON

- `Json.render`: the text of a value: a comma and a space between items, a colon and a space after
  keys, everything beyond printable ASCII escaped.
-/

namespace Rollout

/-- The two halves of a code point beyond the first plane. -/
def surrogates (code : Nat) : Nat × Nat :=
  (0xD800 + (code - 0x10000) / 0x400, 0xDC00 + (code - 0x10000) % 0x400)

/-- A 16-bit unit as an escape. -/
def unitEscape (unit : Nat) : List Char :=
  '\\' :: 'u' :: hexDigits 4 unit

/-- One character of a JSON text. -/
def jsonChar (c : Char) : List Char :=
  if c == '"' || c == '\\' then ['\\', c]
  else if c == '\n' then ['\\', 'n']
  else if c == '\r' then ['\\', 'r']
  else if c == '\t' then ['\\', 't']
  else if c.toNat == 0xC then ['\\', 'f']
  else if c.toNat == 0x8 then ['\\', 'b']
  else if ' ' ≤ c && c ≤ '~' then [c]
  else if c.toNat < 0x10000 then unitEscape c.toNat
  else
    let (high, low) := surrogates c.toNat
    unitEscape high ++ unitEscape low

/-- A text as JSON. -/
def jsonText (text : String) : String :=
  String.ofList ('"' :: text.toList.flatMap jsonChar ++ ['"'])

/-- A number as JSON, with names for the values that are not finite. -/
def jsonNumber : Number → String
  | .int n => toString n
  | .real .nan => "NaN"
  | .real (.infinite false) => "Infinity"
  | .real (.infinite true) => "-Infinity"
  | .real x => x.text

mutual

/-- The JSON text of a value. -/
def Json.render : Json → String
  | .null => "null"
  | .bool true => "true"
  | .bool false => "false"
  | .num n => jsonNumber n
  | .str s => jsonText s
  | .arr items => enclosed "[" "]" (renderItems items)
  | .obj members => enclosed "\x7b" "\x7d" (renderMembers members)

/-- The JSON texts of the items of a list. -/
def renderItems : List Json → List String
  | [] => []
  | item :: items => item.render :: renderItems items

/-- The JSON texts of the members of an object. -/
def renderMembers : List (String × Json) → List String
  | [] => []
  | (key, value) :: members => (jsonText key ++ ": " ++ value.render) :: renderMembers members

end

end Rollout
