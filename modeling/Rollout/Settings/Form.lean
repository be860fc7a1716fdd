import Rollout.Failure
import Rollout.Files.Path
import Rollout.Number.Input

/-!
# Reading settings

Settings are read from the members of an object. All problems are reported, in the order of the
fields, each with the place of its field.

- `Checked`: a value, or what is wrong with the fields it is read from.
- `Form.required`, `Form.optional`, `Form.complete`: reading field by field.
- `textField`, `integerField`, `realField`, `truthField`, `pathField`, `listField`, `objectField`:
  what fields may hold.
-/

namespace Rollout

/-- A value, or what is wrong with the fields it is read from. -/
abbrev Checked (α : Type) := Except (List FieldError) α

/-- A single problem of the value itself. -/
def problem {α : Type} (problem : FieldProblem) : Checked α :=
  .error [⟨[], problem⟩]

/-- The error as it is seen from outside the field `name`. -/
def FieldError.under (name : String) (error : FieldError) : FieldError :=
  { error with place := name :: error.place }

/-! ## Forms -/

/-- Reading field by field; problems are collected, and a field with a problem reads as some
value. -/
abbrev Form := StateM (List FieldError)

namespace Form

variable {α : Type}

/-- The value of a field, or a stand-in when it has problems. -/
def keep (name : String) (standIn : α) (value : Checked α) : Form α :=
  match value with
  | .ok a => pure a
  | .error errors => do
    modify fun found => found ++ errors.map (FieldError.under name)
    return standIn

/-- A field that has to be there. -/
def required [Inhabited α] (members : Members) (name : String) (read : Json → Checked α) :
    Form α :=
  keep name default <|
    match members.lookup name with
    | some value => read value
    | none => problem .missing

/-- A field with a value for when it is absent. -/
def optional (members : Members) (name : String) (absent : α) (read : Json → Checked α) :
    Form α :=
  keep name absent <|
    match members.lookup name with
    | some value => read value
    | none => .ok absent

/-- The value of a form without problems. -/
def complete (form : Form α) : Checked α :=
  match form.run [] with
  | (value, []) => .ok value
  | (_, errors) => .error errors

end Form

/-! ## Fields -/

/-- A text. -/
def textField : Json → Checked String
  | .str s => .ok s
  | _ => problem .notText

/-- A value that may be null. -/
def nullable {α : Type} (read : Json → Checked α) : Json → Checked (Option α)
  | .null => .ok none
  | value => some <$> read value

/-- A path. -/
def pathField : Json → Checked Path
  | .str s => .ok (Path.read s)
  | _ => problem .notPath

/-- The most bytes a text may have that says an integer. -/
def integerTextLimit : Nat := 4300

/-- Whether an integer that comes as a 64-bit number is too large to be taken for exact. -/
def isOversized (n : Int) : Bool :=
  decide (9223372036854775807 < n.natAbs)

/-- The integer a 64-bit number is. -/
def integerOfReal (x : Binary64) : Checked Int :=
  if !x.isFinite then problem .notFinite
  else
    match x.wholeValue? with
    | none => problem .fractionalInteger
    | some n => if isOversized n then problem .oversizedInteger else .ok n

/-- An integer: as a number, a truth value or a text. -/
def integerField : Json → Checked Int
  | .num (.int n) => .ok n
  | .num (.real x) => integerOfReal x
  | .bool b => .ok (if b then 1 else 0)
  | .str s =>
    if integerTextLimit < s.utf8ByteSize then problem .oversizedInteger
    else
      match integerOfText? s with
      | some n => .ok n
      | none => problem .unreadableInteger
  | _ => problem .notInteger

/-- A number: as a number, a truth value or a text. An integer that is too large for a 64-bit
number is none. -/
def realField : Json → Checked Binary64
  | .num n =>
    match n, n.toReal with
    | .int _, .infinite _ => problem .notNumber
    | _, x => .ok x
  | .bool b => .ok (Binary64.ofInt (if b then 1 else 0))
  | .str s =>
    match realOfText? s with
    | some x => .ok x
    | none => problem .unreadableNumber
  | _ => problem .notNumber

/-- An integer that is not less than a bound. -/
def integerFrom (least : Int) (value : Json) : Checked Int := do
  let n ← integerField value
  if n < least then problem .tooSmall else return n

/-- A number from zero on. No number is not from zero on; infinity is. -/
def realFromZero (value : Json) : Checked Binary64 := do
  let x ← realField value
  if Binary64.zero.less x || Binary64.zero.same x then return x else problem .tooSmall

/-- A number above zero. No number is not above zero; infinity is. -/
def realAboveZero (value : Json) : Checked Binary64 := do
  let x ← realField value
  if Binary64.zero.less x then return x else problem .notAbove

/-- The texts that say yes. -/
def affirmations : List String := ["1", "on", "t", "true", "y", "yes"]

/-- The texts that say no. -/
def denials : List String := ["0", "off", "f", "false", "n", "no"]

/-- Whether an integer fits into 64 bits with a sign. -/
def fitsWord (n : Int) : Bool :=
  decide (-9223372036854775808 ≤ n) && decide (n ≤ 9223372036854775807)

/-- The truth value that one or zero stands for. -/
def truthOfInteger (n : Int) : Checked Bool :=
  if n = 0 then .ok false else if n = 1 then .ok true else problem .unreadableTruth

/-- A truth value: as such, as one or zero, or as a text. -/
def truthField : Json → Checked Bool
  | .bool b => .ok b
  | .str s =>
    let word := String.ofList (s.toList.map Char.toLower)
    if affirmations.contains word then .ok true
    else if denials.contains word then .ok false
    else problem .unreadableTruth
  | .num (.int n) => if fitsWord n then truthOfInteger n else problem .notTruth
  | .num (.real x) =>
    match x.wholeValue? with
    | none => problem .notTruth
    | some n => if isOversized n then problem .notTruth else truthOfInteger n
  | _ => problem .notTruth

/-- The items of a list, from a position on; their places are their positions. -/
def listItems {α : Type} [Inhabited α] (read : Json → Checked α) : Nat → List Json → Form (List α)
  | _, [] => return []
  | index, item :: rest => do
    let value ← Form.keep (toString index) default (read item)
    return value :: (← listItems read (index + 1) rest)

/-- A list. -/
def listField {α : Type} [Inhabited α] (read : Json → Checked α) : Json → Checked (List α)
  | .arr items => Form.complete (listItems read 0 items)
  | _ => problem .notList

/-- An object. -/
def objectField {α : Type} (read : Members → Checked α) : Json → Checked α
  | .obj members => read members
  | _ => problem .notObject

end Rollout
