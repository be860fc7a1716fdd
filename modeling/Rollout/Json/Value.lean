import Rollout.Number.Decimal
import Rollout.Text.Pieces

/-!
# JSON values

- `Json`: a JSON value; the members of an object keep their order.
- `Json.member?`, `Members.put`: looking a member up, and setting it in place.
- `Json.isHollow`: null, false, zero, and the empty text, list and object.
- `Json.same`: equality of values; a truth value equals the number 1 or 0, and the order of
  members does not count.
- `Json.less?`: the order of numbers, texts and lists; other values have none.
-/

namespace Rollout

/-- A JSON value. -/
inductive Json
  | null
  | bool (b : Bool)
  | num (n : Number)
  | str (s : String)
  | arr (items : List Json)
  | obj (members : List (String × Json))
  deriving Repr, Inhabited

/-- The members of a JSON object, in order. -/
abbrev Members := List (String × Json)

/-! ## Members -/

/-- The value of the member `key`. -/
def Members.find? (members : Members) (key : String) : Option Json :=
  members.lookup key

/-- The members with `key` set to `value`: in its place when it is there, at the end otherwise. -/
def Members.put (key : String) (value : Json) : Members → Members
  | [] => [(key, value)]
  | (k, v) :: rest =>
    if k == key then (key, value) :: rest else (k, v) :: Members.put key value rest

/-- Whether `key` is one of the members. -/
def Members.has (members : Members) (key : String) : Bool :=
  members.any (·.1 == key)

namespace Json

/-- The member `key` of an object; nothing for other values. -/
def member? (key : String) : Json → Option Json
  | .obj members => members.lookup key
  | _ => none

/-- An integer as a JSON value. -/
def int (n : Int) : Json := .num (.int n)

/-- The text, when the value is one. -/
def text? : Json → Option String
  | .str s => some s
  | _ => none

/-- Null, false, zero, and the empty text, list and object. -/
def isHollow : Json → Bool
  | .null => true
  | .bool b => !b
  | .num n => n.same (.int 0)
  | .str s => s.isEmpty
  | .arr items => items.isEmpty
  | .obj members => members.isEmpty

/-- The number a number or a truth value counts as. -/
def asNumber? : Json → Option Number
  | .num n => some n
  | .bool b => some (.int (if b then 1 else 0))
  | _ => none

end Json

/-! ## Equality -/

mutual

/-- Whether two values are equal. -/
def Json.same : Json → Json → Bool
  | .null, .null => true
  | .str a, .str b => a == b
  | .arr xs, .arr ys => sameItems xs ys
  | .obj xs, .obj ys => xs.length == ys.length && sameMembers xs ys
  | .bool a, b => b.asNumber?.any (Number.same (.int (if a then 1 else 0)))
  | .num a, b => b.asNumber?.any (Number.same a)
  | _, _ => false

/-- Whether two lists are equal item by item. -/
def sameItems : List Json → List Json → Bool
  | [], [] => true
  | x :: xs, y :: ys => x.same y && sameItems xs ys
  | _, _ => false

/-- Whether every member of the first list has an equal one in the second. -/
def sameMembers : List (String × Json) → List (String × Json) → Bool
  | [], _ => true
  | (key, x) :: xs, ys => (ys.lookup key).any x.same && sameMembers xs ys

end

/-! ## Order -/

mutual

/-- Whether the first value comes before the second; nothing when they have no order. -/
def Json.less? : Json → Json → Option Bool
  | .str a, .str b => some (Text.precedes a b)
  | .arr xs, .arr ys => lessItems? xs ys
  | .bool a, b => b.asNumber?.map (Number.less (.int (if a then 1 else 0)))
  | .num a, b => b.asNumber?.map (Number.less a)
  | _, _ => none

/-- The order of lists: by the first item that differs, then by length. -/
def lessItems? : List Json → List Json → Option Bool
  | [], ys => some (!ys.isEmpty)
  | _ :: _, [] => some false
  | x :: xs, y :: ys => if x.same y then lessItems? xs ys else x.less? y

end

end Rollout
