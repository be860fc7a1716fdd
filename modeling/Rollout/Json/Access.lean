import Rollout.Failure
import Rollout.Json.Reader

/-!
# Reading values of unknown shape

Replies of a cluster and bodies of responses may have any shape. Reading them fails where the shape
does not fit.

- `Json.asked`: a member of a value that has to be an object.
- `Json.items`: what a value holds: items, keys or characters.
- `Json.mentions`: whether a value holds a text.
- `Json.orElse`: a value, or another one in place of a hollow one.
-/

namespace Rollout.Json

/-- The member of an object; values that are not objects have no members to ask for. -/
def asked (key : String) : Json → Except Failure (Option Json)
  | .obj members => .ok (members.lookup key)
  | _ => .error .noMembers

/-- The member of an object, or `absent` when it has none of this name. -/
def askedOr (value : Json) (key : String) (absent : Json) : Except Failure Json := do
  return (← value.asked key).getD absent

/-- The value, unless it is hollow. -/
def orElse (value other : Json) : Json :=
  if value.isHollow then other else value

/-- What a value holds: the items of a list, the keys of an object, the characters of a text. -/
def items : Json → Except Failure (List Json)
  | .arr items => .ok items
  | .obj members => .ok (members.map fun entry => .str entry.1)
  | .str s => .ok (s.toList.map fun c => .str (String.ofList [c]))
  | _ => .error .wrongType

/-- Whether a value holds a text: as a key, an item, or a part of it. -/
def mentions (text : String) : Json → Except Failure Bool
  | .obj members => .ok (Members.has members text)
  | .arr items => .ok (items.any fun item => item.same (.str text))
  | .str s => .ok (Text.occurs text.toList s.toList)
  | _ => .error .wrongType

/-- The value read from a text. -/
def ofText (text : String) : Except Failure Json :=
  match Json.read? text with
  | some value => .ok value
  | none => .error .badJson

end Rollout.Json
