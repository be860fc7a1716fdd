import Rollout.Xml.Node
import Rollout.Text.Blank

/-!
# Indentation

- `lineBreak`: a line break and the indentation of a depth.
- `Node.indented`: a tree whose blank texts and tails are replaced by indentation; text that is not
  blank stays as it is.
-/

namespace Rollout.Xml

/-- A line break followed by `depth` units of indentation. -/
def lineBreak (unit : String) (depth : Nat) : String :=
  "\n" ++ String.join (List.replicate depth unit)

/-- The text, or the replacement when there is none or it is blank. -/
def unlessBlank (text : Option String) (replacement : String) : Option String :=
  match text with
  | some s => if Text.allBlank s then some replacement else some s
  | none => some replacement

mutual

/-- The tree at `depth` with its inside indented; its own tail stays. -/
def Node.indented (unit : String) (depth : Nat) : Node → Node
  | ⟨label, text, [], tail⟩ => ⟨label, text, [], tail⟩
  | ⟨label, text, child :: children, tail⟩ =>
    ⟨label, unlessBlank text (lineBreak unit (depth + 1)),
      indentedAll unit depth (child :: children), tail⟩

/-- The children of a node at `depth`, indented; the last one's tail leads back to the parent. -/
def indentedAll (unit : String) (depth : Nat) : List Node → List Node
  | [] => []
  | child :: children =>
    let inside := child.indented unit (depth + 1)
    let after := if children.isEmpty then depth else depth + 1
    { inside with tail := unlessBlank child.tail (lineBreak unit after) }
      :: indentedAll unit depth children

end

end Rollout.Xml
