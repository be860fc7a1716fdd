import Rollout.Xml.Indent

/-!
# New elements in a laid-out document

An edit places new elements so that they line up with their surroundings and belong to the
namespace of the document. The depth of a parent, counted from the root at depth zero, says how far
its children are indented.

- `Style`: the namespace of a document and its unit of indentation.
- `Style.insertLast`: a child added at the end.
- `Style.insertAfter`: a child added behind one of the children.
- `Style.within`: an edit inside the first child of a name, which is added when missing.
- `Style.withText`: the text of a named child set, the child added when missing.
- `Style.replaceChild`: a child put in the place of another.
- `Style.intoSpace`: a tree moved into the namespace of the document.
-/

namespace Rollout.Pom

open Xml

/-- How new elements are written: in which namespace, and with which unit of indentation. -/
structure Style where
  space : String
  indent : String
  deriving DecidableEq, Repr

/-! ## Lists of children -/

/-- The list with the first item that passes the test changed. -/
def modifyFirst (test : Node → Bool) (f : Node → Node) : List Node → List Node
  | [] => []
  | node :: nodes => if test node then f node :: nodes else node :: modifyFirst test f nodes

/-- The list with the last item changed. -/
def modifyLast (f : Node → Node) : List Node → List Node
  | [] => []
  | [node] => [f node]
  | node :: nodes => node :: modifyLast f nodes

/-- The node with the first child element of this name changed. -/
def changeChild (name : String) (f : Node → Node) (node : Node) : Node :=
  { node with children := modifyFirst (Node.isNamed name) f node.children }

namespace Style

/-- A name in the namespace of the document. -/
def qualified (style : Style) (name : String) : QName :=
  ⟨style.space, name⟩

/-- A new element with children. -/
def newElement (style : Style) (name : String) (children : List Node) : Node :=
  Node.element (style.qualified name) none children

/-- A new element with text. -/
def newTextElement (style : Style) (name : String) (text : Option String) : Node :=
  Node.element (style.qualified name) text []

/-! ## Placing children -/

/-- The parent at `depth` with `child` added at the end. The child takes over what followed the
last child, which is now followed by the indentation of a child; as the only child it is enclosed
in new indentation. -/
def insertLast (style : Style) (depth : Nat) (child parent : Node) : Node :=
  let fresh := child.indented style.indent (depth + 1)
  let inner := lineBreak style.indent (depth + 1)
  match parent.children.getLast? with
  | some last =>
    { parent with
      children :=
        modifyLast (fun node => { node with tail := some inner }) parent.children
          ++ [{ fresh with tail := last.tail }] }
  | none =>
    { parent with
      text := some inner
      children := [{ fresh with tail := some (lineBreak style.indent depth) }] }

/-- The parent at `depth` with `child` added behind the child at `index`. -/
def insertAfter (style : Style) (depth index : Nat) (child parent : Node) : Node :=
  if index + 1 < parent.children.length then
    let fresh := child.indented style.indent (depth + 1)
    let inner := lineBreak style.indent (depth + 1)
    { parent with
      children := parent.children.insertIdx (index + 1) { fresh with tail := some inner } }
  else style.insertLast depth child parent

/-- The node at `depth` with an empty child of this name added unless it has one. -/
def withChild (style : Style) (depth : Nat) (name : String) (node : Node) : Node :=
  if (node.child? name).isSome then node else style.insertLast depth (style.newElement name []) node

/-- The node at `depth` with `f` done to its first child of this name, which is added when there is
none. -/
def within (style : Style) (depth : Nat) (name : String) (f : Node → Node) (node : Node) : Node :=
  changeChild name f (style.withChild depth name node)

/-- The node at `depth` with the text of its first child of this name set. A missing child is added
behind the first child named by `anchors`, or at the end. -/
def withText (style : Style) (depth : Nat) (name value : String) (anchors : List String)
    (node : Node) : Node :=
  if (node.child? name).isSome then changeChild name (fun c => { c with text := some value }) node
  else
    let fresh := style.newTextElement name (some value)
    match anchors.findSome? node.childIndex? with
    | some index => style.insertAfter depth index fresh node
    | none => style.insertLast depth fresh node

/-- The node at `depth` with its first child of this name replaced by `fresh`, which takes over
what followed; `fresh` is added at the end when there is no such child. -/
def replaceChild (style : Style) (depth : Nat) (name : String) (fresh node : Node) : Node :=
  if (node.child? name).isSome then
    changeChild name
      (fun old => { fresh.indented style.indent (depth + 1) with tail := old.tail }) node
  else style.insertLast depth fresh node

/-! ## Namespaces -/

/-- A label in the namespace of the document, unless it is in one already. -/
def labelIntoSpace (style : Style) : Label → Label
  | .element name attributes =>
    if name.space.isEmpty then .element (style.qualified name.name) attributes
    else .element name attributes
  | label => label

/-- The tree with every element that is in no namespace moved into that of the document. -/
def intoSpace (style : Style) (tree : Node) : Node :=
  tree.mapLabels style.labelIntoSpace

end Style

end Rollout.Pom
