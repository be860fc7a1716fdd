/-!
# XML trees

- `QName`: a name with the address of its namespace.
- `Node`: an element, a comment or a processing instruction, with the text before its first child,
  its children, and the text that follows it inside its parent (its tail).
- `Node.isNamed`: whether a node is an element of a given local name, in any namespace.
- `Node.child?`, `Node.childrenNamed`: the children of a given local name.
- `Node.mapLabels`, `Node.labels`: every label of a tree changed, and all of them in order.

Nodes that are not elements have no children when they come from a document.
-/

namespace Rollout.Xml

/-- A name in a namespace; `space` is empty for a name in none. -/
structure QName where
  space : String
  name : String
  deriving DecidableEq, Repr, Inhabited

/-- The name as one text: the namespace in braces before the local name. -/
def QName.text (name : QName) : String :=
  if name.space.isEmpty then name.name
  else "\x7b" ++ name.space ++ "\x7d" ++ name.name

/-- Attributes of an element, in document order. -/
abbrev Attributes := List (QName × String)

/-- What a node is. -/
inductive Label
  | element (name : QName) (attributes : Attributes)
  | comment
  | instruction
  deriving DecidableEq, Repr, Inhabited

/-- The name of an element. -/
def Label.name? : Label → Option QName
  | .element name _ => some name
  | _ => none

/-- A node of an XML tree. -/
structure Node where
  label : Label
  text : Option String
  children : List Node
  tail : Option String
  deriving Repr, Inhabited

namespace Node

/-- The name, when the node is an element. -/
def name? (node : Node) : Option QName :=
  node.label.name?

/-- Whether the node is an element with this local name. -/
def isNamed (name : String) (node : Node) : Bool :=
  node.name?.any (·.name == name)

/-- A fresh element. -/
def element (name : QName) (text : Option String) (children : List Node) : Node :=
  ⟨.element name [], text, children, none⟩

/-! ## Children -/

/-- The position of the first child element with this local name. -/
def childIndex? (name : String) (node : Node) : Option Nat :=
  node.children.findIdx? (isNamed name)

/-- The first child element with this local name. -/
def child? (name : String) (node : Node) : Option Node :=
  node.children.find? (isNamed name)

/-- The child elements with this local name. -/
def childrenNamed (name : String) (node : Node) : List Node :=
  node.children.filter (isNamed name)

/-! ## Whole trees -/

mutual

/-- The tree with every label changed. -/
def mapLabels (f : Label → Label) : Node → Node
  | ⟨label, text, children, tail⟩ => ⟨f label, text, mapLabelsAll f children, tail⟩

/-- The trees with every label changed. -/
def mapLabelsAll (f : Label → Label) : List Node → List Node
  | [] => []
  | node :: nodes => node.mapLabels f :: mapLabelsAll f nodes

end

mutual

/-- The labels of the tree, in document order. -/
def labels : Node → List Label
  | ⟨label, _, children, _⟩ => label :: labelsAll children

/-- The labels of the trees, in document order. -/
def labelsAll : List Node → List Label
  | [] => []
  | node :: nodes => node.labels ++ labelsAll nodes

end

end Node

/-- The names a label holds: the element's name, then those of its attributes. -/
def Label.names : Label → List QName
  | .element name attributes => name :: attributes.map Prod.fst
  | _ => []

end Rollout.Xml
