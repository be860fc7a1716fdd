import Rollout.Xml.Node

/-!
# Writing XML

Names are written with prefixes. Which prefix a namespace gets is recorded in a register that
outlives the document: a few well-known namespaces have theirs, one namespace at a time may hold
the empty prefix, and any other namespace is numbered within the document.

- `Prefixes`: the register; `Prefixes.standard` is the one to begin with.
- `Prefixes.holdDefault`: the register after a namespace takes the empty prefix.
- `assign`: the prefixes of one document.
- `Node.write`, `writeRoot`: the characters of a tree and of a document's root.
-/

namespace Rollout.Xml

/-- The namespace of `xml:` names. -/
def xmlSpace : String := "http://www.w3.org/XML/1998/namespace"

/-- Which prefix each registered namespace is written with. -/
abbrev Prefixes := List (String × String)

/-- The namespaces known from the start. -/
def Prefixes.standard : Prefixes :=
  [(xmlSpace, "xml"),
   ("http://www.w3.org/1999/xhtml", "html"),
   ("http://www.w3.org/1999/02/22-rdf-syntax-ns#", "rdf"),
   ("http://schemas.xmlsoap.org/wsdl/", "wsdl"),
   ("http://www.w3.org/2001/XMLSchema", "xs"),
   ("http://www.w3.org/2001/XMLSchema-instance", "xsi"),
   ("http://purl.org/dc/elements/1.1/", "dc")]

/-- The register once `space` holds the empty prefix: whatever held it before loses it, and
`space` loses any other prefix. -/
def Prefixes.holdDefault (space : String) (register : Prefixes) : Prefixes :=
  register.filter (fun entry => entry.1 != space && entry.2 != "") ++ [(space, "")]

/-! ## Prefixes of one document -/

/-- The prefix of a namespace, given those the document assigned so far. -/
def prefixFor (register assigned : Prefixes) (space : String) : String :=
  match assigned.lookup space with
  | some found => found
  | none =>
    match register.lookup space with
    | some found => found
    | none => s!"ns{assigned.length}"

/-- The prefixes assigned after one more name; the prefix `xml` needs no assignment. -/
def assignName (register assigned : Prefixes) (name : QName) : Prefixes :=
  if name.space.isEmpty || (assigned.lookup name.space).isSome then assigned
  else
    let chosen := prefixFor register assigned name.space
    if chosen == "xml" then assigned else assigned ++ [(name.space, chosen)]

/-- The prefixes a document assigns: names in document order, an element's before those of its
attributes. -/
def assign (register : Prefixes) (root : Node) : Prefixes :=
  (root.labels.flatMap Label.names).foldl (assignName register) []

/-- A name as the document writes it. -/
def writtenName (register assigned : Prefixes) (name : QName) : List Char :=
  if name.space.isEmpty then name.name.toList
  else
    match prefixFor register assigned name.space with
    | "" => name.name.toList
    | found => found.toList ++ ':' :: name.name.toList

/-! ## Escapes -/

/-- A character of text. -/
def escapeChar (c : Char) : List Char :=
  if c == '&' then "&amp;".toList
  else if c == '<' then "&lt;".toList
  else if c == '>' then "&gt;".toList
  else [c]

/-- A character of an attribute value. -/
def escapeAttributeChar (c : Char) : List Char :=
  if c == '"' then "&quot;".toList
  else if c == '\r' then "&#13;".toList
  else if c == '\n' then "&#10;".toList
  else if c == '\t' then "&#09;".toList
  else escapeChar c

/-- Text with its markup characters escaped. -/
def escapeText (text : String) : List Char :=
  text.toList.flatMap escapeChar

/-- An attribute value with its markup characters and line breaks escaped. -/
def escapeAttribute (text : String) : List Char :=
  text.toList.flatMap escapeAttributeChar

/-- A text that may be missing, with its markup characters escaped. -/
def escapeOptional (text : Option String) : List Char :=
  match text with
  | some s => escapeText s
  | none => []

/-! ## Trees -/

/-- A value in double quotes. -/
def quotedValue (value : String) : List Char :=
  '"' :: escapeAttribute value ++ ['"']

/-- One attribute, with the space before it. -/
def writeAttribute (nameOf : QName → List Char) (entry : QName × String) : List Char :=
  ' ' :: nameOf entry.1 ++ '=' :: quotedValue entry.2

/-- A declaration of one prefix, with the space before it. -/
def writeDeclaration (entry : String × String) : List Char :=
  let mark := if entry.2.isEmpty then [] else ':' :: entry.2.toList
  " xmlns".toList ++ mark ++ '=' :: quotedValue entry.1

/-- Insertion by prefix into declarations that are in order. -/
def insertDeclaration (entry : String × String) : Prefixes → Prefixes
  | [] => [entry]
  | head :: rest =>
    if decide (head.2.toList < entry.2.toList) then head :: insertDeclaration entry rest
    else entry :: head :: rest

/-- The declarations of the assigned prefixes, ordered by prefix. -/
def writeDeclarations (assigned : Prefixes) : List Char :=
  (assigned.foldr insertDeclaration []).flatMap writeDeclaration

mutual

/-- The text of a tree with its tail; `declarations` stand in its start tag. -/
def Node.write (nameOf : QName → List Char) (declarations : List Char) : Node → List Char
  | ⟨.comment, text, _, tail⟩ =>
    "<!--".toList ++ (text.getD "").toList ++ "-->".toList ++ escapeOptional tail
  | ⟨.instruction, text, _, tail⟩ =>
    "<?".toList ++ (text.getD "").toList ++ "?>".toList ++ escapeOptional tail
  | ⟨.element name attributes, text, children, tail⟩ =>
    let start :=
      '<' :: nameOf name ++ declarations ++ attributes.flatMap (writeAttribute nameOf)
    let content := escapeOptional text
    let body :=
      if content.isEmpty && children.isEmpty then " />".toList
      else '>' :: content ++ writeAll nameOf children ++ "</".toList ++ nameOf name ++ ['>']
    start ++ body ++ escapeOptional tail

/-- The text of a list of trees. -/
def writeAll (nameOf : QName → List Char) : List Node → List Char
  | [] => []
  | node :: nodes => node.write nameOf [] ++ writeAll nameOf nodes

end

/-- The text of a document's root, written with a register of prefixes. -/
def writeRoot (register : Prefixes) (root : Node) : List Char :=
  let assigned := assign register root
  root.write (writtenName register assigned) (writeDeclarations assigned)

end Rollout.Xml
