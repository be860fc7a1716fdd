import Rollout.Xml.DtdReader
import Rollout.Xml.Node
import Rollout.Xml.Printer

/-!
# Reading XML

- `readDocument?`: the root of a well-formed document, or nothing. Comments and processing
  instructions inside the root are nodes; those outside are dropped.

A document is read in three steps: the parts of its text (`scanRoot`), the parts with entities
replaced (`expandContent`), and the tree (`grow`), which also resolves the prefixes of names.
-/

namespace Rollout.Xml

/-! ## Namespaces -/

/-- The namespace of declarations of prefixes. -/
def declarationSpace : String := "http://www.w3.org/2000/xmlns/"

/-- The namespaces bound to prefixes, the latest first. The empty prefix is the default namespace,
and the empty address means that there is none. -/
abbrev Scope := List (List Char × String)

/-- The scope outside the root. -/
def Scope.initial : Scope := [("xml".toList, xmlSpace)]

/-- The prefix an attribute declares; nothing for an attribute that is no declaration. -/
def declaredPrefix? (name : TagName) : Option (List Char) :=
  if name.pfx = "xmlns".toList then some name.name
  else if name = ⟨[], "xmlns".toList⟩ then some []
  else none

/-- The scope after a declaration. Only `xml` may stand for its namespace and nothing else may; no
prefix may be taken back, and an address may not hold the brace that ends it in expanded names. -/
def Scope.bind (pfx : List Char) (space : String) (scope : Scope) : Option Scope :=
  if pfx = "xmlns".toList || space == declarationSpace then none
  else if (pfx = "xml".toList) != (space == xmlSpace) then none
  else if space.isEmpty && !pfx.isEmpty then none
  else if space.toList.contains '\x7d' then none
  else some ((pfx, space) :: scope)

/-- The name of an attribute; without a prefix it is in no namespace. -/
def Scope.attributeName (scope : Scope) (name : TagName) : Option QName :=
  if name.pfx.isEmpty then some ⟨"", String.ofList name.name⟩
  else (scope.lookup name.pfx).map fun space => ⟨space, String.ofList name.name⟩

/-- The name of an element; without a prefix it is in the default namespace. -/
def Scope.elementName (scope : Scope) (name : TagName) : Option QName :=
  match scope.lookup name.pfx with
  | some space => some ⟨space, String.ofList name.name⟩
  | none => if name.pfx.isEmpty then some ⟨"", String.ofList name.name⟩ else none

/-! ## Start tags -/

/-- The attributes of a start tag with their values, then those its element has by default. -/
def attributeValues (dtd : Dtd) (tag : StartTag) : Option (List (TagName × String)) := do
  let written ← tag.attributes.mapM fun (name, value) =>
    (normalizeValue dtd ((dtd.rule? tag.name name).all (·.plain)) value).map fun s => (name, s)
  let defaults := dtd.rules.filterMap fun rule =>
    if rule.element == tag.name && !written.any (·.1 == rule.name) then
      rule.default.map fun s => (rule.name, s)
    else none
  pure (written ++ defaults)

/-- The scope inside an element and the element's label. No name may occur twice among the
attributes, neither as written nor with its prefix resolved. -/
def openElement (dtd : Dtd) (scope : Scope) (tag : StartTag) : Option (Scope × Label) := do
  let values ← attributeValues dtd tag
  if !decide (tag.attributes.map Prod.fst).Nodup then none
  let scope ← values.foldlM (fun scope (name, value) =>
    match declaredPrefix? name with
    | some pfx => scope.bind pfx value
    | none => some scope) scope
  let attributes ← (values.filter fun entry => (declaredPrefix? entry.1).isNone).mapM
    fun (name, value) => (scope.attributeName name).map fun resolved => (resolved, value)
  if !decide (attributes.map Prod.fst).Nodup then none
  let name ← scope.elementName tag.name
  pure (scope, .element name attributes)

/-! ## Trees -/

/-- An element that is not closed yet. -/
structure Frame where
  tag : TagName
  node : Node
  scope : Scope

/-- The optional text with more at its end; nothing more leaves it as it is. -/
def appendText (text : Option String) (more : List Char) : Option String :=
  if more.isEmpty then text else some (text.getD "" ++ String.ofList more)

/-- A node with text at the end of its content: after its last child, or before any child. -/
def Node.addText (node : Node) (more : List Char) : Node :=
  match node.children.getLast? with
  | some last =>
    { node with
      children := node.children.dropLast ++ [{ last with tail := appendText last.tail more }] }
  | none => { node with text := appendText node.text more }

/-- A node with one more child. -/
def Node.addChild (node child : Node) : Node :=
  { node with children := node.children ++ [child] }

/-- What was read of a document: the open elements, nearest first, and the root once it is
closed. -/
structure Growth where
  frames : List Frame
  root : Option Node

/-- A finished node at its place. -/
def Growth.place (node : Node) : List Frame → Growth
  | [] => ⟨[], some node⟩
  | frame :: frames => ⟨{ frame with node := frame.node.addChild node } :: frames, none⟩

/-- The scope at the place that is read. -/
def Growth.scope (growth : Growth) : Scope :=
  match growth.frames with
  | frame :: _ => frame.scope
  | [] => Scope.initial

/-- The growth after one part of the content. -/
def grow (dtd : Dtd) (growth : Growth) : Piece → Option Growth
  | .start tag => do
    let (scope, label) ← openElement dtd growth.scope tag
    let node : Node := ⟨label, none, [], none⟩
    if tag.closed then pure (Growth.place node growth.frames)
    else pure ⟨⟨tag.name, node, scope⟩ :: growth.frames, none⟩
  | .finish name =>
    match growth.frames with
    | frame :: frames => if frame.tag = name then some (Growth.place frame.node frames) else none
    | [] => none
  | .text cs =>
    match growth.frames with
    | frame :: frames => some ⟨{ frame with node := frame.node.addText cs } :: frames, none⟩
    | [] => none
  | .comment cs =>
    match growth.frames with
    | [] => none
    | frames => some (Growth.place ⟨.comment, some (String.ofList cs), [], none⟩ frames)
  | .instruction target data =>
    match growth.frames with
    | [] => none
    | frames =>
      let text := if data.isEmpty then target else target ++ ' ' :: data
      some (Growth.place ⟨.instruction, some (String.ofList text), [], none⟩ frames)
  | .entity _ => none

/-- The tree of a document's content. -/
def buildTree (dtd : Dtd) (pieces : List Piece) : Option Node := do
  let growth ← pieces.foldlM (grow dtd) ⟨[], none⟩
  growth.root

/-! ## Documents -/

/-- Comments, processing instructions and white space outside the root. -/
def skipMisc : Nat → List Char → Option (List Char)
  | 0, _ => none
  | fuel + 1, cs =>
    match skipSpace cs with
    | '<' :: '!' :: '-' :: '-' :: more => do
      let (_, rest) ← scanComment more
      skipMisc fuel rest
    | '<' :: '?' :: more => do
      let (_, rest) ← scanInstruction more
      skipMisc fuel rest
    | rest => some rest

/-- Whether `c` may occur in a value of the XML declaration. -/
def isDeclarationChar (c : Char) : Bool :=
  ('a' ≤ c && c ≤ 'z') || ('A' ≤ c && c ≤ 'Z') || ('0' ≤ c && c ≤ '9') || c == '.' || c == '-'
    || c == '_'

/-- One `name="value"` of the XML declaration, after white space; nothing left means no pair. -/
def scanPair (cs : List Char) : Option (Option (List Char × List Char) × List Char) :=
  match cs with
  | [] => some (none, [])
  | c :: _ =>
    if !isSpace c then none
    else
      match skipSpace cs with
      | [] => some (none, [])
      | more =>
        let (name, rest) := more.span fun d => d != '=' && !isSpace d && d.toNat < 0x80
        match skipSpace rest with
        | '=' :: afterSign =>
          match scanQuoted (skipSpace afterSign) with
          | some (value, after) =>
            if name.isEmpty || !value.all isDeclarationChar then none
            else some (some (name, value), after)
          | none => none
        | _ => none

/-- Whether an encoding has a name. -/
def isEncodingName : List Char → Bool
  | c :: _ => ('a' ≤ c && c ≤ 'z') || ('A' ≤ c && c ≤ 'Z')
  | [] => false

/-- The end of the XML declaration: whether the document stands alone, from its optional last
pair. -/
def standsAlone (pair? : Option (List Char × List Char)) (rest : List Char) : Option Bool :=
  match pair? with
  | none => some false
  | some (name, value) =>
    if name = "standalone".toList && (skipSpace rest).isEmpty then
      if value = "yes".toList then some true
      else if value = "no".toList then some false
      else none
    else none

/-- The XML declaration between its marks: whether the document stands alone. The version comes
first; then an encoding may follow, whose value does not matter. -/
def readDeclarationText (cs : List Char) : Option Bool := do
  let (version?, rest) ← scanPair cs
  let (name, _) ← version?
  if name ≠ "version".toList then none
  let (next?, rest) ← scanPair rest
  match next? with
  | some (name, value) =>
    if name = "encoding".toList then
      if isEncodingName value then
        let (last?, rest) ← scanPair rest
        standsAlone last? rest
      else none
    else standsAlone next? rest
  | none => pure false

/-- The XML declaration at the start of a document, if there is one: whether the document stands
alone. -/
def scanDeclaration (cs : List Char) : Option (Bool × List Char) :=
  match "<?xml".toList.isPrefixOf? cs with
  | some more =>
    match more with
    | c :: _ =>
      if isNameChar c then some (false, cs)
      else do
        let (inside, rest) ← splitAt? ['?', '>'] more
        let alone ← readDeclarationText inside
        pure (alone, rest)
    | [] => none
  | none => some (false, cs)

/-- The document type declaration, if there is one. -/
def scanType (standalone : Bool) (cs : List Char) : Option (Dtd × List Char) :=
  match "<!DOCTYPE".toList.isPrefixOf? cs with
  | some more => scanDoctype standalone more
  | none => some (Dtd.empty, cs)

/-- The characters of a document without the mark of its encoding. -/
def withoutMark : List Char → List Char
  | c :: cs => if c.toNat == 0xFEFF then cs else c :: cs
  | [] => []

/-- Whether a start tag begins here. -/
def atStartTag : List Char → Bool
  | '<' :: c :: _ => isNameStart c
  | _ => false

/-- The root of a well-formed document. -/
def readDocument? (text : String) : Option Node := do
  let cs := withoutMark text.toList
  if !cs.all isLegal then none
  let (standalone, rest) ← scanDeclaration cs
  let rest ← skipMisc (rest.length + 1) rest
  let (dtd, rest) ← scanType standalone rest
  let rest ← skipMisc (rest.length + 1) rest
  if !atStartTag rest then none
  let (pieces, rest) ← scanRoot (rest.length + 1) 0 rest
  let whole ← expandContent dtd dtd.depth pieces
  let rest ← skipMisc (rest.length + 1) rest
  if !rest.isEmpty then none
  buildTree dtd whole

end Rollout.Xml
