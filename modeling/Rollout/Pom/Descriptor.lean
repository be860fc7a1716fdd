import Rollout.Pom.Layout
import Rollout.Text.Pieces
import Rollout.Text.Word
import Rollout.Xml.Printer
import Rollout.Xml.Reader

/-!
# Build descriptors

A descriptor is the tree of its root together with the raw text around it, so that what no edit
touches is written back as it was read.

- `Descriptor`: the root, the style that new elements take, and the text around the root.
- `Descriptor.parse?`: a descriptor read from text; nothing when the text is not well-formed.
- `Descriptor.serialize`: the text of a descriptor, and the register of prefixes afterwards.
-/

namespace Rollout.Pom

open Xml

/-- A build descriptor. -/
structure Descriptor where
  root : Node
  style : Style
  /-- The text before the root. -/
  prolog : String
  /-- The text after the root. -/
  epilog : String
  deriving Repr

/-! ## Around the root -/

/-- The unit of indentation of documents that show none. -/
def defaultIndent : String := "  "

/-- The unit of indentation: what stands before the root's first child on its line. -/
def indentUnit (root : Node) : String :=
  let text := root.text.getD ""
  if Text.allBlank text && text.toList.contains '\n' then
    let unit := Text.afterLast '\n' text
    if unit.isEmpty then defaultIndent else unit
  else defaultIndent

/-- What follows the first occurrence of `ending`. -/
def afterFirst? (ending : List Char) : List Char → Option (List Char)
  | [] => if ending.isEmpty then some [] else none
  | c :: cs =>
    match ending.isPrefixOf? (c :: cs) with
    | some rest => some rest
    | none => afterFirst? ending cs

/-- What follows an item that may stand before the root: an instruction, a comment, or a document
type up to the first `>`. -/
def afterItem? (cs : List Char) : Option (List Char) :=
  let within (opening ending : String) : Option (List Char) :=
    (opening.toList.isPrefixOf? cs).bind (afterFirst? ending.toList)
  ((within "<?" "?>").or (within "<!--" "-->")).or (within "<!DOCTYPE" ">")

/-- What is left after the items and blanks at the start. `fuel` bounds the number of items. -/
def afterItems : Nat → List Char → List Char
  | 0, cs => cs.dropWhile Text.isBlank
  | fuel + 1, cs =>
    match afterItem? (cs.dropWhile Text.isBlank) with
    | some rest => afterItems fuel rest
    | none => cs.dropWhile Text.isBlank

/-- The text split before the root. -/
def splitProlog (cs : List Char) : List Char × List Char :=
  let rest := afterItems cs.length cs
  (cs.take (cs.length - rest.length), rest)

/-- Characters of the name that is looked for in the last end tag. -/
def isRootNameChar (c : Char) : Bool :=
  Text.isWordChar c || c == ':' || c == '.' || c == '-'

/-- The name a start tag at the start of the text opens. -/
def rootName? : List Char → Option (List Char)
  | '<' :: cs =>
    let name := cs.takeWhile isRootNameChar
    if name.isEmpty then none else some name
  | _ => none

/-- The text after the last end tag of the root's name. -/
def epilogOf (cs fromRoot : List Char) : List Char :=
  match rootName? fromRoot with
  | none => []
  | some name =>
    match Text.lastFrom? ('<' :: '/' :: name) cs with
    | none => []
    | some closing => (afterFirst? ['>'] closing).getD []

/-! ## Text and tree -/

/-- The namespace a root puts its document in. -/
def spaceOf (root : Node) : String :=
  match root.name? with
  | some name => name.space
  | none => ""

/-- The descriptor a text holds. -/
def Descriptor.parse? (text : String) : Option Descriptor := do
  let root ← readDocument? text
  let (prolog, rest) := splitProlog text.toList
  return {
    root := { root with tail := none }
    style := ⟨spaceOf root, indentUnit root⟩
    prolog := String.ofList prolog
    epilog := String.ofList (epilogOf text.toList rest) }

/-- The register of prefixes once a descriptor is written: its namespace holds the empty prefix. -/
def Descriptor.register (descriptor : Descriptor) (register : Prefixes) : Prefixes :=
  if descriptor.style.space.isEmpty then register
  else register.holdDefault descriptor.style.space

/-- The text of a descriptor under a register of prefixes, and the register afterwards. -/
def Descriptor.serialize (descriptor : Descriptor) (register : Prefixes) : String × Prefixes :=
  let held := descriptor.register register
  let text :=
    descriptor.prolog.toList ++ writeRoot held descriptor.root ++ descriptor.epilog.toList
  (String.ofList text, held)

/-- The descriptor with its root changed by an edit that places elements in the descriptor's
style. -/
def Descriptor.edit (f : Style → Node → Node) (descriptor : Descriptor) : Descriptor :=
  { descriptor with root := f descriptor.style descriptor.root }

end Rollout.Pom
