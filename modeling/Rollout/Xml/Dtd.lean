import Rollout.Xml.Scan

/-!
# Document type definitions

What a document's type declaration says about entities and attributes, and what entities and
attribute values expand to.

- `Dtd`: the declarations that matter when the document is read.
- `expandValue`: an attribute value with its references replaced.
- `normalizeValue`: the value of an attribute by its declared type.
- `expandContent`: content with its entities replaced, each of them whole in itself.

Entities may use entities; `depth` bounds the nesting. As an entity that reaches itself is an
error, the number of declared entities is always enough.
-/

namespace Rollout.Xml

/-! ## Declarations -/

/-- What a general entity stands for. -/
inductive Entity
  /-- A text, references in it not yet replaced. -/
  | internal (text : List Char)
  /-- Something outside the document. -/
  | outside
  deriving DecidableEq, Repr

/-- A declared attribute. -/
structure AttributeRule where
  element : TagName
  name : TagName
  /-- Whether the type is plain character data; other types have their spaces collapsed. -/
  plain : Bool
  default : Option String
  deriving DecidableEq, Repr

/-- The declarations of a document. -/
structure Dtd where
  entities : List (List Char × Entity)
  rules : List AttributeRule
  /-- Whether declarations may have been missed, so that an unknown entity is no error in an
  attribute value. -/
  incomplete : Bool
  deriving Repr

/-- No declarations. -/
def Dtd.empty : Dtd := ⟨[], [], false⟩

/-- The nesting of entities that is always enough. -/
def Dtd.depth (dtd : Dtd) : Nat := dtd.entities.length + 1

/-- The declaration of an attribute of an element. -/
def Dtd.rule? (dtd : Dtd) (element name : TagName) : Option AttributeRule :=
  dtd.rules.find? fun rule => rule.element == element && rule.name == name

/-! ## Attribute values -/

/-- A part of an attribute value. -/
inductive ValuePiece
  | char (c : Char)
  | entity (name : List Char)
  deriving DecidableEq, Repr

/-- The parts of an attribute value as written: a line break or a tab counts as a space, and the
character that opens tags may not occur. -/
def valuePieces : Nat → List Char → Option (List ValuePiece)
  | _, [] => some []
  | 0, _ => none
  | fuel + 1, c :: cs =>
    if c == '<' then none
    else if c == '&' then
      match scanReference cs with
      | some (.char d, rest) => (.char d :: ·) <$> valuePieces fuel rest
      | some (.entity name, rest) => (.entity name :: ·) <$> valuePieces fuel rest
      | none => none
    else if c == '\r' then
      match cs with
      | '\n' :: rest => (.char ' ' :: ·) <$> valuePieces fuel rest
      | _ => (.char ' ' :: ·) <$> valuePieces fuel cs
    else if isSpace c then (.char ' ' :: ·) <$> valuePieces fuel cs
    else (.char c :: ·) <$> valuePieces fuel cs

/-- The value with its references replaced. -/
def expandValue (dtd : Dtd) : Nat → List Char → Option (List Char)
  | 0, _ => none
  | depth + 1, cs => do
    let pieces ← valuePieces cs.length cs
    let parts ← pieces.mapM fun piece =>
      match piece with
      | .char c => some [c]
      | .entity name =>
        match dtd.entities.lookup name with
        | some (.internal text) => expandValue dtd depth text
        | some .outside => none
        | none => if dtd.incomplete then some [] else none
    pure parts.flatten

/-- The characters with every run of spaces collapsed to one and none at the ends; `pending` says
that a space waits for the next other character. -/
def collapseSpaces (pending : Bool) : List Char → List Char
  | [] => []
  | ' ' :: cs => collapseSpaces true cs
  | c :: cs => if pending then ' ' :: c :: collapseSpaces false cs else c :: collapseSpaces false cs

/-- The characters without spaces at the ends and with single spaces inside. -/
def collapsed (cs : List Char) : List Char :=
  match collapseSpaces false cs with
  | ' ' :: rest => rest
  | rest => rest

/-- The value of an attribute as written. -/
def normalizeValue (dtd : Dtd) (plain : Bool) (cs : List Char) : Option String :=
  (expandValue dtd dtd.depth cs).map fun value =>
    String.ofList (if plain then value else collapsed value)

/-! ## Content -/

/-- Whether every end tag fits the start tag it closes; `tags` are the open ones, nearest first. -/
def tagsFit : List TagName → List Piece → Bool
  | tags, [] => tags.isEmpty
  | tags, .start tag :: pieces => tagsFit (if tag.closed then tags else tag.name :: tags) pieces
  | tag :: tags, .finish name :: pieces => tag == name && tagsFit tags pieces
  | [], .finish _ :: _ => false
  | tags, _ :: pieces => tagsFit tags pieces

/-- The content with its entities replaced. -/
def expandContent (dtd : Dtd) : Nat → List Piece → Option (List Piece)
  | 0, _ => none
  | depth + 1, pieces => do
    let parts ← pieces.mapM fun piece =>
      match piece with
      | .entity name =>
        match dtd.entities.lookup name with
        | some (.internal text) => do
          let inner ← scanAll text.length 0 text
          let whole ← expandContent dtd depth inner
          if tagsFit [] whole then some whole else none
        | _ => none
      | other => some [other]
    pure parts.flatten

end Rollout.Xml
