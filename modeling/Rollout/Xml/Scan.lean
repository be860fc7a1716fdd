import Rollout.Xml.Names
import Rollout.Text.Lines
import Rollout.Text.Pieces

/-!
# Scanning XML markup

The smallest parts of a document. Every scanner takes the characters left and returns what it read
with the characters after it, or nothing when the characters do not begin with such a part.

- `scanName`, `scanTagName`: names, without and with a namespace prefix.
- `scanReference`: what an ampersand begins.
- `scanComment`, `scanInstruction`, `scanData`: the parts that are kept or read verbatim.
- `scanStartTag`, `scanEndTag`: tags, attribute values still as written.
- `scanPiece`: one part of the content of an element.
-/

namespace Rollout.Xml

/-! ## Names -/

/-- A name as a tag writes it; `pfx` is empty for a name without a prefix. -/
structure TagName where
  pfx : List Char
  name : List Char
  deriving DecidableEq, Repr

/-- A name without a colon. -/
def scanName : List Char → Option (List Char × List Char)
  | c :: cs =>
    if isNameStart c then
      let (more, rest) := cs.span isNameChar
      some (c :: more, rest)
    else none
  | [] => none

/-- A name, with or without a prefix. -/
def scanTagName (cs : List Char) : Option (TagName × List Char) :=
  match scanName cs with
  | none => none
  | some (first, ':' :: rest) =>
    (scanName rest).map fun (second, more) => (⟨first, second⟩, more)
  | some (only, rest) => some (⟨[], only⟩, rest)

/-- The characters after white space. -/
def skipSpace (cs : List Char) : List Char :=
  cs.dropWhile isSpace

/-! ## Verbatim parts -/

/-- The characters before the first occurrence of `mark`, and those after it. -/
def splitAt? (mark : List Char) : List Char → Option (List Char × List Char)
  | [] => none
  | c :: cs =>
    match mark.isPrefixOf? (c :: cs) with
    | some rest => some ([], rest)
    | none => (splitAt? mark cs).map fun (before, rest) => (c :: before, rest)

/-- A comment, after the characters that open it. Two hyphens in a row only close it. -/
def scanComment (cs : List Char) : Option (List Char × List Char) :=
  match splitAt? ['-', '-'] cs with
  | some (text, '>' :: rest) => some (Text.unifyNewlineChars text, rest)
  | _ => none

/-- Whether a name is `xml` in any case. -/
def isReservedTarget (name : List Char) : Bool :=
  match name with
  | [x, m, l] => (x == 'x' || x == 'X') && (m == 'm' || m == 'M') && (l == 'l' || l == 'L')
  | _ => false

/-- A processing instruction after `<?`: its target and its data. -/
def scanInstruction (cs : List Char) : Option ((List Char × List Char) × List Char) :=
  match scanName cs with
  | none => none
  | some (target, rest) =>
    if isReservedTarget target then none
    else
      match rest with
      | '?' :: '>' :: more => some ((target, []), more)
      | c :: _ =>
        if isSpace c then
          (splitAt? ['?', '>'] rest).map fun (data, more) =>
            ((target, Text.unifyNewlineChars (skipSpace data)), more)
        else none
      | [] => none

/-- A character-data section after its opening mark. -/
def scanData (cs : List Char) : Option (List Char × List Char) :=
  (splitAt? "]]>".toList cs).map fun (data, rest) => (Text.unifyNewlineChars data, rest)

/-! ## References -/

/-- What a reference stands for. -/
inductive Reference
  | char (c : Char)
  | entity (name : List Char)
  deriving DecidableEq, Repr

/-- The value of digits in base `base`; nothing for no digits or for one that is none. -/
def codeOf? (base : Nat) (digits : List Char) : Option Nat :=
  if digits.isEmpty then none
  else
    digits.foldl (fun value c => do
      let value ← value
      let digit ← digitIn? base c
      pure (base * value + digit)) (some 0)
where
  /-- The value of one digit. -/
  digitIn? (base : Nat) (c : Char) : Option Nat :=
    let digit :=
      if '0' ≤ c && c ≤ '9' then c.toNat - '0'.toNat
      else if 'a' ≤ c && c ≤ 'f' then c.toNat - 'a'.toNat + 10
      else if 'A' ≤ c && c ≤ 'F' then c.toNat - 'A'.toNat + 10
      else base
    if digit < base then some digit else none

/-- The character of a reference by number; only legal characters have one. -/
def numberedChar? (base : Nat) (digits : List Char) : Option Char :=
  match codeOf? base digits with
  | some code => if isLegalCode code then some (Char.ofNat code) else none
  | none => none

/-- The five entities every document has. -/
def predefined? (name : List Char) : Option Char :=
  if name = "lt".toList then some '<'
  else if name = "gt".toList then some '>'
  else if name = "amp".toList then some '&'
  else if name = "quot".toList then some '"'
  else if name = "apos".toList then some '\''
  else none

/-- A reference after its ampersand. -/
def scanReference : List Char → Option (Reference × List Char)
  | '#' :: 'x' :: cs => do
    let (digits, rest) ← splitAt? [';'] cs
    let c ← numberedChar? 16 digits
    pure (.char c, rest)
  | '#' :: cs => do
    let (digits, rest) ← splitAt? [';'] cs
    let c ← numberedChar? 10 digits
    pure (.char c, rest)
  | cs => do
    let (name, rest) ← scanName cs
    match rest with
    | ';' :: more =>
      match predefined? name with
      | some c => pure (.char c, more)
      | none => pure (.entity name, more)
    | _ => none

/-! ## Tags -/

/-- A text in quotes, at its opening quote. -/
def scanQuoted : List Char → Option (List Char × List Char)
  | '"' :: cs => splitAt? ['"'] cs
  | '\'' :: cs => splitAt? ['\''] cs
  | _ => none

/-- A start tag: the attributes in order, values as written, and whether the tag is also the end
tag. -/
structure StartTag where
  name : TagName
  attributes : List (TagName × List Char)
  closed : Bool
  deriving DecidableEq, Repr

/-- One attribute, at its name. -/
def scanAttribute (cs : List Char) : Option ((TagName × List Char) × List Char) := do
  let (name, afterName) ← scanTagName cs
  match skipSpace afterName with
  | '=' :: afterSign =>
    let (value, rest) ← scanQuoted (skipSpace afterSign)
    pure ((name, value), rest)
  | _ => none

/-- The attributes and the end of a start tag. Attributes are separated by white space; `fuel`
bounds their number. -/
def scanAttributes : Nat → List Char → Option ((List (TagName × List Char) × Bool) × List Char)
  | 0, _ => none
  | fuel + 1, cs =>
    match cs with
    | '>' :: rest => some (([], false), rest)
    | '/' :: '>' :: rest => some (([], true), rest)
    | c :: _ =>
      if isSpace c then
        match skipSpace cs with
        | '>' :: rest => some (([], false), rest)
        | '/' :: '>' :: rest => some (([], true), rest)
        | more => do
          let (entry, rest) ← scanAttribute more
          let ((entries, closed), rest) ← scanAttributes fuel rest
          pure ((entry :: entries, closed), rest)
      else none
    | [] => none

/-- A start tag after its opening bracket. -/
def scanStartTag (cs : List Char) : Option (StartTag × List Char) := do
  let (name, rest) ← scanTagName cs
  let ((attributes, closed), rest) ← scanAttributes (rest.length + 1) rest
  pure (⟨name, attributes, closed⟩, rest)

/-- An end tag after `</`. -/
def scanEndTag (cs : List Char) : Option (TagName × List Char) := do
  let (name, rest) ← scanTagName cs
  match skipSpace rest with
  | '>' :: more => pure (name, more)
  | _ => none

/-! ## Content -/

/-- A part of the content of an element. -/
inductive Piece
  | start (tag : StartTag)
  | finish (name : TagName)
  | text (cs : List Char)
  | comment (cs : List Char)
  | instruction (target data : List Char)
  | entity (name : List Char)
  deriving DecidableEq, Repr

/-- A part of the content that opens with `<`. -/
def scanMarkup : List Char → Option (Piece × List Char)
  | '/' :: cs => (scanEndTag cs).map fun (name, rest) => (.finish name, rest)
  | '?' :: cs =>
    (scanInstruction cs).map fun ((target, data), rest) => (.instruction target data, rest)
  | '!' :: cs =>
    match "--".toList.isPrefixOf? cs with
    | some more => (scanComment more).map fun (text, rest) => (.comment text, rest)
    | none =>
      match "[CDATA[".toList.isPrefixOf? cs with
      | some more => (scanData more).map fun (text, rest) => (.text text, rest)
      | none => none
  | cs => (scanStartTag cs).map fun (tag, rest) => (.start tag, rest)

/-- Whether `c` is plain text, not the beginning of markup or of a reference. -/
def isPlain (c : Char) : Bool :=
  c != '<' && c != '&'

/-- One part of the content of an element. The end mark of a character-data section is no text. -/
def scanPiece : List Char → Option (Piece × List Char)
  | '<' :: cs => scanMarkup cs
  | '&' :: cs =>
    match scanReference cs with
    | some (.char c, rest) => some (.text [c], rest)
    | some (.entity name, rest) => some (.entity name, rest)
    | none => none
  | cs =>
    let (run, rest) := cs.span isPlain
    if run.isEmpty || Text.occurs "]]>".toList run then none
    else some (.text (Text.unifyNewlineChars run), rest)

/-- How deep the tags are nested after a part of the content; nothing when a tag closes that never
was opened. -/
def Piece.depthAfter? (piece : Piece) (depth : Nat) : Option Nat :=
  match piece with
  | .start tag => some (if tag.closed then depth else depth + 1)
  | .finish _ => if depth = 0 then none else some (depth - 1)
  | _ => some depth

/-- All the content of a text that has to be whole in itself. -/
def scanAll : Nat → Nat → List Char → Option (List Piece)
  | _, depth, [] => if depth = 0 then some [] else none
  | 0, _, _ => none
  | fuel + 1, depth, cs => do
    let (piece, rest) ← scanPiece cs
    let depth ← piece.depthAfter? depth
    (piece :: ·) <$> scanAll fuel depth rest

/-- The content from the root's start tag to its end tag. -/
def scanRoot : Nat → Nat → List Char → Option (List Piece × List Char)
  | 0, _, _ => none
  | fuel + 1, depth, cs => do
    let (piece, rest) ← scanPiece cs
    let depth ← piece.depthAfter? depth
    if depth = 0 then pure ([piece], rest)
    else
      let (pieces, more) ← scanRoot fuel depth rest
      pure (piece :: pieces, more)

end Rollout.Xml
