import Rollout.Xml.Dtd

/-!
# Reading document type declarations

- `Token`, `tokenize`: the declarations between the brackets, as tokens.
- `readSubset`: the declarations of the tokens.
- `scanDoctype`: a document type declaration.

Entity declarations count the first time a name is declared. After a reference to a parameter
entity, declarations are only checked, unless the document stands alone.
-/

namespace Rollout.Xml

/-! ## Tokens -/

/-- How often a part of a content model may occur. -/
inductive Repeat
  | once
  | optional
  | any
  | some
  deriving DecidableEq, Repr

/-- A token of a declaration. -/
inductive Token
  | keyword (name : List Char)
  | name (name : TagName)
  | prefixed (name : TagName)
  | repeated (kind : Repeat)
  | nameToken
  | marked (name : List Char)
  | literal (text : List Char)
  | percent
  | parameter
  | left
  | right (kind : Repeat)
  | bar
  | comma
  | finish
  deriving DecidableEq, Repr

/-- The sign after a name or a group that says how often it may occur. -/
def scanRepeat : List Char → Repeat × List Char
  | '?' :: cs => (.optional, cs)
  | '*' :: cs => (.any, cs)
  | '+' :: cs => (.some, cs)
  | cs => (.once, cs)

/-- Whether the characters begin with white space or with one of `marks`. -/
def endsAt (marks : List Char) : List Char → Bool
  | c :: _ => isSpace c || marks.contains c
  | [] => false

/-- The kind of a run of name characters and colons. -/
def classifyName (run : List Char) : Token :=
  match run with
  | [] => .nameToken
  | first :: _ =>
    if !isNameStart first then .nameToken
    else
      let (head, rest) := run.span (· != ':')
      match rest with
      | [] => .name ⟨[], head⟩
      | _ :: tail =>
        if tail.isEmpty || tail.contains ':' then .nameToken else .prefixed ⟨head, tail⟩

/-- A name or a name token, with what may follow it. -/
def scanNameLike (cs : List Char) : Option (Token × List Char) :=
  let (run, rest) := cs.span fun c => isNameChar c || c == ':'
  if run.isEmpty then none
  else
    let token := classifyName run
    let (kind, more) := scanRepeat rest
    if kind = .once then
      if endsAt [')', '>', ',', '|', '[', '%'] rest then some (token, rest) else none
    else if token = .nameToken then none
    else some (.repeated kind, more)

/-- A token at a character that is not white space, the end of the declarations aside. Comments and
processing instructions give none. -/
def scanToken : List Char → Option (Option Token × List Char)
  | '<' :: '!' :: '-' :: '-' :: cs => (scanComment cs).map fun (_, rest) => (none, rest)
  | '<' :: '!' :: cs =>
    let (letters, rest) := cs.span isNameStart
    if letters.isEmpty || !endsAt [] rest then none else some (some (.keyword letters), rest)
  | '<' :: '?' :: cs => (scanInstruction cs).map fun (_, rest) => (none, rest)
  | '>' :: cs => some (some .finish, cs)
  | '(' :: cs => some (some .left, cs)
  | ')' :: cs =>
    let (kind, rest) := scanRepeat cs
    if kind = .once && !endsAt ['>', ',', '|', ')'] rest then none
    else some (some (.right kind), rest)
  | '|' :: cs => some (some .bar, cs)
  | ',' :: cs => some (some .comma, cs)
  | '#' :: cs =>
    match scanName cs with
    | some (name, rest) =>
      if endsAt [')', '>', '%', '|'] rest then some (some (.marked name), rest) else none
    | none => none
  | '%' :: cs =>
    if endsAt ['%'] cs then some (some .percent, cs)
    else
      match scanName cs with
      | some (_, ';' :: rest) => some (some .parameter, rest)
      | _ => none
  | '"' :: cs => quotedToken (splitAt? ['"'] cs)
  | '\'' :: cs => quotedToken (splitAt? ['\''] cs)
  | cs => (scanNameLike cs).map fun (token, rest) => (some token, rest)
where
  /-- A literal with what may follow it. -/
  quotedToken : Option (List Char × List Char) → Option (Option Token × List Char)
    | some (text, rest) =>
      if endsAt ['>', '%', '['] rest then some (some (.literal text), rest) else none
    | none => none

/-- The tokens up to the closing bracket, and what follows it. -/
def tokenize : Nat → List Char → Option (List Token × List Char)
  | 0, _ => none
  | fuel + 1, cs =>
    match skipSpace cs with
    | ']' :: rest => if "]>".toList.isPrefixOf rest then none else some ([], rest)
    | more => do
      let (token?, rest) ← scanToken more
      let (tokens, rest) ← tokenize fuel rest
      pure (token?.toList ++ tokens, rest)

/-! ## Declarations -/

/-- What was read of the declarations. -/
structure Declarations where
  dtd : Dtd
  /-- Whether declarations still count. -/
  counting : Bool
  standalone : Bool

/-- Whether a public identifier has only the characters it may have. -/
def isPublicId (cs : List Char) : Bool :=
  cs.all fun c =>
    c == ' ' || c == '\r' || c == '\n' || ('a' ≤ c && c ≤ 'z') || ('A' ≤ c && c ≤ 'Z')
      || ('0' ≤ c && c ≤ '9') || "-'()+,./:=?;!*#@$_%".toList.contains c

/-- The text of an entity as declared: references by number replaced, other references kept, line
breaks unified; a percent sign may not occur. -/
def entityText : Nat → List Char → Option (List Char)
  | _, [] => some []
  | 0, _ => none
  | fuel + 1, c :: cs =>
    if c == '%' then none
    else if c == '&' then
      match scanReference cs with
      | none => none
      | some (reference, rest) =>
        let kept := c :: cs.take (cs.length - rest.length)
        let part :=
          match reference, cs with
          | .char d, '#' :: _ => [d]
          | _, _ => kept
        (part ++ ·) <$> entityText fuel rest
    else if c == '\r' then
      match cs with
      | '\n' :: rest => ('\n' :: ·) <$> entityText fuel rest
      | _ => ('\n' :: ·) <$> entityText fuel cs
    else (c :: ·) <$> entityText fuel cs

/-- An entity declared under a name; predefined names and names declared before keep their
meaning. -/
def Declarations.declare (name : List Char) (entity : Entity) (seen : Declarations) :
    Declarations :=
  if !seen.counting || (predefined? name).isSome || (seen.dtd.entities.lookup name).isSome then seen
  else { seen with dtd := { seen.dtd with entities := seen.dtd.entities ++ [(name, entity)] } }

/-- The text of a literal as an entity's, checked only while declarations count. -/
def Declarations.literalText (seen : Declarations) (text : List Char) : Option (List Char) :=
  if seen.counting then entityText text.length text else some []

/-- The identifier of something outside the document, and the tokens after it. -/
def readExternalId : List Token → Option (List Token)
  | .name ⟨[], word⟩ :: tokens =>
    if word = "SYSTEM".toList then
      match tokens with
      | .literal _ :: rest => some rest
      | _ => none
    else if word = "PUBLIC".toList then
      match tokens with
      | .literal publicId :: .literal _ :: rest => if isPublicId publicId then some rest else none
      | _ => none
    else none
  | _ => none

/-- An entity declaration. -/
def readEntity (seen : Declarations) : List Token → Option (Declarations × List Token)
  | .percent :: .name ⟨[], _⟩ :: .literal text :: .finish :: rest =>
    (seen.literalText text).map fun _ => (seen, rest)
  | .percent :: .name ⟨[], _⟩ :: tokens =>
    match readExternalId tokens with
    | some (.finish :: rest) => some (seen, rest)
    | _ => none
  | .name ⟨[], name⟩ :: .literal text :: .finish :: rest =>
    (seen.literalText text).map fun value => (seen.declare name (.internal value), rest)
  | .name ⟨[], name⟩ :: tokens =>
    match readExternalId tokens with
    | some (.finish :: rest) => some (seen.declare name .outside, rest)
    | some (.name ⟨[], word⟩ :: .name ⟨[], _⟩ :: .finish :: rest) =>
      if word = "NDATA".toList then some (seen.declare name .outside, rest) else none
    | _ => none
  | _ => none

/-- A notation declaration. -/
def readExternalType (seen : Declarations) : List Token → Option (Declarations × List Token)
  | .name ⟨[], _⟩ :: .name ⟨[], word⟩ :: tokens =>
    if word = "SYSTEM".toList then
      match tokens with
      | .literal _ :: .finish :: rest => some (seen, rest)
      | _ => none
    else if word = "PUBLIC".toList then
      match tokens with
      | .literal publicId :: .finish :: rest =>
        if isPublicId publicId then some (seen, rest) else none
      | .literal publicId :: .literal _ :: .finish :: rest =>
        if isPublicId publicId then some (seen, rest) else none
      | _ => none
    else none
  | _ => none

/-- The alternatives of an enumerated type, after its opening bracket. -/
def readAlternatives (anyToken : Bool) : List Token → Option (List Token)
  | token :: .bar :: rest => if isAlternative token then readAlternatives anyToken rest else none
  | token :: .right .once :: rest => if isAlternative token then some rest else none
  | _ => none
where
  /-- Whether the token may be an alternative. -/
  isAlternative (token : Token) : Bool :=
    match token with
    | .name _ => true
    | .prefixed _ => anyToken
    | .nameToken => anyToken
    | _ => false

/-- The types that are one word. -/
def wordTypes : List String :=
  ["ID", "IDREF", "IDREFS", "ENTITY", "ENTITIES", "NMTOKEN", "NMTOKENS"]

/-- An attribute type: whether it is plain character data, and the tokens after it. -/
def readAttributeType : List Token → Option (Bool × List Token)
  | .left :: tokens => (readAlternatives true tokens).map fun rest => (false, rest)
  | .name ⟨[], word⟩ :: tokens =>
    if word = "CDATA".toList then some (true, tokens)
    else if (wordTypes.map String.toList).contains word then some (false, tokens)
    else if word = "NOTATION".toList then
      match tokens with
      | .left :: more => (readAlternatives false more).map fun rest => (false, rest)
      | _ => none
    else none
  | _ => none

/-- A declared attribute added to the declarations. A default is ignored when the attribute was
declared before. -/
def Declarations.declareAttribute (rule : AttributeRule) (seen : Declarations) : Declarations :=
  if !seen.counting || (rule.default.isSome && (seen.dtd.rule? rule.element rule.name).isSome) then
    seen
  else { seen with dtd := { seen.dtd with rules := seen.dtd.rules ++ [rule] } }

/-- The default of an attribute: the tokens after the type. -/
def readDefault (seen : Declarations) (plain : Bool) :
    List Token → Option (Option String × List Token)
  | .marked word :: tokens =>
    if word = "IMPLIED".toList || word = "REQUIRED".toList then some (none, tokens)
    else if word = "FIXED".toList then
      match tokens with
      | .literal text :: rest => value text rest
      | _ => none
    else none
  | .literal text :: rest => value text rest
  | _ => none
where
  /-- A default value, checked only while declarations count. -/
  value (text : List Char) (rest : List Token) : Option (Option String × List Token) :=
    if seen.counting then (normalizeValue seen.dtd plain text).map fun s => (some s, rest)
    else some (some "", rest)

/-- The attributes of one element; `fuel` bounds their number. -/
def readAttributes (element : TagName) :
    Nat → Declarations → List Token → Option (Declarations × List Token)
  | 0, _, _ => none
  | _ + 1, seen, .finish :: rest => some (seen, rest)
  | fuel + 1, seen, token :: tokens => do
    let name ← nameOf token
    let (plain, rest) ← readAttributeType tokens
    let (default, rest) ← readDefault seen plain rest
    readAttributes element fuel (seen.declareAttribute ⟨element, name, plain, default⟩) rest
  | _ + 1, _, [] => none
where
  /-- The name a token is. -/
  nameOf : Token → Option TagName
    | .name name => some name
    | .prefixed name => some name
    | _ => none

/-- The names that may be mixed with text, after the word for text. -/
def readMixed (named : Bool) : List Token → Option (List Token)
  | .right .any :: rest => some rest
  | .right .once :: rest => if named then none else some rest
  | .bar :: .name _ :: rest => readMixed true rest
  | .bar :: .prefixed _ :: rest => readMixed true rest
  | _ => none

/-- A content model after its first opening bracket. `groups` holds the connector used so far in
every open group, the innermost first; `item` says that an item comes next. -/
def readModel : List (Option Token) → Bool → List Token → Option (List Token)
  | groups, true, .left :: tokens => readModel (none :: groups) true tokens
  | groups, true, token :: tokens => if isItem token then readModel groups false tokens else none
  | _ :: [], false, .right _ :: tokens => some tokens
  | _ :: groups, false, .right _ :: tokens => readModel groups false tokens
  | used :: groups, false, token :: tokens =>
    if (token = .bar || token = .comma) && (used.isNone || used = some token) then
      readModel (some token :: groups) true tokens
    else none
  | _, _, _ => none
where
  /-- Whether the token is an item. -/
  isItem (token : Token) : Bool :=
    match token with
    | .name _ => true
    | .prefixed _ => true
    | .repeated _ => true
    | _ => false

/-- The content of an element declaration. -/
def readContent : List Token → Option (List Token)
  | .name ⟨[], word⟩ :: rest =>
    if word = "EMPTY".toList || word = "ANY".toList then some rest else none
  | .left :: .marked word :: rest => if word = "PCDATA".toList then readMixed false rest else none
  | .left :: rest => readModel [none] true rest
  | _ => none

/-- An element declaration. -/
def readElement (seen : Declarations) : List Token → Option (Declarations × List Token)
  | .name _ :: tokens => finished tokens
  | .prefixed _ :: tokens => finished tokens
  | _ => none
where
  /-- The content and the end of the declaration. -/
  finished (tokens : List Token) : Option (Declarations × List Token) :=
    match readContent tokens with
    | some (.finish :: rest) => some (seen, rest)
    | _ => none

/-- A declaration by its keyword. -/
def readDeclaration (seen : Declarations) (word : List Char) (tokens : List Token) :
    Option (Declarations × List Token) :=
  if word = "ENTITY".toList then readEntity seen tokens
  else if word = "NOTATION".toList then readExternalType seen tokens
  else if word = "ELEMENT".toList then readElement seen tokens
  else if word = "ATTLIST".toList then
    match tokens with
    | .name element :: rest => readAttributes element (rest.length + 1) seen rest
    | .prefixed element :: rest => readAttributes element (rest.length + 1) seen rest
    | _ => none
  else none

/-- All declarations; `fuel` bounds their number. -/
def readSubset : Nat → Declarations → List Token → Option Declarations
  | _, seen, [] => some seen
  | 0, _, _ => none
  | fuel + 1, seen, .parameter :: rest =>
    readSubset fuel
      { seen with
        counting := seen.standalone
        dtd := { seen.dtd with incomplete := !seen.standalone } } rest
  | fuel + 1, seen, .keyword word :: tokens => do
    let (seen, rest) ← readDeclaration seen word tokens
    readSubset fuel seen rest
  | _ + 1, _, _ => none

/-! ## The document type declaration -/

/-- The identifier after the name of the document type: whether there is one, and the rest. -/
def scanDoctypeId (cs : List Char) : Option (Bool × List Char) :=
  match "SYSTEM".toList.isPrefixOf? cs with
  | some rest => if endsAt [] rest then (scanSystem rest).map fun more => (true, more) else none
  | none =>
    match "PUBLIC".toList.isPrefixOf? cs with
    | some rest => if endsAt [] rest then scanPublic rest else none
    | none => some (false, cs)
where
  /-- A system identifier, with what may follow it. -/
  scanSystem (cs : List Char) : Option (List Char) :=
    match scanQuoted (skipSpace cs) with
    | some (_, rest) => if endsAt ['>', '['] rest then some rest else none
    | none => none
  /-- A public identifier and a system identifier. -/
  scanPublic (cs : List Char) : Option (Bool × List Char) :=
    match scanQuoted (skipSpace cs) with
    | some (publicId, rest) =>
      if isPublicId publicId && endsAt [] rest then (scanSystem rest).map fun more => (true, more)
      else none
    | none => none

/-- A document type declaration after its keyword. -/
def scanDoctype (standalone : Bool) (cs : List Char) : Option (Dtd × List Char) := do
  if !endsAt [] cs then none
  let (_, rest) ← scanTagName (skipSpace cs)
  if !endsAt ['>', '['] rest then none
  let (outside, rest) ← scanDoctypeId (skipSpace rest)
  let start : Dtd := { Dtd.empty with incomplete := outside && !standalone }
  match skipSpace rest with
  | '>' :: more => pure (start, more)
  | '[' :: inside =>
    let (tokens, more) ← tokenize (inside.length + 1) inside
    let seen ← readSubset (tokens.length + 1) ⟨start, true, standalone⟩ tokens
    match skipSpace more with
    | '>' :: after => pure (seen.dtd, after)
    | _ => none
  | _ => none

end Rollout.Xml
