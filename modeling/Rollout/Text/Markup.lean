import Rollout.Number.Decimal
import Rollout.Text.Blank
import Rollout.Text.Case
import Rollout.Text.Pieces

/-!
# Markup of console lines

A line of the console is read for tags in brackets. A tag opens a style, or closes one when it
begins with a slash; an odd number of backslashes before a bracket keeps it from being a tag. A line
cannot be printed when it closes a style that is not open.

- `tags`: the tags of a line.
- `normalStyle`: how a style is written that may be written in several ways.
- `closeTag`, `isPrintable`: **the styles that are open**, and the lines that can be printed.
- `yellow`: a text in a style of its own.

The arguments of handlers, which are styles that begin with an at sign, are not looked at.
-/

namespace Rollout.Text.Markup

/-! ## Tags -/

/-- Where the reader of a line stands. -/
inductive Position
  /-- In plain text; behind an odd number of backslashes when `escaping`. -/
  | plain (escaping : Bool)
  /-- Behind a bracket. -/
  | opened (escaped : Bool)
  /-- Behind the first characters of what may be a tag. -/
  | inside (escaped : Bool) (body : List Char) (escaping : Bool)
  deriving DecidableEq, Repr

/-- The characters a tag may begin with. -/
def startsTag (c : Char) : Bool :=
  ('a' ≤ c && c ≤ 'z') || c == '#' || c == '/' || c == '@'

/-- The tags of the characters left to read. -/
def tagsFrom : Position → List Char → List (List Char)
  | _, [] => []
  | .plain escaping, c :: cs =>
    if c == '[' then tagsFrom (.opened escaping) cs
    else tagsFrom (.plain (c == '\\' && !escaping)) cs
  | .opened escaped, c :: cs =>
    if startsTag c then tagsFrom (.inside escaped [c] false) cs
    else if c == '[' then tagsFrom (.opened false) cs
    else tagsFrom (.plain (c == '\\')) cs
  | .inside escaped body escaping, c :: cs =>
    if c == '[' then tagsFrom (.opened escaping) cs
    else if c == ']' then
      if escaped then tagsFrom (.plain false) cs else body :: tagsFrom (.plain false) cs
    else tagsFrom (.inside escaped (body ++ [c]) (c == '\\' && !escaping)) cs

/-- The tags of a line, without their brackets. -/
def tags (line : String) : List String :=
  (tagsFrom (.plain false) line.toList).map String.ofList

/-! ## Styles -/

/-- A style: what is set, the colours of the text and behind it, and an address. -/
structure Style where
  /-- The attributes that are set or taken back, the last one first. -/
  attributes : List (String × Bool)
  color : Option String
  background : Option String
  link : Option String
  deriving DecidableEq, Repr

/-- The style that changes nothing. -/
def Style.empty : Style := ⟨[], none, none, none⟩

/-- The attributes of a style, in the order in which they are written. -/
def attributeNames : List String :=
  ["bold", "dim", "italic", "underline", "blink", "blink2", "reverse", "conceal", "strike",
    "underline2", "frame", "encircle", "overline"]

/-- Short names of attributes. -/
def shortNames : List (String × String) :=
  [("d", "dim"), ("b", "bold"), ("i", "italic"), ("u", "underline"), ("r", "reverse"),
    ("c", "conceal"), ("s", "strike"), ("uu", "underline2"), ("o", "overline")]

/-- The attribute a word names. -/
def attribute? (word : String) : Option String :=
  if attributeNames.contains word then some word else shortNames.lookup word

/-- The names of the colours. -/
def colorNames : List String :=
  ["black", "red", "green", "yellow", "blue", "magenta", "cyan", "white", "bright_black",
    "bright_red", "bright_green", "bright_yellow", "bright_blue", "bright_magenta", "bright_cyan",
    "bright_white", "grey0", "gray0", "navy_blue", "dark_blue", "blue3", "blue1", "dark_green",
    "deep_sky_blue4", "dodger_blue3", "dodger_blue2", "green4", "spring_green4", "turquoise4",
    "deep_sky_blue3", "dodger_blue1", "green3", "spring_green3", "dark_cyan", "light_sea_green",
    "deep_sky_blue2", "deep_sky_blue1", "spring_green2", "cyan3", "dark_turquoise", "turquoise2",
    "green1", "spring_green1", "medium_spring_green", "cyan2", "cyan1", "dark_red", "deep_pink4",
    "purple4", "purple3", "blue_violet", "orange4", "grey37", "gray37", "medium_purple4",
    "slate_blue3", "royal_blue1", "chartreuse4", "dark_sea_green4", "pale_turquoise4", "steel_blue",
    "steel_blue3", "cornflower_blue", "chartreuse3", "cadet_blue", "sky_blue3", "steel_blue1",
    "pale_green3", "sea_green3", "aquamarine3", "medium_turquoise", "chartreuse2", "sea_green2",
    "sea_green1", "aquamarine1", "dark_slate_gray2", "dark_magenta", "dark_violet", "purple",
    "light_pink4", "plum4", "medium_purple3", "slate_blue1", "yellow4", "wheat4", "grey53",
    "gray53", "light_slate_grey", "light_slate_gray", "medium_purple", "light_slate_blue",
    "dark_olive_green3", "dark_sea_green", "light_sky_blue3", "sky_blue2", "dark_sea_green3",
    "dark_slate_gray3", "sky_blue1", "chartreuse1", "light_green", "pale_green1",
    "dark_slate_gray1", "red3", "medium_violet_red", "magenta3", "dark_orange3", "indian_red",
    "hot_pink3", "medium_orchid3", "medium_orchid", "medium_purple2", "dark_goldenrod",
    "light_salmon3", "rosy_brown", "grey63", "gray63", "medium_purple1", "gold3", "dark_khaki",
    "navajo_white3", "grey69", "gray69", "light_steel_blue3", "light_steel_blue", "yellow3",
    "dark_sea_green2", "light_cyan3", "light_sky_blue1", "green_yellow", "dark_olive_green2",
    "dark_sea_green1", "pale_turquoise1", "deep_pink3", "magenta2", "hot_pink2", "orchid",
    "medium_orchid1", "orange3", "light_pink3", "pink3", "plum3", "violet", "light_goldenrod3",
    "tan", "misty_rose3", "thistle3", "plum2", "khaki3", "light_goldenrod2", "light_yellow3",
    "grey84", "gray84", "light_steel_blue1", "yellow2", "dark_olive_green1", "honeydew2",
    "light_cyan1", "red1", "deep_pink2", "deep_pink1", "magenta1", "orange_red1", "indian_red1",
    "hot_pink", "dark_orange", "salmon1", "light_coral", "pale_violet_red1", "orchid2", "orchid1",
    "orange1", "sandy_brown", "light_salmon1", "light_pink1", "pink1", "plum1", "gold1",
    "navajo_white1", "misty_rose1", "thistle1", "yellow1", "light_goldenrod1", "khaki1", "wheat1",
    "cornsilk1", "grey100", "gray100", "grey3", "gray3", "grey7", "gray7", "grey11", "gray11",
    "grey15", "gray15", "grey19", "gray19", "grey23", "gray23", "grey27", "gray27", "grey30",
    "gray30", "grey35", "gray35", "grey39", "gray39", "grey42", "gray42", "grey46", "gray46",
    "grey50", "gray50", "grey54", "gray54", "grey58", "gray58", "grey62", "gray62", "grey66",
    "gray66", "grey70", "gray70", "grey74", "gray74", "grey78", "gray78", "grey82", "gray82",
    "grey85", "gray85", "grey89", "gray89", "grey93", "gray93"]

/-- Whether a number is written as one byte, with one to three digits. -/
def isByte (digits : List Char) : Bool :=
  !digits.isEmpty && digits.all isDigit && digitsValue digits ≤ 255

/-- Whether a word in small letters is a colour: by name, in hexadecimal digits, by its number or by
three components. -/
def isColor (word : String) : Bool :=
  word == "default" || colorNames.contains word ||
    match word.toList with
    | '#' :: digits =>
      digits.length == 6 && digits.all fun c => isDigit c || ('a' ≤ c && c ≤ 'f')
    | 'c' :: 'o' :: 'l' :: 'o' :: 'r' :: '(' :: rest =>
      rest.getLast? == some ')' && rest.length ≤ 4 && isByte rest.dropLast
    | 'r' :: 'g' :: 'b' :: '(' :: rest =>
      let components := splitChars ',' rest.dropLast
      rest.getLast? == some ')' && components.length == 3 && components.all isByte
    | _ => false

/-- The style some words say, behind those already read; nothing when they say none. -/
def styleFrom (style : Style) : List String → Option Style
  | [] => some style
  | first :: rest =>
    let word := lower first
    if word == "on" then
      match rest with
      | [] => none
      | color :: more =>
        if isColor (lower color) then
          styleFrom { style with background := some (lower color) } more
        else none
    else if word == "not" then
      match rest with
      | [] => none
      | name :: more =>
        match attribute? name with
        | some name =>
          styleFrom { style with attributes := (name, false) :: style.attributes } more
        | none => none
    else if word == "link" then
      match rest with
      | [] => none
      | link :: more => styleFrom { style with link := some link } more
    else
      match attribute? word with
      | some name => styleFrom { style with attributes := (name, true) :: style.attributes } rest
      | none => if isColor word then styleFrom { style with color := some word } rest else none

/-- The words of a style as they are written. -/
def Style.words (style : Style) : List String :=
  let attributes := attributeNames.filterMap fun name =>
    (style.attributes.lookup name).map fun set => if set then name else "not " ++ name
  let colors := style.color.toList ++ (style.background.toList.map ("on " ++ ·))
  attributes ++ colors ++ style.link.toList.map ("link " ++ ·)

/-- The words of a text, between blanks. -/
def wordsOf (text : String) : List String :=
  let spaced := text.toList.map fun c => if isBlank c then ' ' else c
  ((splitChars ' ' spaced).filter (!·.isEmpty)).map String.ofList

/-- How a style is written. What is no style is written as it is, in small letters. -/
def normalStyle (text : String) : String :=
  if strip text == "none" then "none"
  else
    match styleFrom Style.empty (wordsOf text) with
    | some style => if style.words.isEmpty then "none" else " ".intercalate style.words
    | none => lower (strip text)

/-! ## Printing -/

/-- The styles that are open behind a tag, the last one first; nothing when the tag closes a style
that is not open. A slash alone closes the last one. -/
def closeTag (styles : List String) (tag : String) : Option (List String) :=
  match tag.toList.takeWhile (· != '=') with
  | '/' :: name =>
    let closed := strip (String.ofList name)
    if closed.isEmpty then styles.tail?
    else if styles.contains (normalStyle closed) then some (styles.erase (normalStyle closed))
    else none
  | name => some (normalStyle (String.ofList name) :: styles)

/-- Whether a line can be printed. -/
def isPrintable (line : String) : Bool :=
  ((tags line).foldlM closeTag []).isSome

/-- A text in yellow. Tags of the text are tags of the line. -/
def yellow (text : String) : String :=
  s!"[yellow]{text}[/yellow]"

end Rollout.Text.Markup
