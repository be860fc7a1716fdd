/-!
# Lines

- `splitLines`: the lines of a process output; every kind of line end counts, and a line end at
  the end of the text opens no further line.
- `unifyNewlines`: carriage returns, alone or before a line feed, read as line feeds.
-/

namespace Rollout.Text

/-- Line ends: line feed, vertical tab, form feed, carriage return, the first three information
separators, next line, line and paragraph separator. -/
def isLineEnd (c : Char) : Bool :=
  let code := c.toNat
  (0xA ≤ code && code ≤ 0xD) || (0x1C ≤ code && code ≤ 0x1E) || code == 0x85 || code == 0x2028
    || code == 0x2029

/-- Carriage returns, alone or before a line feed, become line feeds. -/
def unifyNewlineChars : List Char → List Char
  | '\r' :: '\n' :: cs => '\n' :: unifyNewlineChars cs
  | '\r' :: cs => '\n' :: unifyNewlineChars cs
  | c :: cs => c :: unifyNewlineChars cs
  | [] => []

/-- The text with carriage returns, alone or before a line feed, read as line feeds. -/
def unifyNewlines (text : String) : String :=
  String.ofList (unifyNewlineChars text.toList)

/-- The lines of characters where every line end is a single character; `line` is what was read of
the current line. -/
def linesFrom (line : List Char) : List Char → List (List Char)
  | [] => if line.isEmpty then [] else [line]
  | c :: cs => if isLineEnd c then line :: linesFrom [] cs else linesFrom (line ++ [c]) cs

/-- The lines of a text. -/
def splitLines (text : String) : List String :=
  (linesFrom [] (unifyNewlineChars text.toList)).map String.ofList

end Rollout.Text
