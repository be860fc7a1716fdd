/-!
# Words of a command line

The quoting rules of the shell: blanks separate words, single quotes keep everything, double
quotes keep everything but a backslash before a double quote or a backslash, and a backslash
outside quotes keeps the next character. Nothing is a comment and nothing is expanded.

- `shellWords`: the words of a command line, or why it has none.
-/

namespace Rollout.Text

/-- Why a command line cannot be split. -/
inductive ShellError
  | openQuote
  | openEscape
  deriving DecidableEq, Repr

/-- Where the splitter stands. -/
inductive ShellState
  | between
  | word
  | single
  | double
  | escape
  | doubleEscape
  deriving DecidableEq, Repr

/-- The characters that separate words. -/
def isShellBlank (c : Char) : Bool :=
  c == ' ' || c == '\t' || c == '\r' || c == '\n'

/-- The words of the characters left to read, given the word read so far. -/
def shellWordsFrom : ShellState → List Char → List Char → Except ShellError (List (List Char))
  | .between, _, [] => .ok []
  | .word, current, [] => .ok [current]
  | .single, _, [] => .error .openQuote
  | .double, _, [] => .error .openQuote
  | .escape, _, [] => .error .openEscape
  | .doubleEscape, _, [] => .error .openEscape
  | .between, _, c :: cs =>
    if isShellBlank c then shellWordsFrom .between [] cs
    else if c == '\\' then shellWordsFrom .escape [] cs
    else if c == '\'' then shellWordsFrom .single [] cs
    else if c == '"' then shellWordsFrom .double [] cs
    else shellWordsFrom .word [c] cs
  | .word, current, c :: cs =>
    if isShellBlank c then (current :: ·) <$> shellWordsFrom .between [] cs
    else if c == '\\' then shellWordsFrom .escape current cs
    else if c == '\'' then shellWordsFrom .single current cs
    else if c == '"' then shellWordsFrom .double current cs
    else shellWordsFrom .word (current ++ [c]) cs
  | .single, current, c :: cs =>
    if c == '\'' then shellWordsFrom .word current cs
    else shellWordsFrom .single (current ++ [c]) cs
  | .double, current, c :: cs =>
    if c == '"' then shellWordsFrom .word current cs
    else if c == '\\' then shellWordsFrom .doubleEscape current cs
    else shellWordsFrom .double (current ++ [c]) cs
  | .escape, current, c :: cs => shellWordsFrom .word (current ++ [c]) cs
  | .doubleEscape, current, c :: cs =>
    if c == '"' || c == '\\' then shellWordsFrom .double (current ++ [c]) cs
    else shellWordsFrom .double (current ++ ['\\', c]) cs

/-- The words of a command line. -/
def shellWords (line : String) : Except ShellError (List String) :=
  (·.map String.ofList) <$> shellWordsFrom .between [] line.toList

end Rollout.Text
