/-!
# Finding, splitting and replacing

Work on characters, with faces on texts.

- `splitOn`: the pieces between the occurrences of one character.
- `lastFrom?`: the end of a text that begins at the last occurrence of a pattern.
- `replaceAll`: every occurrence of a pattern replaced, from the left, without overlaps; the empty
  pattern occurs before every character and at the end.
-/

namespace Rollout.Text

/-- The pieces between the occurrences of `sep`; one more than there are occurrences. -/
def splitChars (sep : Char) : List Char → List (List Char)
  | [] => [[]]
  | c :: cs =>
    if c == sep then [] :: splitChars sep cs
    else
      match splitChars sep cs with
      | piece :: rest => (c :: piece) :: rest
      | [] => [[c]]

/-- The pieces of a text between the occurrences of `sep`. -/
def splitOn (sep : Char) (text : String) : List String :=
  (splitChars sep text.toList).map String.ofList

/-- The part after the last occurrence of `sep`; the whole text when there is none. -/
def afterLast (sep : Char) (text : String) : String :=
  ((splitOn sep text).getLast?).getD text

/-- The end of `cs` that begins at the last occurrence of `pattern`. -/
def lastFrom? (pattern : List Char) : List Char → Option (List Char)
  | [] => if pattern.isEmpty then some [] else none
  | c :: cs =>
    match lastFrom? pattern cs with
    | some found => some found
    | none => if pattern.isPrefixOf (c :: cs) then some (c :: cs) else none

/-- Whether `pattern` occurs in `cs`. -/
def occurs (pattern cs : List Char) : Bool :=
  (lastFrom? pattern cs).isSome

/-- Replacement where the first `skip` characters belong to an occurrence already replaced. -/
def replaceFrom (pattern replacement : List Char) : Nat → List Char → List Char
  | _, [] => []
  | skip + 1, _ :: cs => replaceFrom pattern replacement skip cs
  | 0, c :: cs =>
    if pattern.isPrefixOf (c :: cs) then
      replacement ++ replaceFrom pattern replacement (pattern.length - 1) cs
    else c :: replaceFrom pattern replacement 0 cs

/-- Every occurrence of `pattern` replaced. -/
def replaceChars (pattern replacement cs : List Char) : List Char :=
  if pattern.isEmpty then replacement ++ cs.flatMap (fun c => c :: replacement)
  else replaceFrom pattern replacement 0 cs

/-- The text with every occurrence of `pattern` replaced. -/
def replaceAll (pattern replacement text : String) : String :=
  String.ofList (replaceChars pattern.toList replacement.toList text.toList)

/-- The text without the characters `c` at its end. -/
def dropTrailing (c : Char) (text : String) : String :=
  String.ofList ((text.toList.reverse.dropWhile (· == c)).reverse)

/-- The text without `ending`, when it ends so. -/
def dropEnding (ending text : String) : String :=
  match ending.toList.reverse.isPrefixOf? text.toList.reverse with
  | some rest => String.ofList rest.reverse
  | none => text

/-- The first `count` characters of a text. -/
def truncate (count : Nat) (text : String) : String :=
  String.ofList (text.toList.take count)

/-- The order of texts by code points. -/
def precedes (a b : String) : Bool :=
  decide (a.toList < b.toList)

@[simp] theorem splitChars_nil (sep : Char) : splitChars sep [] = [[]] := rfl

@[simp] theorem replaceFrom_nil (pattern replacement : List Char) (skip : Nat) :
    replaceFrom pattern replacement skip [] = [] := by
  cases skip <;> rfl

end Rollout.Text
