/-!
# Blank characters

- `isWhite`: white space of any script.
- `isBlank`: white space and the four information separators.
- `strip`, `trim`: a text without the blanks, or the white space, at its two ends.
- `allBlank`: texts made of blanks only; the empty text is one of them.
-/

namespace Rollout.Text

/-- White space of any script. -/
def isWhite (c : Char) : Bool :=
  let code := c.toNat
  (0x9 ≤ code && code ≤ 0xD) || code == 0x20 || code == 0x85 || code == 0xA0
    || code == 0x1680 || (0x2000 ≤ code && code ≤ 0x200A) || code == 0x2028 || code == 0x2029
    || code == 0x202F || code == 0x205F || code == 0x3000

/-- White space and the four information separators. -/
def isBlank (c : Char) : Bool :=
  isWhite c || (0x1C ≤ c.toNat && c.toNat ≤ 0x1F)

/-- The characters without those of a class at the two ends. -/
def stripClass (drop : Char → Bool) (cs : List Char) : List Char :=
  ((cs.dropWhile drop).reverse.dropWhile drop).reverse

/-- The text without the blanks at its two ends. -/
def strip (text : String) : String :=
  String.ofList (stripClass isBlank text.toList)

/-- The text without the white space at its two ends. -/
def trim (text : String) : String :=
  String.ofList (stripClass isWhite text.toList)

/-- Whether the text has no character that is not blank. -/
def allBlank (text : String) : Bool :=
  text.toList.all isBlank

@[simp] theorem stripClass_nil (drop : Char → Bool) : stripClass drop [] = [] := rfl

end Rollout.Text
