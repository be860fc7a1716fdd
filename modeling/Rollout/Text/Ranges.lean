/-!
# Sets of code points

A set of characters is given by the list of its maximal runs of code points, in ascending order.

- `Ranges`: the runs.
- `Ranges.has`: membership of a code point.
- `Shift`: a run of code points, all of them or every second one, moved by one distance.
-/

namespace Rollout.Text

/-- Runs of code points `(first, last)`, ends included. -/
abbrev Ranges := List (Nat × Nat)

/-- Whether one of the runs holds the code point. -/
def Ranges.has (ranges : Ranges) (code : Nat) : Bool :=
  ranges.any fun run => run.1 ≤ code && code ≤ run.2

/-- The code points `first`, `first + step`, ..., `last`, each moved by `distance`. -/
structure Shift where
  first : Nat
  last : Nat
  step : Nat
  distance : Int

/-- Whether the shift moves the code point. -/
def Shift.moves (shift : Shift) (code : Nat) : Bool :=
  shift.first ≤ code && code ≤ shift.last && (code - shift.first) % shift.step == 0

/-- The character a table of shifts sends `c` to; `c` itself when no shift moves it. -/
def shiftChar (table : List Shift) (c : Char) : Char :=
  match table.find? (·.moves c.toNat) with
  | some shift => Char.ofNat (c.toNat + shift.distance).toNat
  | none => c

end Rollout.Text
