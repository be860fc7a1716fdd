import Rollout.World.World

/-!
# Pauses

- `Pauses.slept`: the pauses left after one more, during which they may be cancelled.
- `Run.sleep`, `Run.isCancelled`: a pause, and whether pauses were cancelled.
- `Run.retry`: a computation repeated until its result is accepted.

A pause is as long as it is said to be. That platforms refuse to wait for infinity, or for more
seconds than their clocks count, is not modelled.
-/

namespace Rollout

/-- The pauses after one more, during which they may be cancelled. -/
def Pauses.slept (pauses : Pauses) : Pauses :=
  match pauses.cancelAfter with
  | some 1 => ⟨true, none⟩
  | some (n + 2) => { pauses with cancelAfter := some (n + 1) }
  | _ => pauses

namespace Run

/-- A pause. Every number of seconds can be waited for: the failure with which a platform refuses a
pause beyond its limit is left out, and with it whatever an infinite delay would come to. -/
def sleep (seconds : Binary64) : Run Unit := do
  emit (.sleep seconds)
  modify fun world => { world with pauses := world.pauses.slept }

/-- Whether pauses were cancelled. -/
def isCancelled : Run Bool := do
  return (← get).pauses.cancelled

/-- A computation repeated until its result is accepted, at most `again` more times, with a pause
in between. `stopped` is asked after a result that is not accepted and ends the repetition early.
The last result is given, accepted or not.

This is how the retry library documents its loop, for a bound on the attempts, a fixed wait and a
condition on the result: the condition is tried before the bound, the bound before the wait, and a
failure of the computation is not caught. -/
def retry {α : Type} (act : Run α) (accepted : α → Bool) (stopped : Run Bool) (pause : Run Unit) :
    Nat → Run α
  | 0 => act
  | again + 1 => do
    let result ← act
    if accepted result then return result
    else if ← stopped then return result
    else
      pause
      retry act accepted stopped pause again

/-- How often a computation is repeated that may be tried `attempts` times; it is tried at least
once. -/
def repeats (attempts : Int) : Nat :=
  (attempts - 1).toNat

end Run

end Rollout
