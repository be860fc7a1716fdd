import Rollout.World.Pause

/-!
# Runs step by step

A run gives a result and leaves a world. The lemmas here take a run apart at its steps, and say
which steps add to the log and to nothing else.

- `Run.outcome`, `Run.ending`: the result without the world, and the two put together again.
- `World.logging`: the world with more in its log.
- `Run.bind_of_ok`, `Run.bind_of_error`: the first of two steps done.
- `Run.sleep_of_calm`: a pause that nothing cancels.
- `Run.ensuring_run`, `Run.telling_run`: what is run in any case, and failures that are told and
  passed over.
- `Run.exists_last_try`: one of the tries of a repetition is the last one.
- `Run.retry_of_error`, `Run.retry_of_accepted`, `Run.retry_of_stopped`, `Run.retry_of_rejected`:
  **what a repetition does next**, by the result of the first try.
-/

namespace Rollout

/-- The world with events added to its log. -/
def World.logging (events : List Event) (world : World) : World :=
  { world with log := world.log ++ events }

/-- The pauses are not cancelled and will not be. -/
def World.Calm (world : World) : Prop :=
  world.pauses = ⟨false, none⟩

namespace World

@[simp] theorem logging_logging (first second : List Event) (world : World) :
    (world.logging first).logging second = world.logging (first ++ second) := by
  unfold logging
  rw [List.append_assoc]

theorem Calm.logging {world : World} (h : world.Calm) (events : List Event) :
    (world.logging events).Calm := h

end World

/-- What a result comes to when failures of one category are told: a line that cannot be printed is
another failure. -/
def Console.told (console : Console) (category : Category) (line : Failure → String) :
    Except Failure Unit → Except Failure Unit
  | .ok () => .ok ()
  | .error failure =>
    if failure.category = category then
      if console.prints (line failure) then .ok () else .error .badMarkup
    else .error failure

namespace Run

variable {α β : Type}

/-- What a run gives, without the world it leaves. -/
def outcome (run : Run α) (world : World) : Except Failure α :=
  match run world with
  | .ok a _ => .ok a
  | .error failure _ => .error failure

/-- A run that gives a result and leaves a world. -/
def ending (result : Except Failure α) (world : World) : EStateM.Result Failure World α :=
  match result with
  | .ok a => .ok a world
  | .error failure => .error failure world

/-! ## Two steps in a row -/

section Bind

variable {run : Run α} {next : α → Run β} {world world' : World}

theorem bind_of_ok {a : α} (h : run world = .ok a world') :
    (run >>= next) world = next a world' := by
  show EStateM.bind run next world = _
  unfold EStateM.bind
  rw [h]

theorem bind_of_error {failure : Failure} (h : run world = .error failure world') :
    (run >>= next) world = .error failure world' := by
  show EStateM.bind run next world = _
  unfold EStateM.bind
  rw [h]

theorem outcome_of_ending {result : Except Failure α} (h : run world = ending result world') :
    run.outcome world = result := by
  unfold outcome
  rw [h]
  cases result <;> rfl

end Bind

/-! ## Single steps -/

theorem ofExcept_run (result : Except Failure α) (world : World) :
    ofExcept result world = ending result world := by
  cases result <;> rfl

theorem isCancelled_of_calm {world : World} (h : world.Calm) :
    isCancelled world = .ok false world := by
  show EStateM.Result.ok world.pauses.cancelled world = _
  rw [h]

/-- A pause that nothing cancels is logged, and that is all. -/
theorem sleep_of_calm {world : World} (h : world.Calm) (seconds : Binary64) :
    sleep seconds world = .ok () (world.logging [.sleep seconds]) := by
  have hslept : world.pauses.slept = world.pauses := by
    rw [h]
    rfl
  show EStateM.Result.ok () { world.logging [.sleep seconds] with pauses := world.pauses.slept } = _
  rw [hslept]
  rfl

/-! ## Failures -/

section Failures

variable {world behind last : World}

theorem attempt_run {run : Run α} {result : Except Failure α}
    (h : run world = ending result behind) :
    attempt run world = .ok result behind := by
  unfold attempt
  rw [h]
  cases result <;> rfl

/-- What is run behind another one in any case, and passes, keeps what the first one gives. -/
theorem ensuring_run {run : Run α} {after : Run Unit} {result : Except Failure α}
    (hrun : run world = ending result behind) (hafter : after behind = .ok () last) :
    ensuring run after world = ending result last := by
  rw [ensuring, bind_of_ok (attempt_run hrun), bind_of_ok hafter, ofExcept_run]

/-- What is said is printed, or it is a failure. -/
theorem say_run (line : String) (world : World) :
    say line world
      = ending (if world.console.prints line then .ok () else .error .badMarkup) world := by
  show (if world.console.prints line then pure () else throw .badMarkup : Run Unit) world = _
  split <;> rfl

/-- Failures of one category are told and passed over. -/
theorem telling_run {run : Run Unit} {result : Except Failure Unit} {category : Category}
    {line : Failure → String} (hrun : run world = ending result behind) :
    telling category line run world
      = ending (behind.console.told category line result) behind := by
  rw [telling, bind_of_ok (attempt_run hrun)]
  cases result with
  | ok => rfl
  | error failure =>
    dsimp only [Console.told]
    split
    · exact say_run (line failure) behind
    · rfl

end Failures

/-! ## Repetition -/

/-- The last of at most `n + 1` tries: the first behind which there is no other, or the last one
that is allowed. -/
theorem exists_last_try (goesOn : Nat → Prop) (n : Nat) :
    ∃ k ≤ n, (∀ i < k, goesOn i) ∧ (k = n ∨ ¬ goesOn k) := by
  induction n with
  | zero => exact ⟨0, Nat.le_refl 0, fun _ hi => absurd hi (Nat.not_lt_zero _), .inl rfl⟩
  | succ n ih =>
    obtain ⟨k, hk, hbefore, hend⟩ := ih
    by_cases hlast : goesOn k
    · obtain rfl : k = n := hend.resolve_right (not_not_intro hlast)
      refine ⟨k + 1, Nat.le_refl _, fun i hi => ?_, .inl rfl⟩
      rcases Nat.lt_succ_iff_lt_or_eq.mp hi with hlt | rfl
      · exact hbefore i hlt
      · exact hlast
    · exact ⟨k, Nat.le_succ_of_le hk, hbefore, .inr hlast⟩

section Retry

variable {act : Run α} {accepted : α → Bool} {stopped : Run Bool} {pause : Run Unit}
  {world world' : World}

/-- What fails is not tried again. -/
theorem retry_of_error {failure : Failure} (h : act world = .error failure world') (n : Nat) :
    retry act accepted stopped pause n world = .error failure world' := by
  cases n with
  | zero => exact h
  | succ n => exact bind_of_error h

/-- What is accepted is not tried again. -/
theorem retry_of_accepted {a : α} (h : act world = .ok a world') (haccepted : accepted a = true)
    (n : Nat) : retry act accepted stopped pause n world = .ok a world' := by
  cases n with
  | zero => exact h
  | succ n =>
    rw [retry, bind_of_ok h, if_pos haccepted]
    rfl

/-- Nothing is tried again once the repetition was stopped. -/
theorem retry_of_stopped {a : α} (h : act world = .ok a world')
    (haccepted : accepted a = false) (hstopped : stopped world' = .ok true world')
    (n : Nat) : retry act accepted stopped pause n world = .ok a world' := by
  cases n with
  | zero => exact h
  | succ n =>
    have hrejected : ¬ accepted a = true := by
      rw [haccepted]
      exact Bool.false_ne_true
    rw [retry, bind_of_ok h, if_neg hrejected, bind_of_ok hstopped, if_pos rfl]
    rfl

/-- What is not accepted is tried again behind a pause, unless the repetition was stopped. -/
theorem retry_of_rejected {a : α} {behind : World} (h : act world = .ok a world')
    (haccepted : accepted a = false) (hstopped : stopped world' = .ok false world')
    (hpause : pause world' = .ok () behind) (n : Nat) :
    retry act accepted stopped pause (n + 1) world
      = retry act accepted stopped pause n behind := by
  have hrejected : ¬ accepted a = true := by
    rw [haccepted]
    exact Bool.false_ne_true
  rw [retry, bind_of_ok h, if_neg hrejected, bind_of_ok hstopped, if_neg Bool.false_ne_true,
    bind_of_ok hpause]

end Retry

end Run

end Rollout
