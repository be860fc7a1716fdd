import Rollout.Proofs.Scenario.Health

/-!
# The time an application has to recover

Once it is down, an application is asked for its greeting as often as it has seconds to recover, and
between any two requests there is a pause of one second. Of the seconds it has, one is therefore
never waited for: an application that is back behind as many pauses as it has seconds is given up.

- `pauses_pollEvents`: the pauses between requests.
- `checkHealth_of_wentDown`: what is left of a check once the application is down.
- `recovery_window_iff`: **how long an application has** to recover.
-/

namespace Rollout

/-- The pause that an event is. -/
def Event.pause? : Event → Option Binary64
  | .sleep seconds => some seconds
  | _ => none

/-- Between some requests there is one pause less. -/
theorem pauses_pollEvents (context : Context) (url : String) (pause : Binary64) (n : Nat) :
    (pollEvents (context.pageEvent url) pause n).filterMap Event.pause?
      = List.replicate (n - 1) pause := by
  induction n with
  | zero => rfl
  | succ n ih =>
    cases n with
    | zero => rfl
    | succ n =>
      rw [pollEvents_succ, List.filterMap_append, ih, Nat.add_sub_cancel, Nat.add_sub_cancel,
        List.replicate_succ]
      rfl

section Recovery

variable {context : Context} {greeting : Greeting} {host : String} {redeployed : Bool}
  {world : World} {alive greeted stop down : Response}

/-- What is left of a check once the application is down. -/
theorem checkHealth_of_wentDown (hwent : WentDown greeting redeployed alive greeted stop down)
    (hanswers : world.outcomesOf (downKeys greeting host)
      = [alive, greeted, stop, down].map Response.outcome) :
    checkHealth context greeting host redeployed world
      = awaitRecovery context greeting host (world.stopped context greeting host) := by
  rw [checkHealth_eq]
  exact Run.bind_of_ok ((goDown_ok_iff context greeting host redeployed).mpr
    ⟨alive, greeted, stop, down, hwent, hanswers, rfl⟩)

/-- The greeting that has status 200 first is the last one that is asked for, if it is asked for. -/
theorem exists_recovered_iff {w : Nat} {body : String}
    (hbefore : ∀ i < w, (world.greetingOutcome greeting host i).Refused)
    (hbody : world.greetingOutcome greeting host w = .response statusOk body) :
    (∃ behind, awaitRecovery context greeting host world = .ok () behind) ↔
      w < max 1 context.settings.recovery.toNat := by
  constructor
  · rintro ⟨behind, hpasses⟩
    obtain ⟨k, hk, hrefused, ⟨answer, hanswer⟩, -⟩ :=
      (awaitRecovery_ok_iff context greeting host).mp hpasses
    have hfirst : ¬ k < w := fun hlt => not_refused_of_ok hanswer (hbefore k hlt)
    exact (Nat.le_of_not_lt hfirst).trans_lt hk
  · intro hw
    exact ⟨_, (awaitRecovery_ok_iff context greeting host).mpr
      ⟨w, hw, hbefore, ⟨body, hbody⟩, rfl⟩⟩

/-- An application is given up when its first greeting with status 200 is not asked for. -/
theorem exists_givenUp_iff {w : Nat} {body : String}
    (hbefore : ∀ i < w, (world.greetingOutcome greeting host i).Refused)
    (hbody : world.greetingOutcome greeting host w = .response statusOk body) :
    (∃ behind, awaitRecovery context greeting host world = .error .notRecovered behind) ↔
      max 1 context.settings.recovery.toNat ≤ w := by
  constructor
  · rintro ⟨behind, hgiven⟩
    have hrefused := ((awaitRecovery_notRecovered_iff context greeting host).mp hgiven).1
    exact Nat.le_of_not_lt fun hlt => not_refused_of_ok hbody (hrefused w hlt)
  · intro hw
    exact ⟨_, (awaitRecovery_notRecovered_iff context greeting host).mpr
      ⟨fun i hi => hbefore i (hi.trans_le hw), rfl⟩⟩

/-- **How long an application has** to recover once it is down. It is given up only behind as many
refused requests as it has seconds, and so behind one pause of a second less. When its greeting
first has status 200 behind `w` pauses, it passes exactly when `w` is less than the seconds it has,
and is given up exactly when it is not. -/
theorem recovery_window_iff (hseconds : 1 ≤ context.settings.recovery)
    (hwent : WentDown greeting redeployed alive greeted stop down)
    (hanswers : world.outcomesOf (downKeys greeting host)
      = [alive, greeted, stop, down].map Response.outcome) :
    -- an application that is given up
    (∀ behind, checkHealth context greeting host redeployed world = .error .notRecovered behind →
      (∀ i : Nat, i < context.settings.recovery →
        ((world.stopped context greeting host).greetingOutcome greeting host i).Refused) ∧
      ∃ events, behind.log = (world.stopped context greeting host).log ++ events ∧
        events.filterMap Event.pause?
          = List.replicate (context.settings.recovery.toNat - 1) recoveryPause) ∧
    -- an application that answers behind some pauses
    ∀ (w : Nat) (body : String),
      (∀ i < w, ((world.stopped context greeting host).greetingOutcome greeting host i).Refused) →
      (world.stopped context greeting host).greetingOutcome greeting host w
        = .response statusOk body →
      ((∃ behind, checkHealth context greeting host redeployed world = .ok () behind) ↔
        w < context.settings.recovery) ∧
      ((∃ behind,
          checkHealth context greeting host redeployed world = .error .notRecovered behind) ↔
        context.settings.recovery ≤ w) := by
  have hmax : max 1 context.settings.recovery.toNat = context.settings.recovery.toNat :=
    max_eq_right (by omega)
  rw [checkHealth_of_wentDown hwent hanswers]
  refine ⟨fun behind hgiven => ?_, fun w body hbefore hbody => ⟨?_, ?_⟩⟩
  · obtain ⟨hrefused, rfl⟩ := (awaitRecovery_notRecovered_iff context greeting host).mp hgiven
    rw [hmax] at hrefused ⊢
    exact ⟨fun i hi => hrefused i (Int.lt_toNat.mpr hi), _, log_greeted context greeting host _ _,
      pauses_pollEvents context _ _ _⟩
  · rw [exists_recovered_iff hbefore hbody, hmax, Int.lt_toNat]
  · rw [exists_givenUp_iff hbefore hbody, hmax, Int.toNat_le]

/-- An application that greets, then does not, and is back behind one pause. -/
def slowApplication : World :=
  stoppable [.response 200 (bodyWith "content" "Hello"), .response 503 "stopped",
    .response 200 (bodyWith "content" "Hello")]

/-- With one second, it is given up. -/
theorem recovery_window_iff_slowApplication :
    ∃ behind,
      checkHealth oneSecond hello "demo" false slowApplication = .error .notRecovered behind := by
  have hrefused : ∀ i < 1, ((slowApplication.stopped oneSecond hello "demo").greetingOutcome
      hello "demo" i).Refused := by
    intro i hi
    obtain rfl : i = 0 := Nat.lt_one_iff.mp hi
    show (503 : Int) ≠ statusOk
    decide
  exact ((recovery_window_iff (by decide) (wentDown_hello 200) rfl).2 1 _ hrefused rfl).2.mpr
    (by decide)

end Recovery

end Rollout
