import Rollout.Proofs.Cluster.Cancel
import Rollout.Proofs.Http.Sending
import Rollout.Proofs.Scenario.Steps
import Rollout.Scenario.Expectation

/-!
# Pages asked for again

A page is asked for until it answers with status 200, as often as is allowed. What its requests come
to is laid down before the first one, so that the number of requests is known from their outcomes.

- `Outcome.Refused`: an outcome behind which the page is asked for again.
- `World.asked`: the world behind a number of requests, with a pause between any two.
- `retry_asked`: the requests for a page, one by one.
- `askUntilOk_run`: **how the asking ends**, with every request and every pause that it makes.
-/

namespace Rollout

/-- The page answers, but with another status than 200. -/
def Outcome.Refused : Outcome → Prop
  | .response status _ => status ≠ statusOk
  | .fault _ => False

/-- What identifies the requests for a page. -/
def pageKey (url : String) : String :=
  "GET" ++ " " ++ url

/-- The world behind a number of requests for a page, with a pause between any two. -/
def World.asked (context : Context) (url : String) (interval : Binary64) (requests : Nat)
    (world : World) : World :=
  { world with
    routes := (Run.advance (pageKey url))^[requests] world.routes
    pauses := Pauses.slept^[requests - 1] world.pauses
    log := world.log ++ pollEvents (context.pageEvent url) interval requests }

section Asking

variable (context : Context) (url : String) (interval : Binary64) (world : World)

/-- One request for a page. -/
theorem ask_run :
    context.ask "GET" url none world
      = Run.ending ((world.outcomeOf (pageKey url) 0).received url)
          (world.asked context url interval 1) := by
  have hget : HttpRequest.ofMethod "GET" url none = .ok ⟨"GET", url, [], none⟩ := rfl
  exact Http.send_run hget context.settings.requestTimeout true world

/-- The world behind a request for a page and the pause after it. -/
def World.rested : World :=
  { world with
    routes := Run.advance (pageKey url) world.routes
    pauses := world.pauses.slept
    log := world.log ++ [context.pageEvent url, .sleep interval] }

theorem sleep_asked :
    Run.sleep interval (world.asked context url interval 1)
      = .ok () (world.rested context url interval) := by
  rw [Run.sleep_run]
  unfold World.asked World.rested World.logging World.pausing
  rw [List.append_assoc]
  rfl

/-- The outcomes behind the first one. -/
theorem outcomeOf_rested (i : Nat) :
    (world.rested context url interval).outcomeOf (pageKey url) i
      = world.outcomeOf (pageKey url) (i + 1) :=
  world.outcomeOf_answered (pageKey url) i

theorem asked_rested (requests : Nat) :
    (world.rested context url interval).asked context url interval (requests + 1)
      = world.asked context url interval (requests + 2) := by
  unfold World.asked World.rested
  rw [pollEvents_succ, List.append_assoc]
  rfl

end Asking

section Retry

variable {context : Context} {url : String} {interval : Binary64} {world : World} {k : Nat}

/-- A request that was not refused is the last one. -/
theorem retry_of_not_refused (h : ¬ (world.outcomeOf (pageKey url) 0).Refused) (n : Nat) :
    Run.retry (context.ask "GET" url none) (fun response => response.status = statusOk)
        (return false) (Run.sleep interval) n world
      = Run.ending ((world.outcomeOf (pageKey url) 0).received url)
          (world.asked context url interval 1) := by
  have hask := ask_run context url interval world
  cases houtcome : world.outcomeOf (pageKey url) 0 with
  | response status body =>
    rw [houtcome] at hask h
    exact Run.retry_of_accepted hask (decide_eq_true (not_not.mp h)) n
  | fault fault =>
    rw [houtcome] at hask
    exact Run.retry_of_error hask n

/-- A request that was refused is followed by a pause and another one, if another one is left. -/
theorem retry_of_refused (h : (world.outcomeOf (pageKey url) 0).Refused) (n : Nat) :
    Run.retry (context.ask "GET" url none) (fun response => response.status = statusOk)
        (return false) (Run.sleep interval) (n + 1) world
      = Run.retry (context.ask "GET" url none) (fun response => response.status = statusOk)
          (return false) (Run.sleep interval) n (world.rested context url interval) := by
  have hask := ask_run context url interval world
  cases houtcome : world.outcomeOf (pageKey url) 0 with
  | response status body =>
    rw [houtcome] at hask h
    exact Run.retry_of_rejected hask (decide_eq_false h) rfl
      (sleep_asked context url interval world) n
  | fault fault =>
    rw [houtcome] at h
    cases h

/-- **The requests for a page** up to the last one: the first that is not refused, or the last one
that is allowed. -/
theorem retry_asked {n : Nat} (hk : k ≤ n)
    (hbefore : ∀ i < k, (world.outcomeOf (pageKey url) i).Refused)
    (hend : k = n ∨ ¬ (world.outcomeOf (pageKey url) k).Refused) :
    Run.retry (context.ask "GET" url none) (fun response => response.status = statusOk)
        (return false) (Run.sleep interval) n world
      = Run.ending ((world.outcomeOf (pageKey url) k).received url)
          (world.asked context url interval (k + 1)) := by
  induction n generalizing k world with
  | zero =>
    obtain rfl : k = 0 := Nat.le_zero.mp hk
    exact ask_run context url interval world
  | succ n ih =>
    cases k with
    | zero => exact retry_of_not_refused (hend.resolve_left (Nat.succ_ne_zero n).symm) (n + 1)
    | succ k =>
      -- the other requests are those of a page that may be asked for once less
      have hbefore' : ∀ i < k,
          ((world.rested context url interval).outcomeOf (pageKey url) i).Refused := by
        intro i hi
        rw [outcomeOf_rested]
        exact hbefore (i + 1) (Nat.succ_lt_succ hi)
      have hend' : k = n
          ∨ ¬ ((world.rested context url interval).outcomeOf (pageKey url) k).Refused := by
        rw [outcomeOf_rested]
        exact hend.imp_left Nat.succ.inj
      rw [retry_of_refused (hbefore 0 (Nat.succ_pos k)),
        ih (Nat.le_of_succ_le_succ hk) hbefore' hend', outcomeOf_rested, asked_rested]

end Retry

/-! ## How the asking ends -/

/-- What the asking gives is what its last request comes to. -/
theorem askUntilOk_ending (context : Context) (url : String) (attempts : Int) (interval : Binary64)
    (world : World) {k : Nat} (hk : k < max 1 attempts.toNat)
    (hbefore : ∀ i < k, (world.outcomeOf (pageKey url) i).Refused)
    (hend : k + 1 = max 1 attempts.toNat ∨ ¬ (world.outcomeOf (pageKey url) k).Refused) :
    askUntilOk context url attempts interval world
      = Run.ending ((world.outcomeOf (pageKey url) k).received url)
          (world.asked context url interval (k + 1)) := by
  rw [← repeats_succ] at hk hend
  exact retry_asked (Nat.le_of_lt_succ hk) hbefore (hend.imp_left Nat.succ.inj)

/-- A response with another status than 200 is that of a request that was refused. -/
theorem refused_of_received {outcome : Outcome} {url : String} {response : Response}
    (h : outcome.received url = .ok response) (hstatus : response.status ≠ statusOk) :
    outcome.Refused := by
  cases outcome with
  | response status body =>
    cases h
    exact hstatus
  | fault fault => cases h

/-- **How the asking ends**, with at least one request. Of the outcomes that are laid down for a
page, as many as may be asked for, the first that is not refused is that of the last request: a
response with status 200 is given, and a fault is raised, as that of a host that cannot be resolved
if it is. Without such an outcome, the response to the last request that may be made is given. A
response with another status is given only if all of them were refused. -/
theorem askUntilOk_run (context : Context) (url : String) (attempts : Int) (interval : Binary64)
    (world : World) :
    -- an outcome that ends the asking
    (∀ k < max 1 attempts.toNat, (∀ i < k, (world.outcomeOf (pageKey url) i).Refused) →
      (∀ body, world.outcomeOf (pageKey url) k = .response statusOk body →
        askUntilOk context url attempts interval world
          = .ok ⟨statusOk, body⟩ (world.asked context url interval (k + 1))) ∧
      ∀ fault, world.outcomeOf (pageKey url) k = .fault fault →
        (fault.kind.isConnection = true ∧ fault.Unresolved →
          askUntilOk context url attempts interval world
            = .error (.unresolvable url) (world.asked context url interval (k + 1))) ∧
        (¬ (fault.kind.isConnection = true ∧ fault.Unresolved) →
          askUntilOk context url attempts interval world
            = .error (.raised fault) (world.asked context url interval (k + 1)))) ∧
    -- no such outcome
    ((∀ i < max 1 attempts.toNat, (world.outcomeOf (pageKey url) i).Refused) →
      ∃ status body,
        world.outcomeOf (pageKey url) (max 1 attempts.toNat - 1) = .response status body ∧
        askUntilOk context url attempts interval world
          = .ok ⟨status, body⟩ (world.asked context url interval (max 1 attempts.toNat))) ∧
    -- a response with another status
    ∀ response behind, askUntilOk context url attempts interval world = .ok response behind →
      response.status ≠ statusOk →
        ∀ i < max 1 attempts.toNat, (world.outcomeOf (pageKey url) i).Refused := by
  refine ⟨fun k hk hbefore => ⟨fun body hbody => ?_, fun fault hfault => ?_⟩, fun hrefused => ?_,
    fun response behind hrun hstatus => ?_⟩
  · have hends : ¬ (world.outcomeOf (pageKey url) k).Refused := by
      rw [hbody]
      exact not_not_intro rfl
    rw [askUntilOk_ending context url attempts interval world hk hbefore (.inr hends), hbody]
    rfl
  · have hends : ¬ (world.outcomeOf (pageKey url) k).Refused := by
      rw [hfault]
      exact not_false
    rw [askUntilOk_ending context url attempts interval world hk hbefore (.inr hends), hfault]
    refine ⟨fun hunresolved => ?_, fun hother => ?_⟩
    · rw [← Http.faultOfRequest_of_unresolved url hunresolved]
      rfl
    · rw [← Http.faultOfRequest_of_other url hother]
      rfl
  · obtain ⟨n, hn⟩ : ∃ n, max 1 attempts.toNat = n + 1 := ⟨_, (repeats_succ attempts).symm⟩
    rw [hn] at hrefused
    have hlast := hrefused n (Nat.lt_succ_self n)
    rw [askUntilOk_ending context url attempts interval world (hn ▸ Nat.lt_succ_self n)
      (fun i hi => hrefused i (Nat.lt_succ_of_lt hi)) (.inl hn.symm), hn, Nat.add_sub_cancel]
    cases houtcome : world.outcomeOf (pageKey url) n with
    | response status body => exact ⟨status, body, rfl, rfl⟩
    | fault fault =>
      rw [houtcome] at hlast
      cases hlast
  · obtain ⟨k, hk, hbefore, hend⟩ := Run.exists_last_try
      (fun i => (world.outcomeOf (pageKey url) i).Refused) (Run.repeats attempts)
    rw [← repeats_succ]
    rw [askUntilOk_ending context url attempts interval world
      (repeats_succ attempts ▸ Nat.lt_succ_of_le hk) hbefore
      (hend.imp_left fun h => (congrArg Nat.succ h).trans (repeats_succ attempts))] at hrun
    cases hreceived : (world.outcomeOf (pageKey url) k).received url with
    | error failure =>
      rw [hreceived] at hrun
      cases hrun
    | ok last =>
      rw [hreceived] at hrun
      cases hrun
      have hlast : (world.outcomeOf (pageKey url) k).Refused :=
        refused_of_received hreceived hstatus
      obtain rfl : k = Run.repeats attempts := hend.resolve_right (not_not_intro hlast)
      intro i hi
      rcases Nat.lt_succ_iff_lt_or_eq.mp hi with hlt | rfl
      · exact hbefore i hlt
      · exact hlast

/-- A page that is not ready at first. -/
example (context : Context) :
    (askUntilOk context "http://demo/" 3 .zero).outcome
        { World.start Files.empty with
          routes := [("GET http://demo/", [.response 503 "", .response 200 "up"])] }
      = .ok ⟨200, "up"⟩ := rfl

end Rollout
