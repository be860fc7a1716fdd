import Rollout.Proofs.Scenario.Answers

/-!
# Checks of an application's health

The check of an application's health is a protocol in two parts. The application is watched going
down: it says that it is up, it greets, it is stopped, and it says that it is down. Then it is asked
for its greeting until it is back. A check that passes shows what each of these answers was, but it
does not show that the first greeting came with status 200.

- `WentDown`, `Recovered`: what the check demands of the answers of its two parts.
- `goDown_ok_iff`, `awaitRecovery_ok_iff`, `awaitRecovery_notRecovered_iff`: **the two parts**.
- `checkHealth_ok_iff`: **which answers pass**.
- `health_shown_iff`: what a check that passes shows.
-/

namespace Rollout

/-! ## The two parts of the check -/

/-- What the check demands of the answers of an application that goes down. -/
structure WentDown (greeting : Greeting) (redeployed : Bool) (alive greeted stop down : Response) :
    Prop where
  alive : alive.Says "outcome" "UP"
  greeted : greeted.Says greeting.field (greeting.greetingAfter redeployed)
  stop : stop.status = statusOk
  down : down.status ≠ statusOk ∧ down.Says "outcome" "DOWN"

/-- What the check demands of the greetings of an application that comes back: the last one has
status 200, and it is the first that has. -/
def Recovered (responses : List Response) : Prop :=
  ∃ refused last, responses = refused ++ [last] ∧
    (∀ response ∈ refused, response.status ≠ statusOk) ∧ last.status = statusOk

section Health

variable (context : Context) (greeting : Greeting) (host : String) (redeployed : Bool)

/-- The application is watched going down. -/
def goDown : Run Unit := do
  requireField (← context.ask "GET" (pageUrl host livenessPath) none) "outcome" "UP"
  requireField (← context.ask "GET" (pageUrl host greeting.path) none) greeting.field
    (greeting.greetingAfter redeployed)
  requireStatus (← context.ask "GET" (pageUrl host stopPath) none) statusOk stopPath
  let stopped ← context.ask "GET" (pageUrl host livenessPath) none
  if stopped.status = statusOk then throw .stillAlive
  requireField stopped "outcome" "DOWN"

/-- The application is asked for its greeting until it is back. -/
def awaitRecovery : Run Unit := do
  let recovered ← askUntilOk context (pageUrl host greeting.path) context.settings.recovery
    recoveryPause
  if recovered.status ≠ statusOk then throw .notRecovered

theorem checkHealth_eq :
    checkHealth context greeting host redeployed
      = (do
          goDown context greeting host redeployed
          awaitRecovery context greeting host) := by
  unfold checkHealth goDown awaitRecovery
  simp only [bind_assoc, Run.ite_bind]

/-- The world once the application went down. -/
def World.stopped (world : World) : World :=
  [pageUrl host livenessPath, pageUrl host greeting.path, pageUrl host stopPath,
    pageUrl host livenessPath].foldl (World.visited context) world

/-- What identifies the requests up to the last one before the application is asked for its
greeting again. -/
def downKeys : List String :=
  [pageKey (pageUrl host livenessPath), pageKey (pageUrl host greeting.path),
    pageKey (pageUrl host stopPath), pageKey (pageUrl host livenessPath)]

theorem outcomesOf_downKeys (keys : List String) (world : World) :
    world.outcomesOf (downKeys greeting host ++ keys)
      = world.outcomesOf (downKeys greeting host)
        ++ (world.stopped context greeting host).outcomesOf keys := by
  simp only [downKeys, List.cons_append, List.nil_append, outcomesOf_cons_page context]
  rfl

/-- **The application goes down** when its answers are those that are demanded. -/
theorem goDown_ok_iff {world behind : World} :
    goDown context greeting host redeployed world = .ok () behind ↔
      ∃ alive greeted stop down, WentDown greeting redeployed alive greeted stop down ∧
        world.outcomesOf (downKeys greeting host)
          = [alive, greeted, stop, down].map Response.outcome ∧
        behind = world.stopped context greeting host := by
  unfold goDown
  simp only [Run.bind_ok_iff, ask_ok_iff, requireField_ok_iff, requireStatus_ok_iff,
    requireDown_ok_iff, downKeys, outcomesOf_cons_page context, World.outcomesOf,
    List.map_cons, List.map_nil, List.cons.injEq, and_true]
  constructor
  · rintro ⟨alive, _, ⟨halive, rfl⟩, _, _, ⟨hup, rfl⟩, greeted, _, ⟨hgreeted, rfl⟩, _, _,
      ⟨hgreets, rfl⟩, stop, _, ⟨hstop, rfl⟩, _, _, ⟨hstatus, rfl⟩, down, _, ⟨hdown, rfl⟩,
      hgone, rfl⟩
    exact ⟨alive, greeted, stop, down, ⟨hup, hgreets, hstatus, hgone⟩,
      ⟨halive, hgreeted, hstop, hdown⟩, rfl⟩
  · rintro ⟨alive, greeted, stop, down, h, ⟨halive, hgreeted, hstop, hdown⟩, rfl⟩
    exact ⟨alive, _, ⟨halive, rfl⟩, (), _, ⟨h.alive, rfl⟩, greeted, _, ⟨hgreeted, rfl⟩, (), _,
      ⟨h.greeted, rfl⟩, stop, _, ⟨hstop, rfl⟩, (), _, ⟨h.stop, rfl⟩, down, _, ⟨hdown, rfl⟩,
      h.down, rfl⟩

/-! ## The way back -/

/-- The outcome of a request for the greeting behind `i` others. -/
def World.greetingOutcome (world : World) (i : Nat) : Outcome :=
  world.outcomeOf (pageKey (pageUrl host greeting.path)) i

/-- The world once the greeting was asked for a number of times. -/
def World.greeted (requests : Nat) (world : World) : World :=
  world.asked context (pageUrl host greeting.path) recoveryPause requests

/-- What the last request for the greeting comes to. -/
def verdict (url : String) : Outcome → Except Failure Unit
  | .response status _ => if status = statusOk then .ok () else .error .notRecovered
  | .fault fault => .error (faultOfRequest url fault)

/-- The request for the greeting that ends the asking decides: the first one that is not refused, or
the last one that is allowed. -/
theorem awaitRecovery_run (world : World) {k : Nat}
    (hk : k < max 1 context.settings.recovery.toNat)
    (hbefore : ∀ i < k, (world.greetingOutcome greeting host i).Refused)
    (hend : k + 1 = max 1 context.settings.recovery.toNat
      ∨ ¬ (world.greetingOutcome greeting host k).Refused) :
    awaitRecovery context greeting host world
      = Run.ending (verdict (pageUrl host greeting.path) (world.greetingOutcome greeting host k))
          (world.greeted context greeting host (k + 1)) := by
  have hask := askUntilOk_ending context (pageUrl host greeting.path) context.settings.recovery
    recoveryPause world hk hbefore hend
  unfold awaitRecovery World.greetingOutcome
  cases houtcome : world.outcomeOf (pageKey (pageUrl host greeting.path)) k with
  | response status body =>
    rw [houtcome] at hask
    rw [Run.bind_of_ok hask, verdict]
    by_cases hstatus : status = statusOk
    · rw [if_neg (not_not_intro hstatus), if_pos hstatus]
      rfl
    · rw [if_pos hstatus, if_neg hstatus]
      rfl
  | fault fault =>
    rw [houtcome] at hask
    exact Run.bind_of_error hask

/-- One of the requests for the greeting ends the asking. -/
theorem exists_last_greeting (world : World) :
    ∃ k < max 1 context.settings.recovery.toNat,
      (∀ i < k, (world.greetingOutcome greeting host i).Refused) ∧
      (k + 1 = max 1 context.settings.recovery.toNat
        ∨ ¬ (world.greetingOutcome greeting host k).Refused) := by
  obtain ⟨k, hk, hbefore, hend⟩ := Run.exists_last_try
    (fun i => (world.greetingOutcome greeting host i).Refused)
    (Run.repeats context.settings.recovery)
  rw [← repeats_succ]
  exact ⟨k, Nat.lt_succ_of_le hk, hbefore, hend.imp_left (congrArg Nat.succ)⟩

/-- **The application is back** when one of the greetings that are asked for has status 200, and all
before it were refused. -/
theorem awaitRecovery_ok_iff {world behind : World} :
    awaitRecovery context greeting host world = .ok () behind ↔
      ∃ k < max 1 context.settings.recovery.toNat,
        (∀ i < k, (world.greetingOutcome greeting host i).Refused) ∧
        (∃ body, world.greetingOutcome greeting host k = .response statusOk body) ∧
        behind = world.greeted context greeting host (k + 1) := by
  constructor
  · intro hrun
    obtain ⟨k, hk, hbefore, hend⟩ := exists_last_greeting context greeting host world
    rw [awaitRecovery_run context greeting host world hk hbefore hend] at hrun
    cases houtcome : world.greetingOutcome greeting host k with
    | response status body =>
      rw [houtcome, verdict] at hrun
      by_cases hstatus : status = statusOk
      · rw [if_pos hstatus] at hrun
        cases hrun
        exact ⟨k, hk, hbefore, ⟨body, hstatus ▸ houtcome⟩, rfl⟩
      · rw [if_neg hstatus] at hrun
        cases hrun
    | fault fault =>
      rw [houtcome] at hrun
      cases hrun
  · rintro ⟨k, hk, hbefore, ⟨body, hbody⟩, rfl⟩
    rw [awaitRecovery_run context greeting host world hk hbefore (.inr (not_refused_of_ok hbody)),
      hbody, verdict, if_pos rfl]
    rfl

/-- **The application is given up** when all greetings that may be asked for were refused. -/
theorem awaitRecovery_notRecovered_iff {world behind : World} :
    awaitRecovery context greeting host world = .error .notRecovered behind ↔
      (∀ i < max 1 context.settings.recovery.toNat,
        (world.greetingOutcome greeting host i).Refused) ∧
      behind = world.greeted context greeting host (max 1 context.settings.recovery.toNat) := by
  obtain ⟨k, hk, hbefore, hend⟩ := exists_last_greeting context greeting host world
  rw [awaitRecovery_run context greeting host world hk hbefore hend]
  cases houtcome : world.greetingOutcome greeting host k with
  | response status body =>
    by_cases hstatus : status = statusOk
    · rw [verdict, if_pos hstatus]
      refine iff_of_false nofun fun h => ?_
      have hrefused := h.1 k hk
      rw [houtcome] at hrefused
      exact hrefused hstatus
    · have hrefused : (world.greetingOutcome greeting host k).Refused := by
        rw [houtcome]
        exact hstatus
      have hlast := hend.resolve_right (not_not_intro hrefused)
      rw [verdict, if_neg hstatus, hlast]
      have hall : ∀ i < max 1 context.settings.recovery.toNat,
          (world.greetingOutcome greeting host i).Refused := by
        intro i hi
        rcases Nat.lt_succ_iff_lt_or_eq.mp (hlast ▸ hi) with hlt | rfl
        · exact hbefore i hlt
        · exact hrefused
      constructor
      · rintro ⟨⟩
        exact ⟨hall, rfl⟩
      · rintro ⟨-, rfl⟩
        rfl
  | fault fault =>
    refine iff_of_false ?_ fun h => ?_
    · show ¬ EStateM.Result.error (faultOfRequest (pageUrl host greeting.path) fault) _ = _
      unfold faultOfRequest
      split <;> exact nofun
    · have hrefused := h.1 k hk
      rw [houtcome] at hrefused
      exact hrefused

/-- The greetings that bring an application back, as the responses to as many requests. -/
theorem recovered_iff (world : World) (k : Nat) :
    ((∀ i < k, (world.greetingOutcome greeting host i).Refused) ∧
        ∃ body, world.greetingOutcome greeting host k = .response statusOk body) ↔
      ∃ responses, Recovered responses ∧ responses.length = k + 1 ∧
        world.outcomesOf (List.replicate (k + 1) (pageKey (pageUrl host greeting.path)))
          = responses.map Response.outcome := by
  have hbefore : (∀ i < k, (world.greetingOutcome greeting host i).Refused) ↔
      ∀ outcome ∈ (List.range k).map (world.greetingOutcome greeting host), outcome.Refused := by
    simp only [List.forall_mem_map, List.mem_range]
  have hrow : world.outcomesOf (List.replicate (k + 1) (pageKey (pageUrl host greeting.path)))
      = (List.range k).map (world.greetingOutcome greeting host)
        ++ [world.greetingOutcome greeting host k] := by
    rw [outcomesOf_replicate, List.range_succ, List.map_append]
    rfl
  rw [hbefore, refused_outcomes_iff, hrow]
  constructor
  · rintro ⟨⟨refused, hrefused, hstatus⟩, body, hbody⟩
    refine ⟨refused ++ [⟨statusOk, body⟩], ⟨refused, ⟨statusOk, body⟩, rfl, hstatus, rfl⟩, ?_, ?_⟩
    · have hlength := congrArg List.length hrefused
      rw [List.length_map, List.length_map, List.length_range] at hlength
      rw [List.length_append, ← hlength, List.length_singleton]
    · rw [hrefused, hbody, List.map_append]
      rfl
  · rintro ⟨_, ⟨refused, last, rfl, hstatus, hlast⟩, -, hrow⟩
    rw [List.map_append, List.map_singleton] at hrow
    obtain ⟨hrefused, hend⟩ := List.append_inj' hrow rfl
    have hbody : world.greetingOutcome greeting host k = .response statusOk last.body := by
      rw [(List.cons.inj hend).1, Response.outcome, hlast]
    exact ⟨⟨refused, hrefused, hstatus⟩, last.body, hbody⟩

/-! ## The whole check -/

/-- The world behind a check with a number of requests for the greeting after the stop. -/
def World.checked (requests : Nat) (world : World) : World :=
  (world.stopped context greeting host).greeted context greeting host requests

/-- What identifies the requests of a check with `n` requests for the greeting after the stop. -/
def healthKeys (n : Nat) : List String :=
  downKeys greeting host ++ List.replicate n (pageKey (pageUrl host greeting.path))

/-- The requests up to the last one before the application is asked for its greeting again. -/
def downEvents : List Event :=
  [context.pageEvent (pageUrl host livenessPath), context.pageEvent (pageUrl host greeting.path),
    context.pageEvent (pageUrl host stopPath), context.pageEvent (pageUrl host livenessPath)]

theorem log_stopped (world : World) :
    (world.stopped context greeting host).log = world.log ++ downEvents context greeting host := by
  simp [World.stopped, World.visited, World.logging, World.answered, downEvents]

theorem log_greeted (requests : Nat) (world : World) :
    (world.greeted context greeting host requests).log
      = world.log ++ pollEvents (context.pageEvent (pageUrl host greeting.path)) recoveryPause
          requests :=
  rfl

/-- The requests of a check are in its log, and no others. -/
theorem log_checked (n : Nat) (world : World) :
    ∃ events, (world.checked context greeting host n).log = world.log ++ events ∧
      requestKeys events = healthKeys greeting host n := by
  refine ⟨downEvents context greeting host
    ++ pollEvents (context.pageEvent (pageUrl host greeting.path)) recoveryPause n, ?_, ?_⟩
  · rw [World.checked, log_greeted, log_stopped, List.append_assoc]
  · rw [requestKeys_append, requestKeys_pollEvents]
    rfl

/-- **Which answers pass.** Of the status of the first greeting nothing is demanded. -/
theorem checkHealth_ok_iff {world behind : World} :
    checkHealth context greeting host redeployed world = .ok () behind ↔
      ∃ alive greeted stop down recovering,
        WentDown greeting redeployed alive greeted stop down ∧ Recovered recovering ∧
        recovering.length ≤ max 1 context.settings.recovery.toNat ∧
        world.outcomesOf (healthKeys greeting host recovering.length)
          = (alive :: greeted :: stop :: down :: recovering).map Response.outcome ∧
        behind = world.checked context greeting host recovering.length := by
  rw [checkHealth_eq, Run.bind_ok_iff]
  unfold healthKeys World.checked
  simp only [outcomesOf_downKeys context]
  constructor
  · rintro ⟨⟨⟩, mid, hdown, hback⟩
    obtain ⟨alive, greeted, stop, down, hwent, hanswers, rfl⟩ :=
      (goDown_ok_iff context greeting host redeployed).mp hdown
    obtain ⟨k, hk, hbefore, hbody, rfl⟩ := (awaitRecovery_ok_iff context greeting host).mp hback
    obtain ⟨recovering, hrecovered, hlength, hrow⟩ :=
      (recovered_iff greeting host _ k).mp ⟨hbefore, hbody⟩
    refine ⟨alive, greeted, stop, down, recovering, hwent, hrecovered, ?_, ?_, ?_⟩
    · rw [hlength]
      exact hk
    · rw [hlength, hanswers, hrow]
      rfl
    · rw [hlength]
  · rintro ⟨alive, greeted, stop, down, recovering, hwent, hrecovered, hmost, hanswers, rfl⟩
    have hlength : (world.outcomesOf (downKeys greeting host)).length
        = ([alive, greeted, stop, down].map Response.outcome).length := rfl
    obtain ⟨hdown, hrow⟩ := List.append_inj (hanswers.trans rfl :
      _ = [alive, greeted, stop, down].map Response.outcome ++ recovering.map Response.outcome)
      hlength
    obtain ⟨k, hk⟩ : ∃ k, recovering.length = k + 1 := by
      obtain ⟨refused, last, rfl, -⟩ := hrecovered
      exact ⟨refused.length, List.length_append⟩
    rw [hk] at hrow hmost ⊢
    obtain ⟨hbefore, hbody⟩ :=
      (recovered_iff greeting host _ k).mpr ⟨recovering, hrecovered, hk, hrow⟩
    exact ⟨(), _, (goDown_ok_iff context greeting host redeployed).mpr
      ⟨alive, greeted, stop, down, hwent, hdown, rfl⟩,
      (awaitRecovery_ok_iff context greeting host).mpr ⟨k, hmost, hbefore, hbody, rfl⟩⟩

/-- The answers of an application that is healthy: it lives, it greets, it stops, it is down, and it
greets again. -/
def Healthy : List Response → Prop
  | alive :: greeted :: stop :: down :: recovering =>
    alive.Says "outcome" "UP" ∧
    (greeted.status = statusOk ∧
      greeted.Says greeting.field (greeting.greetingAfter redeployed)) ∧
    stop.status = statusOk ∧
    (down.status ≠ statusOk ∧ down.Says "outcome" "DOWN") ∧
    Recovered recovering
  | _ => False

/-- **What a check that passes shows**: the responses that it has received are those of a healthy
application, but for the status of the first greeting, which may be any. A check passes whenever
such answers are laid down, with no more greetings behind the stop than may be asked for, and raises
a failure in every other case. -/
theorem health_shown_iff (world : World) :
    -- the responses of a check that passes
    (∀ behind, checkHealth context greeting host redeployed world = .ok () behind →
      ∃ alive greeted stop down recovering,
        world.Received behind (alive :: greeted :: stop :: down :: recovering) ∧
        WentDown greeting redeployed alive greeted stop down ∧ Recovered recovering ∧
        (Healthy greeting redeployed (alive :: greeted :: stop :: down :: recovering) ↔
          greeted.status = statusOk)) ∧
    -- the answers that pass
    ((∃ behind, checkHealth context greeting host redeployed world = .ok () behind) ↔
      ∃ alive greeted stop down recovering,
        WentDown greeting redeployed alive greeted stop down ∧ Recovered recovering ∧
        recovering.length ≤ max 1 context.settings.recovery.toNat ∧
        world.outcomesOf (healthKeys greeting host recovering.length)
          = (alive :: greeted :: stop :: down :: recovering).map Response.outcome) ∧
    -- all other answers
    ((¬ ∃ behind, checkHealth context greeting host redeployed world = .ok () behind) →
      ∃ failure behind,
        checkHealth context greeting host redeployed world = .error failure behind) := by
  refine ⟨fun behind hpasses => ?_, ⟨?_, ?_⟩, fun hfails => ?_⟩
  · obtain ⟨alive, greeted, stop, down, recovering, hwent, hrecovered, -, hanswers, rfl⟩ :=
      (checkHealth_ok_iff context greeting host redeployed).mp hpasses
    obtain ⟨events, hlog, hkeys⟩ := log_checked context greeting host recovering.length world
    refine ⟨alive, greeted, stop, down, recovering, ⟨events, hlog, hkeys ▸ hanswers⟩, hwent,
      hrecovered, fun h => h.2.1.1, fun hstatus => ?_⟩
    exact ⟨hwent.alive, ⟨hstatus, hwent.greeted⟩, hwent.stop, hwent.down, hrecovered⟩
  · rintro ⟨behind, hpasses⟩
    obtain ⟨alive, greeted, stop, down, recovering, hwent, hrecovered, hmost, hanswers, -⟩ :=
      (checkHealth_ok_iff context greeting host redeployed).mp hpasses
    exact ⟨alive, greeted, stop, down, recovering, hwent, hrecovered, hmost, hanswers⟩
  · rintro ⟨alive, greeted, stop, down, recovering, hwent, hrecovered, hmost, hanswers⟩
    exact ⟨_, (checkHealth_ok_iff context greeting host redeployed).mpr
      ⟨alive, greeted, stop, down, recovering, hwent, hrecovered, hmost, hanswers, rfl⟩⟩
  · cases hrun : checkHealth context greeting host redeployed world with
    | ok done behind => exact absurd ⟨behind, hrun⟩ hfails
    | error failure behind => exact ⟨failure, behind, rfl⟩

end Health

/-- A run that gives applications one second to recover. -/
def oneSecond : Context :=
  ⟨{ Settings.standard with recovery := 1 }, .store, "test", .command "mvn", .handed⟩

/-- A greeting. -/
def hello : Greeting := ⟨"/api/greeting", "content", "Hello", none⟩

/-- The body of a response with a text as its only member. -/
def bodyWith (name text : String) : String :=
  (Json.obj [(name, .str text)]).render

/-- What an application answers to requests for its greeting; it stops when it is told to. -/
def stoppable (greetings : List Outcome) : World :=
  { World.start Files.empty with
    routes := [
      ("GET http://demo/api/health/liveness",
        [.response 200 (bodyWith "outcome" "UP"), .response 503 (bodyWith "outcome" "DOWN")]),
      ("GET http://demo/api/greeting", greetings),
      ("GET http://demo/api/stop", [.response 200 ""])] }

/-- Its answers until it is down, when its greeting is as expected. -/
theorem wentDown_hello (status : Int) :
    WentDown hello false ⟨200, bodyWith "outcome" "UP"⟩ ⟨status, bodyWith "content" "Hello"⟩
      ⟨200, ""⟩ ⟨503, bodyWith "outcome" "DOWN"⟩ := by
  have hup : Json.read? (bodyWith "outcome" "UP") = some (.obj [("outcome", .str "UP")]) := by cbv
  have hgreets : Json.read? (bodyWith "content" "Hello")
      = some (.obj [("content", .str "Hello")]) := by cbv
  have hdown : Json.read? (bodyWith "outcome" "DOWN")
      = some (.obj [("outcome", .str "DOWN")]) := by cbv
  exact ⟨⟨_, hup, rfl⟩, ⟨_, hgreets, rfl⟩, rfl, by decide, _, hdown, rfl⟩

/-- A greeting with status 500 passes. -/
example :
    ∃ behind, checkHealth oneSecond hello "demo" false
      (stoppable [.response 500 (bodyWith "content" "Hello"), .response 200 "ready"])
        = .ok () behind := by
  have hback : Recovered [⟨200, "ready"⟩] := ⟨[], ⟨200, "ready"⟩, rfl, by simp, rfl⟩
  exact ⟨_, (checkHealth_ok_iff oneSecond hello "demo" false).mpr
    ⟨_, _, _, _, _, wentDown_hello 500, hback, by decide, rfl, rfl⟩⟩

end Rollout
