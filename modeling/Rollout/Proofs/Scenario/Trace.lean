import Rollout.Proofs.Scenario.Removal

/-!
# The trace of a run

A scenario runs in a context of its own. Its log grows by what opening the context takes, by the
steps of the scenario, and by the removals at the end.

- `Carried`: the three parts of a run, with the course that the steps take.
- `listing_behind_build`, `request_behind_application`: what has passed before pods are listed, and
  before a request is sent.
- `scenario_trace`: **the law of the trace** of every run.
- `removed_iff_made`: **what is removed** of what was made.
-/

namespace Rollout

section Runs

variable (settings : Settings) (overrides : Overrides) (scenario : Scenario) (booster : Booster)
  (project : Project) (world : World)

/-- A scenario in a context of its own: the context as it is opened, the events and the end of the
scenario's steps, and the events of the removals. -/
structure Carried (context : Context) (opened : World) (steps : List Event)
    (done : EStateM.Result Failure World Unit) (removals : List Event) : Prop where
  start : startContext settings overrides world = .ok context opened
  ends : scenario.run context booster project opened = done
  course : Course (scenario.plan context booster project) opened steps done
  log : ((withContext settings overrides fun context =>
    scenario.run context booster project).behind world).log = opened.log ++ steps ++ removals
  /-- What is remembered is removed, and it is the config map at most. -/
  removed : ((worldOf done).tracked = [] ∧ removals = []) ∨
    ∃ spec, booster.configMap = some spec ∧
      (worldOf done).tracked = [(configMapKind, spec.name)] ∧
      removals = [context.client.deleteEvent context.space configMapKind spec.name]
  remembered : Remembered context booster opened steps (worldOf done).tracked

/-- **Every run** opens its context and carries out the scenario, or does not open it. -/
theorem exists_carried :
    ∃ opening ∈ openingWords settings (overrides.clientOf settings),
      (∃ failure opened, withContext settings overrides
          (fun context => scenario.run context booster project) world = .error failure opened ∧
        opened.log = world.log ++ opening) ∨
      ∃ space opened steps done removals,
        Carried settings overrides scenario booster project world
          (overrides.contextOf settings space) opened steps done removals ∧
        opened.log = world.log ++ opening := by
  obtain ⟨opening, hopening, hstart⟩ := startContext_run settings overrides world
  refine ⟨opening, hopening, ?_⟩
  rcases hstart with ⟨failure, opened, hstart, hlog⟩ | ⟨space, opened, hstart, hlog, hnew⟩
  · exact .inl ⟨failure, opened, Run.bind_of_error hstart, hlog⟩
  generalize hcontext : overrides.contextOf settings space = context at hstart
  obtain ⟨steps, hcourse⟩ := (scenario.plan context booster project).exists_course opened
  rw [Scenario.plan_run] at hcourse
  have hsteps := hcourse.log
  have hremembered := remembered_plan hnew hcourse
  have hbehind : (withContext settings overrides fun context =>
      scenario.run context booster project).behind world
        = context.teardown.behind (worldOf (scenario.run context booster project opened)) := by
    rw [Run.behind, withContext, Run.bind_of_ok hstart]
    exact Run.behind_ensuring _ _ _
  refine .inr ⟨space, opened, steps, scenario.run context booster project opened, ?_⟩
  rw [hcontext]
  rcases hremembered.only with hnone | ⟨spec, hspec, hone⟩
  · refine ⟨[], ⟨hstart, rfl, hcourse, ?_, .inl ⟨hnone, rfl⟩, hremembered⟩, hlog⟩
    rw [hbehind, context.teardown_log_of_nil hnone, List.append_nil]
    exact hsteps
  · refine ⟨_, ⟨hstart, rfl, hcourse, ?_, .inr ⟨spec, hspec, hone, rfl⟩, hremembered⟩, hlog⟩
    rw [hbehind, context.teardown_log_of_singleton hone]
    exact congrArg (· ++ _) hsteps

end Runs

/-! ## What has passed before -/

section Before

variable {scenario : Scenario} {context : Context} {booster : Booster} {project : Project}
  {opened : World} {steps : List Event} {done : EStateM.Result Failure World Unit}

/-- A build that passes has ended with status zero. -/
theorem Course.buildPlan_inv {engine : Engine} {path : Path} {goals profile : String} {a : Unit}
    {behind : World}
    (h : Course (buildPlan engine path goals profile) opened steps (.ok a behind)) :
    engine.run path goals profile opened = .ok 0 behind := by
  rcases h.bind_inv with ⟨_, _, _, hresult⟩ | ⟨status, world, _, _, hbuild, hrest, -⟩
  · cases hresult
  split at hrest
  · cases hrest.of_inv.1
  · rename_i hstatus
    cases hrest
    rw [← not_not.mp hstatus]
    exact hbuild.of_inv.1

/-- The preparation lists no pods and sends no requests. -/
theorem silent_preparePlan {kind : Event → Bool} (h : Inert kind)
    (hget : ∀ name, kind (context.client.getEvent context.space configMapKind name) = false)
    (hcreate : ∀ manifest, kind (context.client.createEvent context.space configMapKind manifest)
      = false)
    (hedit : ∀ name patch, kind (context.client.editEvent context.space configMapKind name patch)
      = false) : Silent kind (scenario.preparePlan context booster project).words := by
  rw [words_preparePlan]
  exact (h.setUpWords context booster).mul
    (silent_configMapWords context booster hget hcreate hedit)

/-- A pod that is given at the end of a wait. -/
theorem Course.awaitPlan_inv {app : String} {pod : Pod} {behind : World}
    (h : Course (scenario.awaitPlan context booster app) opened steps (.ok pod behind)) :
    ∃ before, waitFor context.client context.space app (scenario.wanted booster)
      (pollLimits context.settings (scenario.polls context.settings)) before = .ok pod behind := by
  cases scenario with
  | deployOnce =>
    refine ⟨opened, ?_⟩
    rw [← waitPlan_run]
    exact h.run_eq
  | redeploy =>
    have hbind : Course (changePlan context booster >>= fun _ => waitPlan _ _ _ _ _) opened steps
      (.ok pod behind) := h
    rcases hbind.bind_inv with ⟨_, _, _, hresult⟩ | ⟨_, before, _, _, _, hwait, -⟩
    · cases hresult
    · refine ⟨before, ?_⟩
      rw [← waitPlan_run]
      exact hwait.run_eq

/-- A host that is given once the objects of an application were found. -/
theorem Course.locatePlan_inv {app : String} {host : Json} {behind : World}
    (h : Course (locatePlan context app) opened steps (.ok host behind)) :
    ∃ before, requireApplication context.client context.space app before = .ok host behind := by
  rcases h.bind_inv with ⟨_, _, _, hresult⟩ | ⟨_, before, _, _, _, hfound, -⟩
  · cases hresult
  · refine ⟨before, ?_⟩
    rw [← applicationPlan_run]
    exact hfound.run_eq

/-- **Pods are listed** only behind a build that ended with status zero. -/
theorem listing_behind_build (h : Course (scenario.plan context booster project) opened steps done)
    (hlisted : ∃ event ∈ steps, event.listsPods = true) :
    ∃ first rest before behind, steps = first ++ rest ∧
      (∀ event ∈ first, event.listsPods = false) ∧
      context.engine.run project.path booster.goals booster.profile before = .ok 0 behind ∧
      behind.log = opened.log ++ first := by
  have hprepare : Silent Event.listsPods (scenario.preparePlan context booster project).words :=
    silent_preparePlan inert_listsPods (listsPods_getEvent _ _) (listsPods_createEvent _ _ _)
      (listsPods_editEvent _ _ _)
  have hbuild : Silent Event.listsPods
      (buildPlan context.engine project.path booster.goals booster.profile).words := by
    rw [words_buildPlan]
    exact inert_listsPods.buildWords _ _ _ _
  obtain ⟨app, before, first, rest, hpassed, hrest, rfl, hfirst, hlisted⟩ :=
    h.peel hprepare hlisted
  obtain ⟨_, behind, second, more, hbuilt, -, rfl, hsecond, -⟩ := hrest.peel hbuild hlisted
  refine ⟨first ++ second, more, before, behind, (List.append_assoc _ _ _).symm,
    List.forall_mem_append.mpr ⟨hfirst, hsecond⟩, hbuilt.buildPlan_inv, ?_⟩
  rw [← List.append_assoc, ← hpassed.log]
  exact hbuilt.log

/-- **Requests are sent** only behind a wait that ended with a pod, and once the deployment, the
service and the route of the application were found. -/
theorem request_behind_application
    (h : Course (scenario.plan context booster project) opened steps done)
    (hsent : ∃ event ∈ steps, event.isRequest = true) :
    ∃ first rest app waiting pod waited looking host behind, steps = first ++ rest ∧
      (∀ event ∈ first, event.isRequest = false) ∧
      waitFor context.client context.space app (scenario.wanted booster)
        (pollLimits context.settings (scenario.polls context.settings)) waiting = .ok pod waited ∧
      requireApplication context.client context.space app looking = .ok host behind ∧
      behind.log = opened.log ++ first := by
  have hprepare : Silent Event.isRequest (scenario.preparePlan context booster project).words :=
    silent_preparePlan inert_isRequest (isRequest_getEvent _ _ _) (isRequest_createEvent _ _ _)
      (isRequest_editEvent _ _ _)
  have hbuild : Silent Event.isRequest
      (buildPlan context.engine project.path booster.goals booster.profile).words := by
    rw [words_buildPlan]
    exact inert_isRequest.buildWords _ _ _ _
  have hawait : ∀ app, Silent Event.isRequest (scenario.awaitPlan context booster app).words := by
    intro app
    rw [words_awaitPlan]
    refine silent_awaitWords scenario context booster app (isRequest_editEvent _ _ _) ?_
      fun _ => rfl
    rw [Client.listEvent_eq]
    exact isRequest_listingEvent _ _ _ _
  have hlocate : ∀ app, Silent Event.isRequest (locatePlan context app).words := by
    intro app
    rw [words_locatePlan]
    exact silent_locateWords context app (fun _ => rfl) (fun _ _ _ => isRequest_getEvent _ _ _ _)
      (isRequest_listingEvent _ _ _ _)
  obtain ⟨app, prepared, first, _, hprepared, hdeploy, rfl, hfirst, hsent⟩ := h.peel hprepare hsent
  obtain ⟨_, built, second, _, hbuilt, hrest, rfl, hsecond, hsent⟩ := hdeploy.peel hbuild hsent
  obtain ⟨pod, waited, third, _, hwaited, hmore, rfl, hthird, hsent⟩ :=
    hrest.peel (hawait app) hsent
  obtain ⟨host, behind, fourth, more, hlocated, -, rfl, hfourth, -⟩ :=
    hmore.peel (hlocate app) hsent
  obtain ⟨waiting, hwait⟩ := hwaited.awaitPlan_inv
  obtain ⟨looking, hfound⟩ := hlocated.locatePlan_inv
  refine ⟨first ++ (second ++ (third ++ fourth)), more, app, waiting, pod, waited, looking, host,
    behind, by simp only [List.append_assoc], ?_, hwait, hfound, ?_⟩
  · simp only [List.forall_mem_append]
    exact ⟨hfirst, hsecond, hthird, hfourth⟩
  · calc behind.log = waited.log ++ fourth := hlocated.log
      _ = built.log ++ third ++ fourth := congrArg (· ++ fourth) hwaited.log
      _ = prepared.log ++ second ++ third ++ fourth :=
        congrArg (· ++ third ++ fourth) hbuilt.log
      _ = opened.log ++ first ++ second ++ third ++ fourth :=
        congrArg (· ++ second ++ third ++ fourth) hprepared.log
      _ = opened.log ++ (first ++ (second ++ (third ++ fourth))) := by
        simp only [List.append_assoc]

end Before

/-! ## The law of the trace -/

/-- The run of a scenario by its name is a run in a context of its own, on a fresh copy. -/
theorem runOnCopy_eq (settings : Settings) (booster : Booster) (scenario : Scenario)
    (template : Path) (testClass : String) (overrides : Overrides) :
    runOnCopy settings booster scenario.name template testClass overrides = do
      let project ← freshCopy template testClass scenario.name
      withContext settings overrides fun context => scenario.run context booster project
      return project := by
  cases scenario <;> rfl

/-- **The law of the trace.** Whatever the clients, scripts and files of the world are, a run logs
what opening its context takes (nothing, unless the command line has to be asked for the namespace),
then the events of its steps, and then the removal of the config map if the steps left it to be
removed, and nothing otherwise. The steps take the course of the scenario's plan: they pass one by
one until the end or until one of them raises a failure, and log a part from the start of a word of
the scenario, or the whole word if none of them raises a failure. Pods are listed only behind a
build that ended with status zero, and requests are sent only behind a wait that ended with a pod
and once deployment, service and route were found. -/
theorem scenario_trace (settings : Settings) (overrides : Overrides) (scenario : Scenario)
    (booster : Booster) (project : Project) (world : World) :
    ∃ opening ∈ openingWords settings (overrides.clientOf settings),
      -- the context is not opened
      (∃ failure opened, withContext settings overrides
          (fun context => scenario.run context booster project) world = .error failure opened ∧
        opened.log = world.log ++ opening) ∨
      -- the context is opened and the scenario is carried out
      ∃ space opened steps done removals,
        startContext settings overrides world = .ok (overrides.contextOf settings space) opened ∧
        opened.log = world.log ++ opening ∧
        scenario.run (overrides.contextOf settings space) booster project opened = done ∧
        Course (scenario.plan (overrides.contextOf settings space) booster project) opened steps
          done ∧
        (∃ word ∈ scenario.words (overrides.contextOf settings space) booster project,
          steps <+: word ∧ ∀ a finish, done = .ok a finish → steps = word) ∧
        ((withContext settings overrides fun context =>
            scenario.run context booster project).behind world).log
          = opened.log ++ steps ++ removals ∧
        -- what the steps remember is removed, and it is the config map at most
        ((worldOf done).tracked = [] ∧ removals = [] ∨ ∃ spec, booster.configMap = some spec ∧
          (worldOf done).tracked = [(configMapKind, spec.name)] ∧
          removals = [(overrides.clientOf settings).deleteEvent space configMapKind spec.name]) ∧
        ((∃ event ∈ steps, event.listsPods = true) →
          ∃ first rest before behind, steps = first ++ rest ∧
            (∀ event ∈ first, event.listsPods = false) ∧
            (overrides.contextOf settings space).engine.run project.path booster.goals
              booster.profile before = .ok 0 behind ∧
            behind.log = opened.log ++ first) ∧
        ((∃ event ∈ steps, event.isRequest = true) →
          ∃ first rest app waiting pod waited looking host behind, steps = first ++ rest ∧
            (∀ event ∈ first, event.isRequest = false) ∧
            waitFor (overrides.clientOf settings) space app (scenario.wanted booster)
              (pollLimits settings (scenario.polls settings)) waiting = .ok pod waited ∧
            requireApplication (overrides.clientOf settings) space app looking = .ok host behind ∧
            behind.log = opened.log ++ first) := by
  obtain ⟨opening, hopening, hrun⟩ :=
    exists_carried settings overrides scenario booster project world
  refine ⟨opening, hopening, hrun.imp_right ?_⟩
  rintro ⟨space, opened, steps, done, removals, hcarried, hlog⟩
  obtain ⟨word, hword, hpart, hwhole⟩ := hcarried.course.word
  refine ⟨space, opened, steps, done, removals, hcarried.start, hlog, hcarried.ends,
    hcarried.course, ⟨word, words_plan_le scenario _ booster project hword, hpart, hwhole⟩,
    hcarried.log, hcarried.removed, listing_behind_build hcarried.course,
    request_behind_application hcarried.course⟩

/-- **What is removed** of what was made. When a run makes an object, it is the config map of its
booster, by one call; and a removal of that object follows before the run ends just when the call
gave a result. A call that fails is not answered by a removal, even though the cluster may have
made the object. -/
theorem removed_iff_made (settings : Settings) (overrides : Overrides) (scenario : Scenario)
    (booster : Booster) (project : Project) (world : World) :
    ∃ opening ∈ openingWords settings (overrides.clientOf settings),
      (∃ failure opened, withContext settings overrides
          (fun context => scenario.run context booster project) world = .error failure opened ∧
        opened.log = world.log ++ opening) ∨
      ∃ space opened steps removals,
        startContext settings overrides world = .ok (overrides.contextOf settings space) opened ∧
        opened.log = world.log ++ opening ∧
        ((withContext settings overrides fun context =>
            scenario.run context booster project).behind world).log
          = opened.log ++ steps ++ removals ∧
        (∀ event ∈ removals, event.creates = false) ∧
        ∀ event ∈ steps, event.creates = true → ∃ spec data before first rest,
          booster.configMap = some spec ∧
          event = (overrides.clientOf settings).createEvent space configMapKind
            (configMapObject spec.name data) ∧
          steps = first ++ event :: rest ∧ (∀ other ∈ first ++ rest, other.creates = false) ∧
          before.log = opened.log ++ first ∧
          ((overrides.clientOf settings).deleteEvent space configMapKind spec.name
              ∈ rest ++ removals ↔
            ∃ made behind, (overrides.clientOf settings).create space configMapKind
              (configMapObject spec.name data) before = .ok made behind) := by
  obtain ⟨opening, hopening, hrun⟩ :=
    exists_carried settings overrides scenario booster project world
  refine ⟨opening, hopening, hrun.imp_right ?_⟩
  rintro ⟨space, opened, steps, done, removals, hcarried, hlog⟩
  refine ⟨space, opened, steps, removals, hcarried.start, hlog, hcarried.log, ?_, ?_⟩
  · rcases hcarried.removed with ⟨-, rfl⟩ | ⟨spec, -, -, rfl⟩
    · exact fun _ h => absurd h List.not_mem_nil
    · exact List.forall_mem_singleton.mpr (creates_deleteEvent _ _ _ _)
  intro event hevent hcreates
  obtain ⟨spec, data, before, first, rest, hspec, hcall, hsteps, hothers, hbefore, hend⟩ :=
    hcarried.remembered.made event hevent hcreates
  refine ⟨spec, data, before, first, rest, hspec, hcall, hsteps, hothers, hbefore, ?_⟩
  rcases hend with ⟨made, behind, hmade, htracked⟩ | ⟨failure, behind, hfailed, htracked⟩
  · -- the call gave a result, and what is remembered is removed
    rcases hcarried.removed with ⟨hnone, -⟩ | ⟨spec', -, hone, rfl⟩
    · rw [htracked] at hnone
      cases hnone
    · have hname : spec.name = spec'.name := by
        rw [htracked] at hone
        simpa using hone
      rw [hname]
      refine iff_of_true (List.mem_append_right _ (List.mem_singleton.mpr rfl)) ?_
      exact hname ▸ ⟨made, behind, hmade⟩
  · -- nothing is remembered, and the steps themselves remove nothing
    have hsilent := hcarried.course.silent
      ((silent_deletes_words scenario _ booster project).mono
        (words_plan_le scenario _ booster project))
    refine iff_of_false (fun hdelete => ?_) fun ⟨made, behind', hmade⟩ => ?_
    · rcases hcarried.removed with ⟨-, rfl⟩ | ⟨spec', -, hone, -⟩
      · have hmem : (overrides.clientOf settings).deleteEvent space configMapKind spec.name
            ∈ steps := by
          rw [hsteps]
          rw [List.append_nil] at hdelete
          exact List.mem_append_right _ (List.mem_cons_of_mem _ hdelete)
        have hdeletes := hsilent _ hmem
        rw [deletes_deleteEvent] at hdeletes
        cases hdeletes
      · rw [htracked] at hone
        cases hone
    · cases hmade.symm.trans hfailed

end Rollout
