import Rollout.Proofs.Scenario.Teardown
import Rollout.Proofs.Scenario.Words

/-!
# What a scenario makes

A config map is made by one call, and remembered behind it. A call that fails ends the scenario
before anything is remembered, whether the cluster has made the object or not.

- `Plan.Keeps` of the parts of a scenario: only the part before the build remembers an object.
- `Remembered`: what is remembered at the end of a course, and by which call it was made.
- `remembered_plan`: **every course** of a scenario.
-/

namespace Rollout

/-! ## What keeps the objects that are removed at the end -/

section Keeps

variable (scenario : Scenario) (context : Context) (booster : Booster) (project : Project)

theorem keeps_commandsPlan (commands : List String) : (commandsPlan context commands).Keeps := by
  induction commands with
  | nil => trivial
  | cons command rest ih => simpa [commandsPlan] using ih

theorem keeps_replacePlan (client : Client) (space name : String) (data : ConfigData) :
    (replacePlan client space name data).Keeps := by
  simp [replacePlan]

theorem keeps_ensurePlan (client : Client) (space name : String) (data : ConfigData) :
    (ensurePlan client space name data).Keeps := by
  rw [ensurePlan, Plan.keeps_of_bind]
  intro found
  cases found with
  | none => simp
  | some value => exact keeps_replacePlan _ _ _ _

theorem keeps_editsPlan : (editsPlan scenario context booster project).Keeps := by
  cases scenario <;> simp [editsPlan]

theorem keeps_buildPlan (engine : Engine) (path : Path) (goals profile : String) :
    (buildPlan engine path goals profile).Keeps := by
  simp [buildPlan]

theorem keeps_changePlan : (changePlan context booster).Keeps := by
  unfold changePlan
  cases booster.configMap with
  | none => trivial
  | some spec => exact (Plan.keeps_of_bind _ _ _ _).mpr fun _ => keeps_replacePlan _ _ _ _

theorem keeps_waitPlan (client : Client) (space app : String) (wanted : Wanted)
    (limits : PollLimits) : (waitPlan client space app wanted limits).Keeps := by
  simp [waitPlan]

theorem keeps_awaitPlan (app : String) : (scenario.awaitPlan context booster app).Keeps := by
  cases scenario with
  | deployOnce => exact keeps_waitPlan _ _ _ _ _
  | redeploy =>
    exact Plan.keeps_bind (keeps_changePlan context booster) fun _ => keeps_waitPlan _ _ _ _ _

theorem keeps_locatePlan (app : String) : (locatePlan context app).Keeps := by
  simp [locatePlan, applicationPlan]

theorem keeps_checkPlan (host : String) (redeployed : Bool) :
    (checkPlan context booster host redeployed).Keeps := by
  unfold checkPlan
  split <;> simp [routePlan, greetingPlan, crudPlan, healthPlan]

theorem keeps_verifyPlan (host : Json) : (scenario.verifyPlan context booster host).Keeps := by
  refine Plan.keeps_bind (keeps_checkPlan context booster _ _) fun _ => ?_
  cases scenario <;> simp [annotatedPlan]

theorem keeps_deployPlan (app : String) :
    (scenario.deployPlan context booster project app).Keeps :=
  Plan.keeps_bind (keeps_buildPlan _ _ _ _) fun _ =>
    Plan.keeps_bind (keeps_awaitPlan scenario context booster app) fun _ =>
      Plan.keeps_bind (keeps_locatePlan context app) fun host =>
        keeps_verifyPlan scenario context booster host

end Keeps

/-! ## What is remembered -/

/-- What is remembered at the end of a course, and by which call it was made. -/
structure Remembered (context : Context) (booster : Booster) (start : World) (events : List Event)
    (tracked : List (String × String)) : Prop where
  /-- Nothing is remembered but the config map. -/
  only : tracked = [] ∨ ∃ spec, booster.configMap = some spec ∧
    tracked = [(configMapKind, spec.name)]
  /-- What is made is the config map, by one call, and it is remembered when the call gives a
  result. -/
  made : ∀ event ∈ events, event.creates = true → ∃ spec data before first rest,
    booster.configMap = some spec ∧
    event = context.client.createEvent context.space configMapKind
      (configMapObject spec.name data) ∧
    events = first ++ event :: rest ∧ (∀ other ∈ first ++ rest, other.creates = false) ∧
    before.log = start.log ++ first ∧
    ((∃ made behind, context.client.create context.space configMapKind
        (configMapObject spec.name data) before = .ok made behind ∧
        tracked = [(configMapKind, spec.name)]) ∨
      ∃ failure behind, context.client.create context.space configMapKind
        (configMapObject spec.name data) before = .error failure behind ∧ tracked = [])

section Remembered

variable {context : Context} {booster : Booster} {start mid : World} {events more : List Event}
  {tracked : List (String × String)}

/-- Where nothing was made and nothing was remembered before. -/
theorem remembered_of_silent (hsilent : ∀ event ∈ events, event.creates = false)
    (hnew : tracked = []) : Remembered context booster start events tracked := by
  refine ⟨.inl hnew, fun event hevent hcreates => ?_⟩
  rw [hsilent event hevent] at hcreates
  cases hcreates

/-- What comes before the call. -/
theorem Remembered.before (hsilent : ∀ event ∈ more, event.creates = false)
    (hlog : mid.log = start.log ++ more) (h : Remembered context booster mid events tracked) :
    Remembered context booster start (more ++ events) tracked := by
  refine ⟨h.only, fun event hevent hcreates => ?_⟩
  rcases List.mem_append.mp hevent with hmem | hmem
  · rw [hsilent event hmem] at hcreates
    cases hcreates
  · obtain ⟨spec, data, before, first, rest, hspec, hcall, hevents, hothers, hbefore, hend⟩ :=
      h.made event hmem hcreates
    refine ⟨spec, data, before, more ++ first, rest, hspec, hcall, ?_, ?_, ?_, hend⟩
    · rw [hevents, List.append_assoc]
    · rw [List.append_assoc]
      exact List.forall_mem_append.mpr ⟨hsilent, hothers⟩
    · rw [hbefore, hlog, List.append_assoc]

/-- What comes behind the call. -/
theorem Remembered.behind (h : Remembered context booster start events tracked)
    (hsilent : ∀ event ∈ more, event.creates = false) :
    Remembered context booster start (events ++ more) tracked := by
  refine ⟨h.only, fun event hevent hcreates => ?_⟩
  rcases List.mem_append.mp hevent with hmem | hmem
  · obtain ⟨spec, data, before, first, rest, hspec, hcall, hevents, hothers, hbefore, hend⟩ :=
      h.made event hmem hcreates
    refine ⟨spec, data, before, first, rest ++ more, hspec, hcall, ?_, ?_, hbefore, hend⟩
    · rw [hevents, List.append_assoc, List.cons_append]
    · rw [← List.append_assoc]
      exact List.forall_mem_append.mpr ⟨hothers, hsilent⟩
  · rw [hsilent event hmem] at hcreates
    cases hcreates

section Bind

variable {α β : Type} {plan : Plan α} {f : α → Plan β} {result : EStateM.Result Failure World β}

/-- Behind a plan, others that make nothing and keep what is remembered. -/
theorem remembered_bind_of_first (h : Course (plan >>= f) start events result)
    (hfirst : ∀ {events result}, Course plan start events result →
      Remembered context booster start events (worldOf result).tracked)
    (hsilent : ∀ a, Silent Event.creates (f a).words) (hkeeps : ∀ a, (f a).Keeps) :
    Remembered context booster start events (worldOf result).tracked := by
  rcases h.bind_inv with ⟨failure, world, hplan, rfl⟩ | ⟨a, world, first, rest, hplan, hrest, rfl⟩
  · exact hfirst hplan
  · rw [hrest.tracked (hkeeps a)]
    exact (hfirst hplan).behind (hrest.silent (hsilent a))

/-- Before a plan, others that make nothing and keep what is remembered. -/
theorem remembered_bind_of_rest (h : Course (plan >>= f) start events result)
    (hnew : start.tracked = []) (hsilent : Silent Event.creates plan.words) (hkeeps : plan.Keeps)
    (hrest : ∀ a {mid events result}, mid.tracked = [] → Course (f a) mid events result →
      Remembered context booster mid events (worldOf result).tracked) :
    Remembered context booster start events (worldOf result).tracked := by
  rcases h.bind_inv with ⟨failure, world, hplan, rfl⟩ | ⟨a, world, first, rest, hplan, hmore, rfl⟩
  · exact remembered_of_silent (hplan.silent hsilent) ((hplan.tracked hkeeps).trans hnew)
  · exact (hrest a ((hplan.tracked hkeeps).trans hnew) hmore).before (hplan.silent hsilent)
      hplan.log

end Bind

/-- The course of remembering. -/
theorem Course.trackPlan_inv {kind name : String} {result : EStateM.Result Failure World Unit}
    (h : Course (trackPlan kind name) start events result) :
    events = [] ∧ (worldOf result).tracked = remembering kind name start.tracked := by
  rcases h with _ | ⟨hrun, hlog, hword, hrest⟩ | ⟨hrun, hlog, hword⟩
  · obtain rfl := (Language.mem_one _).mp hword
    cases hrest
    cases hrun.symm.trans (track_run kind name start)
    exact ⟨rfl, rfl⟩
  · cases hrun.symm.trans (track_run kind name start)

/-- A config map is looked for, and made by one call if it is not there. -/
theorem Course.ensurePlan_inv {client : Client} {space name : String} {data : ConfigData}
    {result : EStateM.Result Failure World Unit}
    (h : Course (ensurePlan client space name data) start events result) :
    (∀ event ∈ events, event.creates = false) ∨
    ∃ before, before.log = start.log ++ [client.getEvent space configMapKind name] ∧
      events = [client.getEvent space configMapKind name,
        client.createEvent space configMapKind (configMapObject name data)] ∧
      ((∃ made behind, client.create space configMapKind (configMapObject name data) before
          = .ok made behind ∧ result = .ok () behind) ∨
        ∃ failure behind, client.create space configMapKind (configMapObject name data) before
          = .error failure behind ∧ result = .error failure behind) := by
  have hsilentGet : Silent Event.creates
      (Plan.of _ _ (client.logs_get space configMapKind name)).words := by
    rw [Plan.words_of]
    exact silent_event (creates_getEvent _ _ _ _)
  rcases h.bind_inv with
    ⟨failure, world, hget, rfl⟩ | ⟨found, before, first, rest, hget, hrest, rfl⟩
  · exact .inl (hget.silent hsilentGet)
  obtain rfl : first = [_] := hget.of_inv.2
  cases found with
  | none =>
    refine .inr ⟨before, hget.log, ?_⟩
    rcases hrest.bind_inv with
      ⟨failure, behind, hcreate, rfl⟩ | ⟨made, behind, _, _, hcreate, hend, rfl⟩
    · obtain rfl : rest = [_] := hcreate.of_inv.2
      exact ⟨rfl, .inr ⟨failure, behind, hcreate.of_inv.1, rfl⟩⟩
    · obtain rfl : _ = [_] := hcreate.of_inv.2
      cases hend
      exact ⟨rfl, .inl ⟨made, behind, hcreate.of_inv.1, rfl⟩⟩
  | some value =>
    have hedit : Silent Event.creates (replacePlan client space name data).words := by
      rw [words_replacePlan]
      exact silent_event (creates_editEvent _ _ _ _ _)
    exact .inl (List.forall_mem_append.mpr ⟨hget.silent hsilentGet, hrest.silent hedit⟩)

/-- One call that makes a config map. -/
theorem remembered_of_call {spec : ConfigMap} {data : ConfigData} {before : World}
    (hspec : booster.configMap = some spec)
    (hlog : before.log
      = start.log ++ [context.client.getEvent context.space configMapKind spec.name])
    (hcall : (∃ made behind, context.client.create context.space configMapKind
        (configMapObject spec.name data) before = .ok made behind ∧
        tracked = [(configMapKind, spec.name)]) ∨
      ∃ failure behind, context.client.create context.space configMapKind
        (configMapObject spec.name data) before = .error failure behind ∧ tracked = []) :
    Remembered context booster start
      [context.client.getEvent context.space configMapKind spec.name,
        context.client.createEvent context.space configMapKind (configMapObject spec.name data)]
      tracked := by
  refine ⟨?_, fun event hevent hcreates => ?_⟩
  · rcases hcall with ⟨_, _, _, htracked⟩ | ⟨_, _, _, htracked⟩
    · exact .inr ⟨spec, hspec, htracked⟩
    · exact .inl htracked
  · have hothers :
        (context.client.getEvent context.space configMapKind spec.name).creates = false :=
      creates_getEvent _ _ _ _
    rcases List.mem_pair.mp hevent with rfl | rfl
    · rw [hothers] at hcreates
      cases hcreates
    · exact ⟨spec, data, before, [_], [], hspec, rfl, rfl, List.forall_mem_singleton.mpr hothers,
        hlog, hcall⟩

/-- A config map made or patched, and remembered. -/
theorem remembered_ensurePlan {spec : ConfigMap} {data : ConfigData}
    {result : EStateM.Result Failure World Unit} (hspec : booster.configMap = some spec)
    (hnew : start.tracked = [])
    (h : Course (do
      ensurePlan context.client context.space spec.name data
      trackPlan configMapKind spec.name) start events result) :
    Remembered context booster start events (worldOf result).tracked := by
  have hkeeps := keeps_ensurePlan context.client context.space spec.name data
  rcases h.bind_inv with
    ⟨failure, world, hensure, rfl⟩ | ⟨_, world, first, rest, hensure, htrack, rfl⟩
  · have htracked := (hensure.tracked hkeeps).trans hnew
    rcases hensure.ensurePlan_inv with hsilent | ⟨before, hlog, rfl, hcall⟩
    · exact remembered_of_silent hsilent htracked
    · refine remembered_of_call hspec hlog (.inr ?_)
      rcases hcall with ⟨_, _, _, hresult⟩ | ⟨failure', behind, hcall, -⟩
      · cases hresult
      · exact ⟨failure', behind, hcall, htracked⟩
  · obtain ⟨rfl, htracked⟩ := htrack.trackPlan_inv
    replace htracked : (worldOf result).tracked = [(configMapKind, spec.name)] := by
      rw [htracked, show world.tracked = [] from (hensure.tracked hkeeps).trans hnew]
      rfl
    rw [List.append_nil]
    rcases hensure.ensurePlan_inv with hsilent | ⟨before, hlog, rfl, hcall⟩
    · refine ⟨.inr ⟨spec, hspec, htracked⟩, fun event hevent hcreates => ?_⟩
      rw [hsilent event hevent] at hcreates
      cases hcreates
    · refine remembered_of_call hspec hlog (.inl ?_)
      rcases hcall with ⟨made, behind, hcall, -⟩ | ⟨_, _, _, hresult⟩
      · exact ⟨made, behind, hcall, htracked⟩
      · cases hresult

/-- What a booster needs in the cluster. -/
theorem remembered_setUpPlan {result : EStateM.Result Failure World Unit}
    (hnew : start.tracked = []) (h : Course (setUpPlan context booster) start events result) :
    Remembered context booster start events (worldOf result).tracked := by
  refine remembered_bind_of_rest h hnew ?_ (keeps_commandsPlan context _)
    fun _ {_ _ _} hmid hrest => ?_
  · rw [words_commandsPlan]
    exact inert_creates.setUpWords context booster
  cases hspec : booster.configMap with
  | none =>
    rw [hspec] at hrest
    cases hrest
    exact remembered_of_silent (fun _ hevent => absurd hevent List.not_mem_nil) hmid
  | some spec =>
    rw [hspec] at hrest
    exact remembered_bind_of_rest hrest hmid (silent_of silent_one) (Plan.keeps_of _ _ _)
      fun _ {_ _ _} hdata => remembered_ensurePlan hspec hdata

/-- **Every course** of a scenario remembers no more than its config map, which it has made by one
call at most. -/
theorem remembered_plan {scenario : Scenario} {project : Project}
    {result : EStateM.Result Failure World Unit} (hnew : start.tracked = [])
    (h : Course (scenario.plan context booster project) start events result) :
    Remembered context booster start events (worldOf result).tracked := by
  refine remembered_bind_of_first h (fun {_ _} hprepare => ?_) (fun app => ?_) fun app => ?_
  · refine remembered_bind_of_rest hprepare hnew (silent_of silent_one) (Plan.keeps_of _ _ _)
      fun app {_ _ _} hmid hrest => ?_
    refine remembered_bind_of_first hrest (fun {_ _} => remembered_setUpPlan hmid) (fun _ => ?_)
      fun _ => ?_
    · rw [Plan.words_bind_of_const _ fun _ => Plan.words_pure app, words_editsPlan, mul_one]
      exact silent_one
    · exact Plan.keeps_bind (keeps_editsPlan scenario context booster project) fun _ => trivial
  · exact (silent_creates_deployWords scenario context booster project app).mono
      (words_deployPlan_le scenario context booster project app)
  · exact keeps_deployPlan scenario context booster project app

end Remembered

end Rollout
