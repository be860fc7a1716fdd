import Rollout.Proofs.Scenario.Steps

/-!
# Plans of scenarios

A scenario is laid out as a plan whose steps are its single dealings with the outside world. What
only reads or edits files logs nothing and is a step as well.

- `Scenario.preparePlan`, `Scenario.deployPlan`: what comes before the build, and from the build on.
- `buildPlan`, `Scenario.awaitPlan`, `locatePlan`, `Scenario.verifyPlan`: the parts of a deployment.
- `Scenario.plan_run`: **the plan** of a scenario lays out the scenario.
-/

namespace Rollout

open Run (logs_pure logs_throw logs_modify logs_onDisk logs_ofExcept logs_sleep logs_get_bind)

instance : Nonempty Pod := ⟨⟨.null, false, [], .null⟩⟩

instance : Nonempty Response := ⟨⟨0, ""⟩⟩

/-! ## Before a build -/

/-- Commands run one after the other. -/
def commandsPlan (context : Context) : List String → Plan Unit
  | [] => pure ()
  | command :: rest => do
    let _ ← Plan.of _ _ (context.logs_runCommand (inNamespace command context.space))
    commandsPlan context rest

theorem commandsPlan_run (context : Context) (commands : List String) :
    (commandsPlan context commands).run = runCommands context commands := by
  induction commands with
  | nil => rfl
  | cons command rest ih =>
    rw [commandsPlan, runCommands, Plan.run_bind, Plan.run_of]
    simp only [ih]

/-- What is remembered once an object is tracked. -/
def remembering (kind name : String) (tracked : List (String × String)) : List (String × String) :=
  if tracked.contains (kind, name) then tracked else tracked ++ [(kind, name)]

theorem track_run (kind name : String) (world : World) :
    Context.track kind name world
      = .ok () { world with tracked := remembering kind name world.tracked } := by
  show EStateM.Result.ok () (if world.tracked.contains (kind, name) then world else _) = _
  unfold remembering
  split <;> rfl

/-- An object remembered to be removed at the end of the run. -/
def trackPlan (kind name : String) : Plan Unit :=
  .step
    { given := ⟨()⟩
      run := Context.track kind name
      words := 1
      remembers := remembering kind name
      logs := fun world => by
        rw [Run.behind_of_ok (track_run kind name world)]
        exact ⟨rfl, [], Language.nil_mem_one, (List.append_nil _).symm⟩ } .give

theorem trackPlan_run (kind name : String) : (trackPlan kind name).run = Context.track kind name :=
  bind_pure _

/-- The data of a config map, which may be that of a file. -/
def dataOf (spec : ConfigMap) (redeployed : Bool) : Run ConfigData := do
  Run.ofExcept (spec.data (← get).disk.files redeployed)

theorem logs_dataOf (spec : ConfigMap) (redeployed : Bool) : (dataOf spec redeployed).Logs 1 :=
  logs_get_bind fun _ => logs_ofExcept _

/-- The data of an existing config map patched. -/
def replacePlan (client : Client) (space name : String) (data : ConfigData) : Plan Unit := do
  let _ ← Plan.of _ _
    (client.logs_edit space configMapKind name (.obj [("data", ConfigData.toJson data)]))

theorem replacePlan_run (client : Client) (space name : String) (data : ConfigData) :
    (replacePlan client space name data).run = replaceConfigMap client space name data := by
  rw [replacePlan, replaceConfigMap, Plan.run_bind, Plan.run_of]
  rfl

/-- A config map made, or patched when it exists. -/
def ensurePlan (client : Client) (space name : String) (data : ConfigData) : Plan Unit := do
  match ← Plan.of _ _ (client.logs_get space configMapKind name) with
  | none =>
    let _ ← Plan.of _ _ (client.logs_create space configMapKind (configMapObject name data))
  | some _ => replacePlan client space name data

theorem ensurePlan_run (client : Client) (space name : String) (data : ConfigData) :
    (ensurePlan client space name data).run = ensureConfigMap client space name data := by
  rw [ensurePlan, ensureConfigMap, Plan.run_bind, Plan.run_of]
  congr 1
  funext found
  cases found with
  | none =>
    dsimp only
    rw [Plan.run_bind, Plan.run_of]
    rfl
  | some value => exact replacePlan_run client space name data

/-- What a booster needs in the cluster before it is deployed. -/
def setUpPlan (context : Context) (booster : Booster) : Plan Unit := do
  let viewing := if booster.viewRole then [viewRoleCommand] else []
  commandsPlan context (viewing ++ booster.setupCommands)
  match booster.configMap with
  | none => pure ()
  | some spec =>
    let data ← Plan.of _ _ (logs_dataOf spec false)
    ensurePlan context.client context.space spec.name data
    trackPlan configMapKind spec.name

theorem setUpPlan_run (context : Context) (booster : Booster) :
    (setUpPlan context booster).run = setUpCluster context booster := by
  unfold setUpPlan setUpCluster
  cases booster.configMap with
  | none => simp only [Plan.run_bind, commandsPlan_run, Plan.run_pure]
  | some spec =>
    simp only [Plan.run_bind, commandsPlan_run, Plan.run_of, ensurePlan_run, trackPlan_run, dataOf,
      bind_assoc]

/-- The file edits of a scenario: a redeployment adds a dependency and carries the booster's
annotation. -/
def editsPlan (scenario : Scenario) (context : Context) (booster : Booster) (project : Project) :
    Plan Unit :=
  match scenario with
  | .deployOnce => Plan.of _ _ (logs_onDisk (Pom.configureFile project.pom firstStamp.key
      firstStamp.value context.settings.template))
  | .redeploy => do
    let (group, artifact, version) := redeployDependency
    Plan.of _ _ (logs_onDisk (Pom.addDependencyFile project.pom group artifact version))
    Plan.of _ _ (logs_onDisk (Pom.configureFile project.pom booster.stamp.key booster.stamp.value
      context.settings.template))

/-- All that comes before the build: the name of the application. -/
def Scenario.preparePlan (scenario : Scenario) (context : Context) (booster : Booster)
    (project : Project) : Plan String := do
  let app ← Plan.of _ _ (logs_onDisk (Pom.artifactIn project.pom))
  setUpPlan context booster
  editsPlan scenario context booster project
  return app

/-! ## From the build to a pod -/

/-- A build, which fails unless its status is zero. -/
def buildPlan (engine : Engine) (project : Path) (goals profile : String) : Plan Unit := do
  let status ← Plan.of _ _ (engine.logs_run project goals profile)
  if status ≠ 0 then Plan.of _ _ (logs_throw (.buildFailed project.text status)) else pure ()

theorem buildPlan_run (engine : Engine) (project : Path) (goals profile : String) :
    (buildPlan engine project goals profile).run = buildProject engine project goals profile := by
  simp only [buildPlan, buildProject, Plan.run_bind, Plan.run_of, Plan.run_ite, Plan.run_pure]

/-- The config map of a booster changed for a redeployment. -/
def changePlan (context : Context) (booster : Booster) : Plan Unit :=
  match booster.configMap with
  | none => pure ()
  | some spec => do
    let data ← Plan.of _ _ (logs_dataOf spec true)
    replacePlan context.client context.space spec.name data

theorem changePlan_run (context : Context) (booster : Booster) :
    (changePlan context booster).run = changeConfigMap context booster := by
  unfold changePlan changeConfigMap
  cases booster.configMap with
  | none => rfl
  | some spec => simp only [Plan.run_bind, Plan.run_of, replacePlan_run, dataOf, bind_assoc]

theorem logs_isCancelled : Run.isCancelled.Logs 1 :=
  Run.logs_get.bind fun _ => logs_pure _

/-- The listings of a wait: the pod they end with. -/
def searchedPod (client : Client) (space app : String) (wanted : Wanted) (limits : PollLimits) :
    Run Pod := do
  let found ←
    Run.retry (matchingPod client space app (examine wanted)) Option.isSome Run.isCancelled
      (Run.sleep limits.interval) (Run.repeats limits.maxPolls)
  match found with
  | some pod => return pod
  | none => if ← Run.isCancelled then throw (.pollCancelled app) else throw (.notReady app)

theorem logs_searchedPod (client : Client) (space app : String) (wanted : Wanted)
    (limits : PollLimits) :
    (searchedPod client space app wanted limits).Logs
      (repeated (client.listEvent space app) limits.interval (Run.repeats limits.maxPolls)) := by
  refine (logs_retry (client.logs_matchingPod space app _) logs_isCancelled _).bind fun found => ?_
  cases found with
  | some pod => exact logs_pure pod
  | none =>
    refine logs_isCancelled.bind fun cancelled => ?_
    split <;> exact logs_throw _

/-- A wait for a pod, with a pause to settle once it was found. -/
def waitPlan (client : Client) (space app : String) (wanted : Wanted) (limits : PollLimits) :
    Plan Pod := do
  let pod ← Plan.of _ _ (logs_searchedPod client space app wanted limits)
  Plan.of _ _ (logs_sleep limits.settle)
  return pod

theorem waitPlan_run (client : Client) (space app : String) (wanted : Wanted)
    (limits : PollLimits) :
    (waitPlan client space app wanted limits).run = waitFor client space app wanted limits := by
  simp only [waitFor_eq, waitPlan, searchedPod, pollPods, Plan.run_bind, Plan.run_of, Plan.run_pure,
    bind_assoc]
  congr 1
  funext found
  cases found with
  | some pod => rfl
  | none =>
    dsimp only
    rw [bind_assoc]
    congr 1
    funext cancelled
    cases cancelled <;> rfl

/-- What a scenario waits for: a redeployment for its annotation. -/
def Scenario.wanted (booster : Booster) : Scenario → Wanted
  | .deployOnce => none
  | .redeploy => some (booster.stamp.key, booster.stamp.value)

/-- How often a scenario lists pods. -/
def Scenario.polls (settings : Settings) : Scenario → Int
  | .deployOnce => settings.initialPolls
  | .redeploy => settings.redeployPolls

/-- All from behind the build up to a pod. -/
def Scenario.awaitPlan (scenario : Scenario) (context : Context) (booster : Booster)
    (app : String) : Plan Pod := do
  match scenario with
  | .deployOnce => pure ()
  | .redeploy => changePlan context booster
  waitPlan context.client context.space app (scenario.wanted booster)
    (pollLimits context.settings (scenario.polls context.settings))

/-! ## What was deployed -/

/-- The host that the route of an application exposes. -/
def exposedHost (client : Client) (space app : String) : Run Json := do
  let route ← routeNamed client space app
  match ← Run.ofExcept (hostOfRoute route) with
  | some host => return host
  | none => throw (.noRoute app)

theorem logs_exposedHost (client : Client) (space app : String) :
    (exposedHost client space app).Logs {[client.listingEvent space routeKind none]} := by
  refine (client.logs_routeNamed space app).bind fun route => (logs_ofExcept _).bind fun host => ?_
  cases host with
  | none => exact logs_throw _
  | some value => exact logs_pure _

/-- The host of an application whose deployment, service and route exist. -/
def applicationPlan (client : Client) (space app : String) : Plan Json := do
  Plan.of _ _ (client.logs_requireObject space deploymentKind app)
  Plan.of _ _ (client.logs_requireObject space serviceKind app)
  Plan.of _ _ (logs_exposedHost client space app)

theorem applicationPlan_run (client : Client) (space app : String) :
    (applicationPlan client space app).run = requireApplication client space app := by
  simp only [applicationPlan, Plan.run_bind, Plan.run_of]
  rfl

/-! ## Checks -/

theorem logs_requireStatus (response : Response) (expected : Int) (what : String) :
    (requireStatus response expected what).Logs 1 := by
  unfold requireStatus
  split
  · exact logs_pure _
  · exact logs_throw _

theorem logs_requireField (response : Response) (name expected : String) :
    (requireField response name expected).Logs 1 := by
  refine (logs_ofExcept _).bind fun value => ?_
  unfold requireText
  split
  · exact logs_pure _
  · exact logs_throw _

theorem logs_askUntilOk (context : Context) (url : String) (attempts : Int) (pause : Binary64) :
    (askUntilOk context url attempts pause).Logs
      (repeated (context.pageEvent url) pause (Run.repeats attempts)) :=
  logs_retry (context.logs_page url) (logs_pure false) _

/-- The check of a greeting. -/
def greetingPlan (context : Context) (greeting : Greeting) (host : String) (redeployed : Bool) :
    Plan Unit := do
  let response ← Plan.of _ _
    (logs_askUntilOk context (pageUrl host greeting.path) context.settings.probeAttempts
      context.settings.probeRetry)
  Plan.of _ _ (logs_requireStatus response statusOk greeting.path)
  Plan.of _ _ (logs_requireField response greeting.field (greeting.greetingAfter redeployed))

/-- The check of a route. -/
def routePlan (context : Context) (name host : String) : Plan Unit := do
  let response ← Plan.of _ _ (context.logs_page (pageUrl host ""))
  Plan.of _ _ (logs_requireStatus response statusOk s!"route of {name}")

/-- The check of a record. -/
def crudPlan (context : Context) (crud : Crud) (host : String) : Plan Unit := do
  let url := pageUrl host crud.path
  let record := Json.obj [("name", .str crud.name)]
  let created ← Plan.of _ _ (context.logs_post url record.render)
  Plan.of _ _ (logs_requireStatus created statusCreated s!"POST {crud.path}")
  let id ← Plan.of _ _ (logs_ofExcept (created.member "id"))
  let read ← Plan.of _ _ (context.logs_page (url ++ "/" ++ id.display))
  Plan.of _ _ (logs_requireStatus read statusOk s!"GET {crud.path}/{id.display}")
  Plan.of _ _ (logs_requireField read "name" crud.name)

/-- The check of an application that is stopped and has to come back. -/
def healthPlan (context : Context) (greeting : Greeting) (host : String) (redeployed : Bool) :
    Plan Unit := do
  let livenessUrl := pageUrl host livenessPath
  let greetingUrl := pageUrl host greeting.path
  let alive ← Plan.of _ _ (context.logs_page livenessUrl)
  Plan.of _ _ (logs_requireField alive "outcome" "UP")
  let greeted ← Plan.of _ _ (context.logs_page greetingUrl)
  Plan.of _ _ (logs_requireField greeted greeting.field (greeting.greetingAfter redeployed))
  let stop ← Plan.of _ _ (context.logs_page (pageUrl host stopPath))
  Plan.of _ _ (logs_requireStatus stop statusOk stopPath)
  let stopped ← Plan.of _ _ (context.logs_page livenessUrl)
  if stopped.status = statusOk then Plan.of _ _ (logs_throw .stillAlive)
  Plan.of _ _ (logs_requireField stopped "outcome" "DOWN")
  let recovered ← Plan.of _ _
    (logs_askUntilOk context greetingUrl context.settings.recovery recoveryPause)
  if recovered.status ≠ statusOk then Plan.of _ _ (logs_throw .notRecovered)

/-- The check of a booster. -/
def checkPlan (context : Context) (booster : Booster) (host : String) (redeployed : Bool) :
    Plan Unit :=
  match booster.check, booster.greeting, booster.crud with
  | .route, _, _ => routePlan context booster.name host
  | .greeting, some greeting, _ => greetingPlan context greeting host redeployed
  | .crud, _, some crud => crudPlan context crud host
  | .health, some greeting, _ => healthPlan context greeting host redeployed
  | _, _, _ => Plan.of _ _ (logs_throw .noMembers)

theorem healthPlan_run (context : Context) (greeting : Greeting) (host : String)
    (redeployed : Bool) :
    (healthPlan context greeting host redeployed).run
      = checkHealth context greeting host redeployed := by
  simp only [healthPlan, checkHealth, Plan.run_bind, Plan.run_of, Plan.run_ite, Plan.run_pure]

theorem checkPlan_run (context : Context) (booster : Booster) (host : String)
    (redeployed : Bool) :
    (checkPlan context booster host redeployed).run
      = checkApplication context booster host redeployed := by
  unfold checkPlan checkApplication
  cases booster.check with
  | route => simp only [routePlan, checkRoute, Plan.run_bind, Plan.run_of]
  | greeting =>
    cases booster.greeting with
    | none => exact Plan.run_of _ _ _
    | some greeting => simp only [greetingPlan, checkGreeting, Plan.run_bind, Plan.run_of]
  | crud =>
    cases booster.crud with
    | none => exact Plan.run_of _ _ _
    | some crud => simp only [crudPlan, checkCrud, Plan.run_bind, Plan.run_of]
  | health =>
    cases booster.greeting with
    | none => exact Plan.run_of _ _ _
    | some greeting => exact healthPlan_run context greeting host redeployed

/-! ## Whole scenarios -/

/-- Whether the application was deployed before. -/
def Scenario.again : Scenario → Bool
  | .deployOnce => false
  | .redeploy => true

/-- A redeployment has to leave its annotation on a deployment, when that matters. -/
def annotatedPlan (context : Context) (booster : Booster) : Plan Unit := do
  if booster.checkStamp then
    let names ← Plan.of _ _
      (context.client.logs_annotatedDeployments context.space booster.stamp.key)
    if names.isEmpty then Plan.of _ _ (logs_throw (.noAnnotatedDeployment booster.stamp.key))

theorem annotatedPlan_run (context : Context) (booster : Booster) :
    (annotatedPlan context booster).run = checkAnnotated context booster := by
  simp only [annotatedPlan, checkAnnotated, Plan.run_bind, Plan.run_of, Plan.run_ite, Plan.run_pure]

/-- All from behind a pod to the host of the application. -/
def locatePlan (context : Context) (app : String) : Plan Json := do
  Plan.of _ _ (logs_sleep context.settings.postDeploy)
  applicationPlan context.client context.space app

/-- All that is asked of the application and its deployment. -/
def Scenario.verifyPlan (scenario : Scenario) (context : Context) (booster : Booster)
    (host : Json) : Plan Unit := do
  checkPlan context booster host.display scenario.again
  match scenario with
  | .deployOnce => pure ()
  | .redeploy => annotatedPlan context booster

/-- All from the build on. -/
def Scenario.deployPlan (scenario : Scenario) (context : Context) (booster : Booster)
    (project : Project) (app : String) : Plan Unit := do
  buildPlan context.engine project.path booster.goals booster.profile
  let _ ← scenario.awaitPlan context booster app
  let host ← locatePlan context app
  scenario.verifyPlan context booster host

/-- All steps of a scenario. -/
def Scenario.plan (scenario : Scenario) (context : Context) (booster : Booster)
    (project : Project) : Plan Unit := do
  let app ← scenario.preparePlan context booster project
  scenario.deployPlan context booster project app

/-- **The plan** of a scenario lays out the scenario. -/
theorem Scenario.plan_run (scenario : Scenario) (context : Context) (booster : Booster)
    (project : Project) :
    (scenario.plan context booster project).run = scenario.run context booster project := by
  cases scenario with
  | deployOnce =>
    simp only [Scenario.plan, deployPlan, preparePlan, editsPlan, awaitPlan, locatePlan, verifyPlan,
      Plan.run_bind, Plan.run_of, Plan.run_pure, setUpPlan_run, buildPlan_run, waitPlan_run,
      applicationPlan_run, checkPlan_run, bind_assoc, pure_bind, bind_pure_unit,
      Scenario.run, firstDeployment, annotate, verify, wanted, waitFor, polls, again]
  | redeploy =>
    simp only [Scenario.plan, deployPlan, preparePlan, editsPlan, awaitPlan, locatePlan, verifyPlan,
      Plan.run_bind, Plan.run_of, Plan.run_pure, setUpPlan_run, buildPlan_run, changePlan_run,
      waitPlan_run, applicationPlan_run, checkPlan_run, annotatedPlan_run, bind_assoc, pure_bind,
      Scenario.run, redeployment, annotate, verify, wanted, waitFor, polls, again]

end Rollout
