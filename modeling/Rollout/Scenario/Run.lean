import Rollout.Scenario.Steps
import Rollout.Settings.Catalog

/-!
# Scenarios

- `Scenario.run`: the steps of a scenario, on a copy of a template.
- `pinnedTemplate`: a template with the version of the deployment plugin pinned.
- `runOnCopy`: a scenario on a fresh copy of a template.
- `runInTurn`: scenarios one after the other.
-/

namespace Rollout

/-- The scenarios. -/
inductive Scenario
  | deployOnce
  | redeploy
  deriving DecidableEq, Repr

namespace Scenario

/-- The name of a scenario. -/
def name : Scenario → String
  | .deployOnce => "deploy-once"
  | .redeploy => "redeploy"

/-- All scenarios. -/
def all : List Scenario := [.deployOnce, .redeploy]

/-- The names of all scenarios. -/
def names : List String := all.map name

/-- The scenario of a name. -/
def ofName? (text : String) : Option Scenario :=
  all.find? fun scenario => scenario.name == text

end Scenario

/-! ## Steps in order -/

/-- The annotation of a first deployment. -/
def firstStamp : Stamp := ⟨"deploymentType", "deployOnce"⟩

/-- The group, artifact and version of the dependency that a redeployment adds. -/
def redeployDependency : String × String × String :=
  ("org.apache.commons", "commons-lang3", "3.5")

/-- A first deployment: a pod that is ready is waited for. -/
def firstDeployment (context : Context) (booster : Booster) (project : Project) : Run Unit := do
  let app ← Run.onDisk (Pom.artifactIn project.pom)
  setUpCluster context booster
  annotate context project firstStamp
  buildProject context.engine project.path booster.goals booster.profile
  let _ ←
    waitForReadyPod context.client context.space app
      (pollLimits context.settings context.settings.initialPolls)
  verify context booster app false

/-- A redeployment: the build is changed, and a pod with the new annotation is waited for. -/
def redeployment (context : Context) (booster : Booster) (project : Project) : Run Unit := do
  let app ← Run.onDisk (Pom.artifactIn project.pom)
  setUpCluster context booster
  let (group, artifact, version) := redeployDependency
  Run.onDisk (Pom.addDependencyFile project.pom group artifact version)
  annotate context project booster.stamp
  buildProject context.engine project.path booster.goals booster.profile
  changeConfigMap context booster
  let _ ←
    waitForAnnotatedPod context.client context.space app booster.stamp.key
      booster.stamp.value (pollLimits context.settings context.settings.redeployPolls)
  verify context booster app true
  checkAnnotated context booster

/-- The steps of a scenario. -/
def Scenario.run (scenario : Scenario) : Context → Booster → Project → Run Unit :=
  match scenario with
  | .deployOnce => firstDeployment
  | .redeploy => redeployment

/-! ## Whole runs -/

/-- The clone of a booster's repository, with the version of the deployment plugin pinned. -/
def pinnedTemplate (settings : Settings) (booster : Booster) : Run Path := do
  let template ← ensureClone booster.repository settings.workdir
  let _ ← Run.onDisk (Pom.pinFile (template.below pomName) settings.versionSource)
  return template

/-- A scenario on a fresh copy of a template. -/
def runOnCopy (settings : Settings) (booster : Booster) (scenario : String) (template : Path)
    (testClass : String) (overrides : Overrides) : Run Project := do
  match Scenario.ofName? scenario with
  | none => throw (.unknownScenario scenario Scenario.names)
  | some steps =>
    let project ← freshCopy template testClass scenario
    withContext settings overrides fun context => steps.run context booster project
    return project

/-- Scenarios run one after the other on one template. -/
def runAllOnCopies (settings : Settings) (booster : Booster) (template : Path) :
    List String → Run Unit
  | [] => pure ()
  | scenario :: rest => do
    let _ ← runOnCopy settings booster scenario template booster.name Overrides.none
    runAllOnCopies settings booster template rest

/-- A booster's template prepared once and scenarios run on it. -/
def runInTurn (settings : Settings) (booster : Booster) (scenarios : List String) : Run Unit := do
  let template ← pinnedTemplate settings booster
  runAllOnCopies settings booster template scenarios

end Rollout
