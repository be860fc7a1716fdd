import Rollout.Cluster.Wait
import Rollout.Pom.OnDisk
import Rollout.Scenario.Expectation

/-!
# Steps of scenarios

- `setUpCluster`: what a booster needs in the cluster before it is deployed.
- `annotate`: an annotation stamped into the build of a project.
- `changeConfigMap`: the config map of a booster changed for a redeployment.
- `verify`: the application found in the cluster and checked.
-/

namespace Rollout

/-! ## Before a build -/

/-- The command that allows an application to view the cluster. -/
def viewRoleCommand : String := "policy add-role-to-user view -z default"

/-- A cluster command in the namespace of the run. -/
def inNamespace (command space : String) : String :=
  command ++ " -n " ++ space

/-- Commands run one after the other. -/
def runCommands (context : Context) : List String → Run Unit
  | [] => pure ()
  | command :: rest => do
    let _ ← context.runCommand (inNamespace command context.space)
    runCommands context rest

/-- What a booster needs in the cluster before it is deployed. -/
def setUpCluster (context : Context) (booster : Booster) : Run Unit := do
  let viewing := if booster.viewRole then [viewRoleCommand] else []
  runCommands context (viewing ++ booster.setupCommands)
  match booster.configMap with
  | none => pure ()
  | some spec =>
    let data ← Run.ofExcept (spec.data (← get).disk.files false)
    ensureConfigMap context.client context.space spec.name data
    Context.track configMapKind spec.name

/-- An annotation stamped into the build of a project. -/
def annotate (context : Context) (project : Project) (stamp : Stamp) : Run Unit :=
  Run.onDisk <|
    Pom.configureFile project.pom stamp.key stamp.value context.settings.template

/-! ## After a build -/

/-- The limits of a poll. -/
def pollLimits (settings : Settings) (maxPolls : Int) : PollLimits :=
  ⟨maxPolls, settings.pollInterval, settings.settle⟩

/-- The application found in the cluster and checked. -/
def verify (context : Context) (booster : Booster) (app : String) (redeployed : Bool) :
    Run Unit := do
  Run.sleep context.settings.postDeploy
  let host ← requireApplication context.client context.space app
  checkApplication context booster host.display redeployed

/-- The config map of a booster changed for a redeployment. -/
def changeConfigMap (context : Context) (booster : Booster) : Run Unit := do
  match booster.configMap with
  | none => pure ()
  | some spec =>
    let data ← Run.ofExcept (spec.data (← get).disk.files true)
    replaceConfigMap context.client context.space spec.name data

/-- Fails unless a deployment carries the annotation of the redeployment, when that matters. -/
def checkAnnotated (context : Context) (booster : Booster) : Run Unit := do
  if booster.checkStamp then
    let key := booster.stamp.key
    let names ← annotatedDeployments context.client context.space key
    if names.isEmpty then throw (.noAnnotatedDeployment key)

end Rollout
