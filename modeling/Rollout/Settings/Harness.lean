import Rollout.Files.Packaged
import Rollout.Settings.Form
import Rollout.Text.Case

/-!
# Settings of the harness

- `Settings`: where to work, what to run, and how long to wait.
- `Settings.standard`: the settings used where none are given.
- `Settings.read`: settings from given members; members that no setting has are passed over.
- `Settings.ofEnvironment`: settings from given members and environment variables.
-/

namespace Rollout

/-- The settings of the harness. -/
structure Settings where
  /-- Holds template clones and the copies of each test. -/
  workdir : Path
  /-- The namespace of the cluster; that of the command line's context when absent. -/
  space : Option String
  /-- The command line of the cluster. -/
  clusterBinary : String
  /-- The build engine. -/
  engineBinary : String
  /-- The descriptor whose version the deployment plugin is pinned to. -/
  versionSource : Path
  /-- The template of the deployment plugin's configuration. -/
  template : Path
  pollInterval : Binary64
  /-- Bounds the listings after a first deployment. -/
  initialPolls : Int
  /-- Bounds the listings after a redeployment. -/
  redeployPolls : Int
  /-- The pause after a pod was found. -/
  settle : Binary64
  /-- The pause before the objects of an application are looked for. -/
  postDeploy : Binary64
  requestTimeout : Binary64
  /-- How often a greeting is asked for until it answers. -/
  probeAttempts : Int
  probeRetry : Binary64
  /-- The seconds a stopped application has to recover. -/
  recovery : Int
  /-- The seconds a run of the cluster's command line may take. -/
  clusterTimeout : Int
  deriving DecidableEq, Repr

/-- The timeout of requests that name none, and the one settings have unless they say otherwise. -/
def Http.standardTimeout : Binary64 := Binary64.ofInt 30

namespace Settings

/-- The settings used where none are given. -/
def standard : Settings where
  workdir := Path.read "target/boosters"
  space := none
  clusterBinary := "oc"
  engineBinary := "mvn"
  versionSource := Path.read "pom.xml"
  template := configurationTemplatePath
  pollInterval := Binary64.ofInt 5
  initialPolls := 60
  redeployPolls := 120
  settle := Binary64.ofInt 10
  postDeploy := Binary64.ofInt 20
  requestTimeout := Http.standardTimeout
  probeAttempts := 3
  probeRetry := Binary64.ofInt 10
  recovery := 120
  clusterTimeout := 60

/-- The names of all settings. -/
def names : List String :=
  ["workdir", "namespace", "cli_binary", "maven_binary", "plugin_version_pom",
    "plugin_config_template", "poll_interval_seconds", "initial_max_polls", "redeploy_max_polls",
    "settle_seconds", "post_deploy_seconds", "http_timeout_seconds", "probe_attempts",
    "probe_retry_seconds", "recovery_seconds", "kubectl_timeout"]

/-- The settings that members give, field by field. -/
def form (given : Members) : Form Settings := do
  let workdir ← Form.optional given "workdir" standard.workdir pathField
  let space ← Form.optional given "namespace" standard.space (nullable textField)
  let clusterBinary ← Form.optional given "cli_binary" standard.clusterBinary textField
  let engineBinary ← Form.optional given "maven_binary" standard.engineBinary textField
  let versionSource ← Form.optional given "plugin_version_pom" standard.versionSource pathField
  let template ← Form.optional given "plugin_config_template" standard.template pathField
  let pollInterval ←
    Form.optional given "poll_interval_seconds" standard.pollInterval realFromZero
  let initialPolls ←
    Form.optional given "initial_max_polls" standard.initialPolls (integerFrom 1)
  let redeployPolls ←
    Form.optional given "redeploy_max_polls" standard.redeployPolls (integerFrom 1)
  let settle ← Form.optional given "settle_seconds" standard.settle realFromZero
  let postDeploy ← Form.optional given "post_deploy_seconds" standard.postDeploy realFromZero
  let requestTimeout ←
    Form.optional given "http_timeout_seconds" standard.requestTimeout realAboveZero
  let probeAttempts ← Form.optional given "probe_attempts" standard.probeAttempts (integerFrom 1)
  let probeRetry ← Form.optional given "probe_retry_seconds" standard.probeRetry realFromZero
  let recovery ← Form.optional given "recovery_seconds" standard.recovery (integerFrom 1)
  let clusterTimeout ←
    Form.optional given "kubectl_timeout" standard.clusterTimeout (integerFrom 1)
  return {
    workdir, space, clusterBinary, engineBinary, versionSource, template, pollInterval,
    initialPolls, redeployPolls, settle, postDeploy, requestTimeout, probeAttempts, probeRetry,
    recovery, clusterTimeout }

/-- The settings that members give. A redeployment has to have more listings than a first
deployment. -/
def read (given : Members) : Checked Settings := do
  let settings ← Form.complete (form given)
  let first := settings.initialPolls
  let second := settings.redeployPolls
  if second ≤ first then
    problem (.rule s!"redeploy_max_polls ({second}) must exceed initial_max_polls ({first})")
  else return settings

/-! ## Environment -/

/-- What the names of environment variables begin with, in small letters. -/
def variableStart : String := "booster_rt_"

/-- The environment variables of all settings. -/
def variableNames : List String :=
  names.map fun name => Text.upper (variableStart ++ name)

/-- The setting an environment variable gives; the case of its name does not count. -/
def ofVariable? (entry : String × String) : Option (String × Json) :=
  match variableStart.toList.isPrefixOf? (Text.lower entry.1).toList with
  | some name => some (String.ofList name, .str entry.2)
  | none => none

/-- The settings that members and environment variables give. Members count before variables, and
later variables before earlier ones. -/
def ofEnvironment (environment : List (String × String)) (given : Members) :
    Except Failure Settings :=
  match read (given ++ environment.reverse.filterMap ofVariable?) with
  | .ok settings => .ok settings
  | .error errors => .error (.invalid errors)

end Settings

end Rollout
