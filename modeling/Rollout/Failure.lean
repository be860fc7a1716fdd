import Rollout.Fault
import Rollout.Text.ShellWords
import Rollout.Text.Blank

/-!
# Failures

Everything that ends an operation early.

- `FieldProblem`, `FieldError`: what is wrong with one field of a configuration.
- `FileProblem`: what the file system refuses.
- `Failure`: all failures; `Failure.category` sorts them and `Failure.message` is the text shown.

Nothing is retried because of a failure. The only failures ever passed over are those of the
category `cluster`, when objects are deleted at the end of a run; the console tells of them.
-/

namespace Rollout

/-! ## Parts -/

/-- What is wrong with a field. -/
inductive FieldProblem
  | missing
  | notText
  | notInteger
  | unreadableInteger
  | fractionalInteger
  | oversizedInteger
  | notFinite
  | notNumber
  | unreadableNumber
  | notTruth
  | unreadableTruth
  | notList
  | notObject
  | notChoice
  | notPath
  | tooSmall
  | notAbove
  /-- A rule of the harness itself, with its message. -/
  | rule (message : String)
  deriving DecidableEq, Repr

/-- A problem and the place of the field it concerns. -/
structure FieldError where
  place : List String
  problem : FieldProblem
  deriving DecidableEq, Repr

/-- What the file system refuses. -/
inductive FileProblem
  | missing
  | isDirectory
  | notDirectory
  | exists
  | other
  deriving DecidableEq, Repr

/-! ## Failures -/

/-- A reason to end an operation. -/
inductive Failure
  /-- A build descriptor is not well-formed. -/
  | malformedDescriptor
  /-- A configuration fragment is not well-formed. -/
  | malformedFragment
  /-- A configuration fragment has another root. -/
  | fragmentRoot (name : String)
  /-- A descriptor declares no artifact. -/
  | noArtifactId (path : String)
  /-- Neither a descriptor nor its parent declares a version. -/
  | noVersion (path : String)
  /-- No profile of a descriptor declares the deployment plugin. -/
  | noHost (path : String)
  /-- The catalog has no such booster. -/
  | unknownBooster (name : String) (known : List String)
  /-- There is no such scenario. -/
  | unknownScenario (name : String) (known : List String)
  /-- The host of an address cannot be resolved. -/
  | unresolvable (url : String)
  /-- No matching pod within the bound of a poll. -/
  | notReady (app : String)
  /-- A poll was cancelled. -/
  | pollCancelled (app : String)
  /-- The build engine reported an error. -/
  | buildFailed (project : String) (status : Int)
  /-- A call of the cluster's command line failed. -/
  | clusterCall (binary : String) (args : List String) (complaint : String)
  /-- The cluster has no such object to edit. -/
  | noSuchObject (kind name : String)
  /-- A response is not JSON. -/
  | notJson (body : String)
  /-- A response has no such field. -/
  | noField (name body : String)
  /-- A response has another status. -/
  | wrongStatus (what : String) (expected actual : Int)
  /-- A field has another value. -/
  | wrongValue (actual : Json) (expected : String)
  /-- The application still reports itself alive after it was stopped. -/
  | stillAlive
  /-- The application did not come back. -/
  | notRecovered
  /-- An object the deployment should have made is not there. -/
  | noObject (kind name space : String)
  /-- The application has no route with a host. -/
  | noRoute (app : String)
  /-- No deployment carries the annotation of the redeployment. -/
  | noAnnotatedDeployment (key : String)
  /-- A request with a method the probe does not send. -/
  | unsupportedMethod (method : String)
  /-- A command line without words. -/
  | emptyCommand
  /-- A command line that cannot be split. -/
  | badCommandLine (error : Text.ShellError)
  /-- An item of a list of pairs that is no pair. -/
  | badPair (index length : Nat)
  /-- A command that is not installed. -/
  | commandMissing (name : String)
  /-- A fault of the outside world. -/
  | raised (fault : Fault)
  /-- A configuration with invalid fields. -/
  | invalid (errors : List FieldError)
  /-- A member was asked of a value that has none. -/
  | noMembers
  /-- A value has a type that does not fit. -/
  | wrongType
  /-- An object lacks a member that has to be there. -/
  | missingMember
  /-- A reply is not JSON. -/
  | badJson
  /-- A file is not UTF-8 text. -/
  | notText
  /-- The file system refused. -/
  | file (problem : FileProblem)
  /-- A process ended with this status. -/
  | exitStatus (status : Int)
  /-- A line of the console closes a style that is not open. -/
  | badMarkup
  deriving Repr

/-- The sorts of failure. -/
inductive Category
  | configuration
  | environment
  | readiness
  | cancelled
  | deployment
  | cluster
  | assertion
  | badValue
  | runtime
  | connection
  | timeout
  | connectTimeout
  | system
  | nameResolution
  | validation
  | noMembers
  | wrongType
  | missingMember
  | badJson
  | notText
  | file (problem : FileProblem)
  | exitStatus (status : Int)
  | badMarkup
  deriving DecidableEq, Repr

/-- The sort of a fault of the outside world. -/
def FaultKind.category : FaultKind → Category
  | .nameResolution => .nameResolution
  | .connection => .connection
  | .timeout => .timeout
  | .connectTimeout => .connectTimeout
  | .system => .system
  | .value => .badValue
  | .runtime => .runtime
  | .cluster => .cluster

namespace Failure

/-- The sort of a failure. -/
def category : Failure → Category
  | .malformedDescriptor => .configuration
  | .malformedFragment => .configuration
  | .fragmentRoot _ => .configuration
  | .noArtifactId _ => .configuration
  | .noVersion _ => .configuration
  | .noHost _ => .configuration
  | .unknownBooster _ _ => .configuration
  | .unknownScenario _ _ => .configuration
  | .unresolvable _ => .environment
  | .notReady _ => .readiness
  | .pollCancelled _ => .cancelled
  | .buildFailed _ _ => .deployment
  | .clusterCall _ _ _ => .cluster
  | .noSuchObject _ _ => .cluster
  | .notJson _ => .assertion
  | .noField _ _ => .assertion
  | .wrongStatus _ _ _ => .assertion
  | .wrongValue _ _ => .assertion
  | .stillAlive => .assertion
  | .notRecovered => .assertion
  | .noObject _ _ _ => .assertion
  | .noRoute _ => .assertion
  | .noAnnotatedDeployment _ => .assertion
  | .unsupportedMethod _ => .badValue
  | .emptyCommand => .badValue
  | .badCommandLine _ => .badValue
  | .badPair _ _ => .badValue
  | .commandMissing _ => .runtime
  | .raised fault => fault.kind.category
  | .invalid _ => .validation
  | .noMembers => .noMembers
  | .wrongType => .wrongType
  | .missingMember => .missingMember
  | .badJson => .badJson
  | .notText => .notText
  | .file problem => .file problem
  | .exitStatus status => .exitStatus status
  | .badMarkup => .badMarkup

/-- How much of a complaint of the cluster's command line is kept. -/
def complaintLimit : Nat := 200

/-- The text of a failure; failures of values and files have none of their own. -/
def message : Failure → Option String
  | .malformedDescriptor => some "Malformed build descriptor"
  | .malformedFragment => some "Malformed configuration fragment"
  | .fragmentRoot name =>
    some s!"Configuration fragment root must be <configuration>, got <{name}>"
  | .noArtifactId path => some s!"{path} declares no artifactId"
  | .noVersion path => some s!"{path} declares no version"
  | .noHost path =>
    some <| s!"No profile in {path} declares io.fabric8:fabric8-maven-plugin; "
      ++ "pin the plugin version first"
  | .unknownBooster name known =>
    let names := ", ".intercalate known
    some s!"Unknown booster '{name}' (known: {names})"
  | .unknownScenario name known =>
    let names := ", ".intercalate known
    some s!"Unknown scenario '{name}' (known: {names})"
  | .unresolvable url =>
    some s!"No host with name {url} found, maybe the wildcard DNS is down!"
  | .notReady app => some s!"Pod wait timeout! Could not find application pod for {app}"
  | .pollCancelled app => some s!"Pod wait for {app} cancelled"
  | .buildFailed project status => some s!"Build of {project} failed with exit status {status}"
  | .clusterCall binary args complaint =>
    let line := " ".intercalate args
    let kept := Text.truncate complaintLimit (Text.strip complaint)
    some s!"{binary} {line} failed: {kept}"
  | .noSuchObject kind name => some s!"{kind} {name} not found"
  | .notJson body => some s!"Unexpected response, expecting json. Actual : {body}"
  | .noField name body => some s!"Response has no '{name}' field: {body}"
  | .wrongStatus what expected actual => some s!"{what}: expected HTTP {expected}, got {actual}"
  | .wrongValue actual expected =>
    let value := actual.display
    some s!"Actual : {value}, Expected : {expected}"
  | .stillAlive => some "Liveness still reports HTTP 200 after stop"
  | .notRecovered => some "Application recovery failed"
  | .noObject kind name space => some s!"No {kind} named '{name}' in namespace {space}"
  | .noRoute app => some s!"[No route found for: {app}]"
  | .noAnnotatedDeployment key => some s!"No deployment carries annotation '{key}' after redeploy"
  | .unsupportedMethod method => some s!"Unsupported HTTP method '{method}'"
  | .emptyCommand => some "command to run can't be empty"
  | .badCommandLine .openQuote => some "No closing quotation"
  | .badCommandLine .openEscape => some "No escaped character"
  | .badPair index length =>
    some s!"dictionary update sequence element #{index} has length {length}; 2 is required"
  | .commandMissing name => some s!"Required command '{name}' not found. Please install it first."
  | .raised fault => some fault.message
  | _ => none

end Failure

end Rollout
