import Rollout.CommandLine.Command
import Rollout.Scenario.Run

/-!
# Executing commands

- `Ending`: how a command ends when it does not fail.
- `Command.execute`: a command done; scenarios are left to be launched by the caller.
- `exitStatus`: the exit status of the program.
- `runArguments`: what some arguments ask for, with the scenarios that are ready run as well.
-/

namespace Rollout

/-- Scenarios of a booster that are ready to be run. -/
structure Launch where
  settings : Settings
  booster : Booster
  scenarios : List String
  deriving Repr

/-- How a command ends when it does not fail. -/
inductive Ending
  | finished
  /-- An argument turned out not to fit. -/
  | unusable
  /-- Everything is ready for scenarios to be run. -/
  | launching (launch : Launch)
  deriving Repr

/-- The settings with what the command line says instead. -/
def overridden (space : Option String) (workdir : Option Path) (settings : Settings) : Settings :=
  { settings with
    space := space.or settings.space
    workdir := workdir.getD settings.workdir }

/-- The scenarios a name stands for; nothing when there is no such scenario. -/
def scenariosOf (scenario : String) : Option (List String) :=
  if scenario == allScenarios then some Scenario.names
  else if Scenario.names.contains scenario then some [scenario]
  else none

namespace Command

/-- A run of scenarios made ready: the commands it needs are looked up. -/
def prepareRun (environment : List (String × String)) (name scenario : String)
    (space : Option String) (workdir : Option Path) : Run Ending := do
  let settings ← overridden space workdir <$> Run.ofExcept (Settings.ofEnvironment environment [])
  let booster ← Run.ofExcept (packagedBooster name)
  match scenariosOf scenario with
  | none => return .unusable
  | some scenarios =>
    needCommand "git"
    needCommand settings.clusterBinary
    needCommand settings.engineBinary
    return .launching ⟨settings, booster, scenarios⟩

/-- A setting, read from the environment only where the command line does not give it. -/
def given (environment : List (String × String)) (path : Option Path) (setting : Settings → Path) :
    Run Path :=
  match path with
  | some path => return path
  | none => setting <$> Run.ofExcept (Settings.ofEnvironment environment [])

/-- A command done in an environment. -/
def execute (environment : List (String × String)) : Command → Run Ending
  | .listBoosters => do
    let _ ← Run.ofExcept (boostersOf catalog)
    return .finished
  | .runBooster name scenario space workdir => prepareRun environment name scenario space workdir
  | .pin pom source => do
    let source ← given environment source Settings.versionSource
    let _ ← Run.onDisk (Pom.pinFile pom source)
    return .finished
  | .addDependency group artifact version pom => do
    Run.onDisk (Pom.addDependencyFile pom group artifact version)
    return .finished
  | .annotate key value pom template => do
    let template ← given environment template Settings.template
    Run.onDisk (Pom.configureFile pom key value template)
    return .finished

end Command

/-- The exit status of the program, given how its command ended. -/
def exitStatus (ending : Except Failure Ending) : Nat :=
  match ending with
  | .ok .unusable => 2
  | .ok _ => 0
  | .error _ => 1

/-- What some arguments ask for, done in an environment. A page of help is done at once. -/
def executeArguments (environment : List (String × String)) (arguments : List String) :
    Run Ending :=
  match Request.read arguments with
  | .help => return .finished
  | .unusable => return .unusable
  | .command command => command.execute environment

/-- The scenarios run that are ready to be run. -/
def Launch.run (launch : Launch) : Run Unit :=
  runInTurn launch.settings launch.booster launch.scenarios

/-- What some arguments ask for, done to the end: scenarios that are ready are run. -/
def runArguments (environment : List (String × String)) (arguments : List String) :
    Run Ending := do
  match ← executeArguments environment arguments with
  | .launching launch => do
    launch.run
    return .finished
  | ending => return ending

end Rollout
