import Rollout.CommandLine.Arguments
import Rollout.Files.Path
import Rollout.Text.Pieces

/-!
# Commands

- `Command`: what the command line may ask for.
- `Request`: a command, a page of help, or arguments that do not fit.
- `Request.read`: the request of some arguments.
-/

namespace Rollout

/-- What the command line may ask for. -/
inductive Command
  /-- The boosters of the catalog. -/
  | listBoosters
  /-- Scenarios of a booster. -/
  | runBooster (name scenario : String) (space : Option String) (workdir : Option Path)
  /-- The deployment plugin of a project pinned. -/
  | pin (pom : Path) (source : Option Path)
  /-- A dependency added to a project. -/
  | addDependency (group artifact version : String) (pom : Path)
  /-- An annotation stamped into a project. -/
  | annotate (key value : String) (pom : Path) (template : Option Path)
  deriving DecidableEq, Repr

/-- What some arguments ask for. -/
inductive Request
  | help
  | command (command : Command)
  /-- The arguments do not fit. -/
  | unusable
  deriving DecidableEq, Repr

/-! ## Options -/

/-- The option that asks for help, which every command and group has. -/
def helpOption : OptionSpec := ⟨"help", "--help", none, false⟩

/-- The option that makes the program say more. -/
def verboseOption : OptionSpec := ⟨"verbose", "--verbose", some 'v', false⟩

/-- The option that names the descriptor to edit. -/
def pomOption : OptionSpec := ⟨"pom", "--pom", some 'f', true⟩

/-- The options of a run. -/
def runOptions : List OptionSpec :=
  [⟨"scenario", "--scenario", some 's', true⟩, ⟨"namespace", "--namespace", some 'n', true⟩,
    ⟨"workdir", "--workdir", none, true⟩]

/-- The option that names the descriptor whose version is taken. -/
def sourceOption : OptionSpec := ⟨"source", "--version-source", none, true⟩

/-- The option that names the template of a configuration. -/
def templateOption : OptionSpec := ⟨"template", "--template", none, true⟩

/-- The scenario that stands for all of them. -/
def allScenarios : String := "all"

/-! ## Reading -/

/-- The request of a command's own arguments. Help counts before anything that does not fit in the
other arguments. -/
def readCommand (specs : List OptionSpec) (build : Scanned → Option Command)
    (arguments : List String) : Request :=
  match scanArguments (helpOption :: specs) true arguments with
  | none => .unusable
  | some scanned =>
    if scanned.has "help" then .help
    else
      match build scanned with
      | some command => .command command
      | none => .unusable

/-- The path an option gives. -/
def pathOption (id : String) (scanned : Scanned) : Option Path :=
  (scanned.value? id).map Path.read

/-- The descriptor to edit. -/
def editedPom (scanned : Scanned) : Path :=
  (pathOption "pom" scanned).getD (Path.read "pom.xml")

/-- The list of boosters has no arguments. -/
def buildList (scanned : Scanned) : Option Command :=
  if scanned.rest.isEmpty then some .listBoosters else none

/-- A run has the name of a booster. -/
def buildRun (scanned : Scanned) : Option Command :=
  match scanned.rest with
  | [name] =>
    some (.runBooster name ((scanned.value? "scenario").getD allScenarios)
      (scanned.value? "namespace") (pathOption "workdir" scanned))
  | _ => none

/-- Pinning has no arguments. -/
def buildPin (scanned : Scanned) : Option Command :=
  if scanned.rest.isEmpty then some (.pin (editedPom scanned) (pathOption "source" scanned))
  else none

/-- A dependency is given as three parts with colons in between, none of them empty. -/
def buildDependency (scanned : Scanned) : Option Command :=
  match scanned.rest with
  | [coordinates] =>
    match Text.splitOn ':' coordinates with
    | [group, artifact, version] =>
      if group.isEmpty || artifact.isEmpty || version.isEmpty then none
      else some (.addDependency group artifact version (editedPom scanned))
    | _ => none
  | _ => none

/-- An annotation has a key and a value. -/
def buildAnnotate (scanned : Scanned) : Option Command :=
  match scanned.rest with
  | [key, value] =>
    some (.annotate key value (editedPom scanned) (pathOption "template" scanned))
  | _ => none

/-- The request of the arguments of a group, which go to the command they name. -/
def readGroup (specs : List OptionSpec) (members : List (String × (List String → Request)))
    (arguments : List String) : Request :=
  match scanArguments (helpOption :: specs) false arguments with
  | none => .unusable
  | some scanned =>
    if scanned.has "help" then .help
    else
      match scanned.rest with
      | [] => .unusable
      | name :: rest =>
        match members.lookup name with
        | some read => read rest
        | none => .unusable

/-- The commands on boosters. -/
def boosterGroup : List (String × (List String → Request)) :=
  [("list", readCommand [] buildList), ("run", readCommand runOptions buildRun)]

/-- The commands on descriptors. -/
def pomGroup : List (String × (List String → Request)) :=
  [("pin", readCommand [pomOption, sourceOption] buildPin),
    ("add-dependency", readCommand [pomOption] buildDependency),
    ("annotate", readCommand [pomOption, templateOption] buildAnnotate)]

/-- The request of some arguments. -/
def Request.read (arguments : List String) : Request :=
  readGroup [verboseOption]
    [("booster", readGroup [] boosterGroup), ("pom", readGroup [] pomGroup)] arguments

end Rollout
