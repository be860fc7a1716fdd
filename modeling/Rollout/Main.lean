import Rollout.CommandLine.Execute

/-!
# The program

The descriptor commands work on the files of the file system. Scenarios need a cluster and other
programs, none of which can be reached from here: the version control counts as not installed.

- `Request.reads`: the files that may be read for a request.
- `Request.edits`: the descriptor that is written for a request.
- `main`: the program.
-/

namespace Rollout

/-- The files a command may read. -/
def Command.reads (settings : Settings) : Command → List Path
  | .listBoosters => []
  | .runBooster _ _ _ _ => []
  | .pin pom source => [pom, source.getD settings.versionSource]
  | .addDependency _ _ _ pom => [pom]
  | .annotate _ _ pom template => [pom, template.getD settings.template]

/-- The descriptor a command writes. -/
def Command.edits : Command → Option Path
  | .pin pom _ => some pom
  | .addDependency _ _ _ pom => some pom
  | .annotate _ _ pom _ => some pom
  | _ => none

/-- What is said of a command that is done. -/
def Command.report : Command → List String
  | .listBoosters =>
    match boostersOf catalog with
    | .ok boosters => sortTexts (boosters.map fun entry => entry.1 ++ " " ++ entry.2.repository)
    | .error _ => []
  | .runBooster name _ _ _ => [s!"Scenarios of {name} passed"]
  | .pin pom _ => [s!"Pinned plugin version in {pom.text}"]
  | .addDependency group artifact version pom =>
    [s!"Added {group}:{artifact}:{version} to {pom.text}"]
  | .annotate key value pom _ => [s!"Set annotation {key}={value} in {pom.text}"]

/-- The files that may be read for a request. -/
def Request.reads (settings : Settings) : Request → List Path
  | .command wanted => wanted.reads settings
  | _ => []

/-- The descriptor that is written for a request. -/
def Request.edits : Request → Option Path
  | .command wanted => wanted.edits
  | _ => none

/-- What is said of a request that is met. -/
def Request.report : Request → List String
  | .help => ["commands: booster list, booster run, pom pin, pom add-dependency, pom annotate"]
  | .command wanted => wanted.report
  | .unusable => []

/-- The environment variables that are set. -/
def readVariables : IO (List (String × String)) := do
  let found ← Settings.variableNames.mapM fun name => do
    return (← IO.getEnv name).map fun value => (name, value)
  return found.filterMap id

/-- The files with the one at a path as the file system has it. -/
def loadFile (files : Files) (path : Path) : IO Files := do
  try
    let bytes ← IO.FS.readBinFile path.text
    let entry := Entry.file (Content.ofBytes bytes.toList)
    match files.plantOne (Path.read "") path entry with
    | .ok loaded => return loaded
    | .error _ => return files
  catch _ => return files

/-- The descriptor at a path as the file system gets it. -/
def storeFile (files : Files) (path : Path) : IO Unit := do
  match files.content path with
  | .ok (.text text) => IO.FS.writeFile path.text text
  | _ => pure ()

/-- The end of a request, with what is said of it. -/
def finish (request : Request) (world : World) (ending : Except Failure Ending) : IO UInt32 := do
  match ending with
  | .error failure => IO.eprintln (failure.message.getD "failed")
  | .ok .unusable => IO.eprintln "invalid arguments"
  | .ok _ => do
    for path in request.edits.toList do storeFile world.disk.files path
    for line in request.report do IO.println line
  return UInt32.ofNat (exitStatus ending)

end Rollout

open Rollout in
/-- The program. -/
def main (arguments : List String) : IO UInt32 := do
  let environment ← readVariables
  let settings := (Settings.ofEnvironment environment []).toOption.getD Settings.standard
  let request := Request.read arguments
  let files ← (request.reads settings).foldlM loadFile Files.packaged
  match runArguments environment arguments { World.start files with absent := ["git"] } with
  | .ok ending world => finish request world (.ok ending)
  | .error failure world => finish request world (.error failure)
