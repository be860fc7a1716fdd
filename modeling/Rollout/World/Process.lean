import Rollout.Text.Lines
import Rollout.World.World

/-!
# Processes

- `Run.startProcess`: a process with its output; a status other than zero is a failure.
- `runLine`: a command line run as a process.
- `gitClone`: a repository cloned.
- `needCommand`: a failure unless a command is installed.
-/

namespace Rollout

/-- A process in a directory: its status and its output. -/
def Run.startProcess (argv : List String) (directory : Option String) : Run ProcessResult := do
  emit (.process argv directory)
  nextProcess

/-- The arguments of a command line behind a binary, which is left out when it has no name. -/
def commandArguments (binary command : String) : Except Failure (List String) :=
  match Text.shellWords command with
  | .error error => .error (.badCommandLine error)
  | .ok words =>
    match (if binary.isEmpty then words else binary :: words) with
    | [] => .error .emptyCommand
    | argv => .ok argv

/-- A command line run as a process behind a binary: the lines of its output. -/
def runLine (binary command : String) : Run (List String) := do
  let argv ← Run.ofExcept (commandArguments binary command)
  let result ← Run.startProcess argv none
  if result.status = 0 then return Text.splitLines result.output
  else throw (.exitStatus result.status)

/-- The files of a remote repository put into a directory. -/
def fetchRemote (url : String) (target : Path) : Run Unit := do
  match (← get).remotes.lookup url with
  | none => pure ()
  | some planted => Run.onDisk (Disk.changing (Files.plant target planted))

/-- A repository cloned into a directory, without its history. -/
def gitClone (url : String) (target : Path) : Run Unit := do
  Run.emit (.git ["clone", "--depth", "1", url, target.text])
  fetchRemote url target
  let result ← Run.nextProcess
  if result.status ≠ 0 then throw (.exitStatus result.status)

/-- Fails unless a command is installed. -/
def needCommand (name : String) : Run Unit := do
  Run.emit (.lookup name)
  if (← get).absent.contains name then throw (.commandMissing name)

end Rollout
