import Rollout.Cluster.Store
import Rollout.Project.Copy
import Rollout.World.Process

/-!
# Builds

- `Engine`: the build engine, a command or a script of builds.
- `engineArguments`: the arguments of a build by command.
- `buildProject`: a build that fails unless its status is zero.
-/

namespace Rollout

/-- The build engine. -/
inductive Engine
  /-- A command. -/
  | command (binary : String)
  /-- A script of builds that make and remove objects in a namespace. -/
  | scripted (space : String)
  deriving DecidableEq, Repr

/-- The arguments of a build by command. -/
def engineArguments (project : Path) (goals profile : String) : Except Failure (List String) :=
  match Text.shellWords goals with
  | .error error => .error (.badCommandLine error)
  | .ok words =>
    let selected := if profile.isEmpty then [] else ["-P", profile]
    .ok (["-B", "-f", (project.below pomName).text] ++ selected ++ words)

/-- The objects with those that a build makes. -/
def putMade (space : String) : List (String × Json) → Store → Except Failure Store
  | [], store => .ok store
  | (kind, manifest) :: rest, store => do
    let name ← manifestName manifest
    putMade space rest (store.put ⟨space, kind, name⟩ manifest)

/-- The objects without those that a build removes. -/
def removeGone (space : String) (gone : List (String × String)) (store : Store) : Store :=
  gone.foldl (fun store object => store.remove ⟨space, object.1, object.2⟩) store

namespace Engine

/-- The descriptor a project has. -/
def descriptorContent (files : Files) (project : Path) : Option Content :=
  match files.content (project.below pomName) with
  | .ok content => some content
  | .error _ => none

/-- A build of a project: its status. -/
def run (engine : Engine) (project : Path) (goals profile : String) : Run Int :=
  match engine with
  | .command binary => do
    let args ← Run.ofExcept (engineArguments project goals profile)
    return (← Run.startProcess (binary :: args) (some project.text)).status
  | .scripted space => do
    Run.emit (.build project.text goals profile)
    Run.emit (.descriptor (descriptorContent (← get).disk.files project))
    let build ← Run.nextBuild
    let store ← Run.ofExcept (putMade space build.made (← get).store)
    modify fun world => { world with store := removeGone space build.gone store }
    return build.status

end Engine

/-- A build of a project, which fails unless its status is zero. -/
def buildProject (engine : Engine) (project : Path) (goals profile : String) : Run Unit := do
  let status ← engine.run project goals profile
  if status ≠ 0 then throw (.buildFailed project.text status)

end Rollout
