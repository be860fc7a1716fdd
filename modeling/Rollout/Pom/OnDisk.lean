import Rollout.Files.Tree
import Rollout.Pom.Descriptor
import Rollout.Pom.Edit
import Rollout.Pom.Fragment

/-!
# Descriptors on disk

Every operation reads the descriptor anew, does one edit and writes the whole file back, so that
independent calls compose. A failure comes before anything is written.

- `Disk`: the files and the register of prefixes, which outlives a document.
- `editFile`: one edit of the descriptor at a path.
- `pinFile`, `addDependencyFile`, `configureFile`: the edits of a project.
- `artifactIn`, `readVersion`: what other descriptors are read for.
-/

namespace Rollout

/-- The files and the register of prefixes. -/
structure Disk where
  files : Files
  register : Xml.Prefixes
  deriving Repr

namespace Disk

/-- Computations that may fail and change the disk. -/
abbrev Action := EStateM Failure Disk

/-- A computation that only reads. -/
def reading {α : Type} (f : Files → Except Failure α) : Action α := fun disk =>
  match f disk.files with
  | .ok a => .ok a disk
  | .error failure => .error failure disk

/-- A change of the files. -/
def changing (f : Files → Except FileProblem Files) : Action Unit := fun disk =>
  match f disk.files with
  | .ok files => .ok () { disk with files := files }
  | .error problem => .error (.file problem) disk

end Disk

namespace Pom

open Disk

/-- The descriptor at a path. -/
def readDescriptor (pom : Path) : Action Descriptor :=
  reading fun files => do
    match Descriptor.parse? (← files.readText pom) with
    | some descriptor => .ok descriptor
    | none => .error .malformedDescriptor

/-- A descriptor written to a path. -/
def writeDescriptor (pom : Path) (descriptor : Descriptor) : Action Unit := do
  let disk ← get
  let (text, register) := descriptor.serialize disk.register
  set { disk with register := register }
  changing (Files.writeText pom text)

/-- The descriptor at a path after one edit, which may fail. -/
def editFile (pom : Path) (edit : Style → Xml.Node → Except Failure Xml.Node) : Action Unit := do
  let descriptor ← readDescriptor pom
  match edit descriptor.style descriptor.root with
  | .ok root => writeDescriptor pom { descriptor with root := root }
  | .error failure => throw failure

/-- The artifact of the project at a path. -/
def artifactIn (pom : Path) : Action String := do
  let descriptor ← readDescriptor pom
  match nonEmpty (artifactId descriptor.root) with
  | some id => return id
  | none => throw (.noArtifactId pom.text)

/-- The version of the project at a path, or that of its parent. -/
def readVersion (source : Path) : Action String := do
  let descriptor ← readDescriptor source
  match nonEmpty (version descriptor.root) with
  | some found => return found
  | none => throw (.noVersion source.text)

/-- The deployment plugin of the project at `pom` pinned to the version of the project at
`source`, which is the result. -/
def pinFile (pom source : Path) : Action String := do
  let version ← readVersion source
  editFile pom fun style root => .ok (pin version style root)
  return version

/-- A dependency added to the project at a path. -/
def addDependencyFile (pom : Path) (group artifact version : String) : Action Unit :=
  editFile pom fun style root => .ok (insertDependency group artifact version style root)

/-- The configuration of the deployment plugin replaced by a stamped template. -/
def configureFile (pom : Path) (key value : String) (template : Path) : Action Unit := do
  let fragment ← reading fun files => do
    readFragment (filledTemplate (← files.readText template) key value)
  editFile pom fun style root =>
    match configure? fragment style root with
    | some configured => .ok configured
    | none => .error (.noHost pom.text)

end Pom

end Rollout
