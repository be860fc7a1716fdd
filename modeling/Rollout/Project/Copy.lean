import Rollout.Settings.Booster
import Rollout.Text.Word
import Rollout.World.Process

/-!
# Templates and their copies

- `ensureClone`: the clone of a repository in a directory, made unless there is one.
- `Project`: the copy of a template that one test works on.
- `freshCopy`: a fresh copy of a template for a test.
-/

namespace Rollout

/-- The name of build descriptors. -/
def pomName : String := "pom.xml"

/-- The clone of a repository in a directory. A directory that looks like a clone is used as it
is. -/
def ensureClone (repository : String) (workdir : Path) : Run Path := do
  let target := workdir.child (cloneName repository)
  if (← get).disk.files.exists? (target.below ".git") then return target
  Run.onDisk (Disk.changing (Files.makeDirs target.parent))
  gitClone repository target
  return target

/-- The copy of a template that one test works on. -/
structure Project where
  path : Path
  template : Path
  deriving DecidableEq, Repr

/-- The descriptor of a project. -/
def Project.pom (project : Project) : Path :=
  project.path.below pomName

/-- The directory of a test's copy, next to the template. -/
def copyPath (template : Path) (testClass testMethod : String) : Path :=
  let name :=
    template.name ++ "_" ++ Text.fileSafe testClass ++ "_" ++ Text.fileSafe testMethod
  template.parent.below name

/-- The files once a copy left from before is removed. -/
def clearTarget (target : Path) (files : Files) : Except FileProblem Files :=
  if files.exists? target then files.removeTree target else .ok files

/-- A fresh copy of a template for a test. A copy left from before is removed first. -/
def freshCopy (template : Path) (testClass testMethod : String) : Run Project := do
  let target := copyPath template testClass testMethod
  Run.onDisk (Disk.changing (clearTarget target))
  Run.onDisk (Disk.changing (Files.copyTree template target))
  return ⟨target, template⟩

end Rollout
