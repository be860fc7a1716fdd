import Rollout.Failure
import Rollout.Files.Path
import Rollout.Text.Lines

/-!
# Files

All files, directories and symbolic links are kept under the place where they really are: a path
without links and without `..`.

- `Entry`, `Files`: what is at each place.
- `Files.resolve`: the place a path leads to, links followed.
- `Files.readText`, `Files.writeText`: texts of files.
- `Files.makeDirs`, `Files.removeTree`, `Files.copyTree`: directories.
- `Files.plant`: files put below a directory, with the directories they need.

A new file system has nothing but the directories where paths start.
-/

namespace Rollout

/-- The content of a file: text, or bytes that are not UTF-8. -/
inductive Content
  | text (s : String)
  | undecodable (bytes : List UInt8)
  deriving DecidableEq, Repr

/-- The content some bytes are. -/
def Content.ofBytes (bytes : List UInt8) : Content :=
  match String.fromUTF8? ⟨bytes.toArray⟩ with
  | some s => .text s
  | none => .undecodable bytes

/-- What may be at a place. -/
inductive Entry
  | file (content : Content)
  | link (target : String)
  | dir
  deriving DecidableEq, Repr

/-- The places where something is, and what. -/
structure Files where
  entries : List (Path × Entry)
  deriving Repr

namespace Path

/-- The place called `name` in the directory at this place. -/
def below (place : Path) (name : String) : Path :=
  ⟨place.anchor, place.parts ++ [name]⟩

/-- Whether `other` is this place or inside the directory at this place. -/
def contains (place other : Path) : Bool :=
  place.anchor == other.anchor && place.parts.isPrefixOf other.parts

/-- The place inside the directory `target` that corresponds to `other` inside this one. -/
def moved (place target other : Path) : Path :=
  ⟨target.anchor, target.parts ++ other.parts.drop place.parts.length⟩

end Path

namespace Files

/-- No files. -/
def empty : Files := ⟨[]⟩

/-- Whether a place is where paths start, or above that. -/
def isTop (place : Path) : Bool :=
  place.parts.all (· == "..")

/-- What is at a place; where paths start there is a directory. -/
def get? (files : Files) (place : Path) : Option Entry :=
  if isTop place then some .dir else files.entries.lookup place

/-- The entries with the one at `place` set. -/
def putEntry (place : Path) (entry : Entry) : List (Path × Entry) → List (Path × Entry)
  | [] => [(place, entry)]
  | (p, e) :: rest =>
    if p == place then (place, entry) :: rest else (p, e) :: putEntry place entry rest

/-- The files with something at a place. -/
def put (place : Path) (entry : Entry) (files : Files) : Files :=
  ⟨putEntry place entry files.entries⟩

/-! ## Resolution -/

/-- Where `..` leads from a directory. Above the root there is nothing else; the directories above
the working directory are only known by the way to them. -/
def above (place : Path) : Path :=
  if !isTop place then place.parent
  else
    match place.anchor with
    | .root => place
    | .doubleRoot => place
    | _ => place.below ".."

/-- The place that names lead to from a directory. A name in the middle has to be a directory or a
link; `onLink` goes on from the directory that holds a link with the names it leads to. The last
name may be one that nothing has. -/
def walkNames (files : Files) (followLast : Bool)
    (onLink : Path → String → List String → Except FileProblem Path) :
    Path → List String → Except FileProblem Path
  | place, [] => .ok place
  | place, name :: rest =>
    if name == ".." then walkNames files followLast onLink (above place) rest
    else
      let next := place.below name
      match files.get? next with
      | none => if rest.isEmpty then .ok next else .error .missing
      | some .dir => walkNames files followLast onLink next rest
      | some (.file _) => if rest.isEmpty then .ok next else .error .notDirectory
      | some (.link target) =>
        if rest.isEmpty && !followLast then .ok next else onLink place target rest

/-- The place that names lead to from a directory, over at most `links` symbolic links. -/
def walk (files : Files) (followLast : Bool) :
    Nat → Path → List String → Except FileProblem Path
  | 0 => walkNames files followLast fun _ _ _ => .error .other
  | links + 1 =>
    walkNames files followLast fun place target rest =>
      let path := Path.read target
      let start : Path := if path.anchor = .working then place else ⟨path.anchor, []⟩
      walk files followLast links start (path.parts ++ rest)

/-- How many symbolic links are followed on the way to a place. -/
def linkBudget : Nat := 40

/-- The place a path leads to. -/
def resolve (files : Files) (path : Path) : Except FileProblem Path :=
  files.walk true linkBudget ⟨path.anchor, []⟩ path.parts

/-- The place a path leads to, where a link at its end is not followed. -/
def resolveEntry (files : Files) (path : Path) : Except FileProblem Path :=
  files.walk false linkBudget ⟨path.anchor, []⟩ path.parts

/-- What a path leads to. -/
def find (files : Files) (path : Path) : Except FileProblem Entry := do
  match files.get? (← files.resolve path) with
  | some entry => .ok entry
  | none => .error .missing

/-- Whether a path leads to something. -/
def exists? (files : Files) (path : Path) : Bool :=
  (files.find path).isOk

/-- Whether a path leads to a directory. -/
def isDir (files : Files) (path : Path) : Bool :=
  match files.find path with
  | .ok .dir => true
  | _ => false

/-! ## Texts -/

/-- The content of the file a path leads to. -/
def content (files : Files) (path : Path) : Except FileProblem Content := do
  match ← files.find path with
  | .file content => .ok content
  | .dir => .error .isDirectory
  | .link _ => .error .other

/-- The text of the file a path leads to, line ends unified. -/
def readText (files : Files) (path : Path) : Except Failure String :=
  match files.content path with
  | .ok (.text s) => .ok (Text.unifyNewlines s)
  | .ok (.undecodable _) => .error .notText
  | .error problem => .error (.file problem)

/-- The files once the file a path leads to holds a text. -/
def writeText (path : Path) (text : String) (files : Files) : Except FileProblem Files := do
  let place ← files.resolve path
  match files.get? place with
  | some .dir => .error .isDirectory
  | _ => .ok (files.put place (.file (.text text)))

/-! ## Directories -/

/-- The files with a new directory. -/
def makeDir (path : Path) (files : Files) : Except FileProblem Files := do
  let place ← files.resolveEntry path
  match files.get? place with
  | some _ => .error .exists
  | none => .ok (files.put place .dir)

/-- The files with a directory at a path, new or not. -/
def ensureDir (path : Path) (files : Files) : Except FileProblem Files :=
  match makeDir path files with
  | .ok made => .ok made
  | .error .missing => .error .missing
  | .error problem => if files.isDir path then .ok files else .error problem

/-- The files with a directory at the path of the names in reverse, new or not. A parent that is
missing is made first. -/
def makeDirsFrom (anchor : Anchor) : List String → Files → Except FileProblem Files
  | [], files => ensureDir ⟨anchor, []⟩ files
  | name :: parents, files =>
    let path : Path := ⟨anchor, (name :: parents).reverse⟩
    match ensureDir path files with
    | .error .missing => do ensureDir path (← makeDirsFrom anchor parents files)
    | result => result

/-- The files with a directory at a path, and all the directories above it. -/
def makeDirs (path : Path) (files : Files) : Except FileProblem Files :=
  makeDirsFrom path.anchor path.parts.reverse files

/-- The files without the directory at a path and what is in it. A link is not removed. -/
def removeTree (path : Path) (files : Files) : Except FileProblem Files := do
  let place ← files.resolveEntry path
  match files.get? place with
  | none => .error .missing
  | some (.file _) => .error .notDirectory
  | some (.link _) => .error .other
  | some .dir => .ok ⟨files.entries.filter fun entry => !place.contains entry.1⟩

/-- The files without what a path leads to; a directory goes with all that is in it. -/
def remove (path : Path) (files : Files) : Except FileProblem Files := do
  let place ← files.resolveEntry path
  match files.get? place with
  | none => .error .missing
  | some _ => .ok ⟨files.entries.filter fun entry => !place.contains entry.1⟩

/-- What is inside the directory at `source`, moved to `target`. -/
def copies (source target : Path) (files : Files) : List (Path × Entry) :=
  files.entries.filterMap fun entry =>
    if source.contains entry.1 && entry.1 != source then
      some (source.moved target entry.1, entry.2)
    else none

/-- The files with a copy of the directory at `source` as a new directory at `target`. Links are
copied as links. -/
def copyTree (source target : Path) (files : Files) : Except FileProblem Files := do
  let source ← files.resolve source
  match files.get? source with
  | none => .error .missing
  | some (.file _) => .error .notDirectory
  | some (.link _) => .error .other
  | some .dir =>
    let made ← files.makeDir target
    let place ← made.resolveEntry target
    .ok ⟨made.entries ++ files.copies source place⟩

/-! ## Several files at once -/

/-- A file or a link put at a path below a directory, with the directories it needs. -/
def plantOne (base : Path) (path : Path) (entry : Entry) (files : Files) :
    Except FileProblem Files := do
  let full := base.join path
  let made ← files.makeDirs full.parent
  match entry with
  | .dir => made.makeDirs full
  | .file _ => .ok (made.put (← made.resolve full) entry)
  | .link _ => .ok (made.put (← made.resolveEntry full) entry)

/-- The files with others put below a directory. -/
def plant (base : Path) (planted : List (Path × Entry)) (files : Files) :
    Except FileProblem Files :=
  planted.foldlM (fun files entry => files.plantOne base entry.1 entry.2) files

end Files

end Rollout
