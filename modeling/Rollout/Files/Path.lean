import Rollout.Text.Pieces

/-!
# Paths

A path is where it starts and the names that follow; empty names and `.` are dropped when a path
is read, `..` is kept.

- `Path`: the type; `Path.read` and `Path.text` go from and to text.
- `Path.join`: a path below another; a path that does not start in the working directory replaces
  it.
- `Path.parent`, `Path.name`: the last name taken off, and that name.
-/

namespace Rollout

/-- Where a path starts. -/
inductive Anchor
  /-- The working directory. -/
  | working
  /-- The root, written `/`. -/
  | root
  /-- The root, written `//`. -/
  | doubleRoot
  /-- The directory of the files that come with the program, written `<package>`. -/
  | package
  deriving DecidableEq, Repr, Inhabited

/-- A path of a file. -/
structure Path where
  anchor : Anchor
  parts : List String
  deriving DecidableEq, Repr, Inhabited

namespace Path

/-- The names of a path text. -/
def partsOf (text : String) : List String :=
  (Text.splitOn '/' text).filter fun part => part != "" && part != "."

/-- Where a path text starts: two slashes are not the same as one or three. -/
def anchorOf (cs : List Char) : Anchor :=
  match cs with
  | '/' :: '/' :: '/' :: _ => .root
  | '/' :: '/' :: _ => .doubleRoot
  | '/' :: _ => .root
  | _ => .working

/-- The path of a text. -/
def read (text : String) : Path :=
  ⟨anchorOf text.toList, partsOf text⟩

/-- The text of a path. -/
def text (path : Path) : String :=
  let names := "/".intercalate path.parts
  match path.anchor with
  | .working => if path.parts.isEmpty then "." else names
  | .root => "/" ++ names
  | .doubleRoot => "//" ++ names
  | .package => if path.parts.isEmpty then "<package>" else "<package>/" ++ names

/-- The path of `other`, taken from `path` when it starts in the working directory. -/
def join (path other : Path) : Path :=
  match other.anchor with
  | .working => ⟨path.anchor, path.parts ++ other.parts⟩
  | _ => other

/-- The path below `path` that a text names. -/
def child (path : Path) (name : String) : Path :=
  path.join (read name)

/-- The path without its last name. -/
def parent (path : Path) : Path :=
  ⟨path.anchor, path.parts.dropLast⟩

/-- The last name; empty when there is none. -/
def name (path : Path) : String :=
  path.parts.getLast?.getD ""

end Path

end Rollout
