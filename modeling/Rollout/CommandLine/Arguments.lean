/-!
# Command line arguments

Long options begin with two dashes and may carry their value behind an equals sign. Short options
are single letters behind one dash; several may share it, and the last one may carry its value
right behind it. Two dashes alone end the options.

- `OptionSpec`: an option and its names.
- `scanArguments`: the options and the other arguments that a command is given.
- `Scanned.value?`, `Scanned.has`: what was given.
-/

namespace Rollout

/-- An option: what it is called here, its long name, its letter, and whether it has a value. -/
structure OptionSpec where
  id : String
  long : String
  letter : Option Char
  takesValue : Bool
  deriving DecidableEq, Repr

/-- The options found, with their values, and the other arguments. -/
structure Scanned where
  options : List (String × String)
  rest : List String
  deriving DecidableEq, Repr

namespace Scanned

/-- The value of an option; the last one given counts. -/
def value? (id : String) (scanned : Scanned) : Option String :=
  scanned.options.reverse.lookup id

/-- Whether an option was given. -/
def has (id : String) (scanned : Scanned) : Bool :=
  (scanned.value? id).isSome

/-- One more option in front. -/
def addOption (id value : String) (scanned : Scanned) : Scanned :=
  { scanned with options := (id, value) :: scanned.options }

/-- One more argument in front. -/
def addRest (argument : String) (scanned : Scanned) : Scanned :=
  { scanned with rest := argument :: scanned.rest }

end Scanned

/-! ## One argument -/

/-- What one argument gives: options with their values, and the option that waits for the next
argument as its value. -/
structure Reading where
  found : List (String × String)
  waiting : Option String
  deriving DecidableEq, Repr

/-- The options of the letters behind one dash; nothing when there is no such option. -/
def readLetters (specs : List OptionSpec) : List Char → Option Reading
  | [] => some ⟨[], none⟩
  | c :: cs =>
    match specs.find? (·.letter == some c) with
    | none => none
    | some spec =>
      if spec.takesValue then
        if cs.isEmpty then some ⟨[], some spec.id⟩
        else some ⟨[(spec.id, String.ofList cs)], none⟩
      else
        (readLetters specs cs).map fun more => { more with found := (spec.id, "") :: more.found }

/-- An argument split at its first equals sign. -/
def splitValue (cs : List Char) : String × Option String :=
  match cs.span (· != '=') with
  | (name, _ :: value) => (String.ofList name, some (String.ofList value))
  | (name, []) => (String.ofList name, none)

/-- The option of a long name; nothing when there is none, or when a value stands where none
belongs. -/
def readLong (specs : List OptionSpec) (cs : List Char) : Option Reading :=
  let (name, value) := splitValue cs
  match specs.find? (·.long == name) with
  | none => none
  | some spec =>
    match spec.takesValue, value with
    | true, some given => some ⟨[(spec.id, given)], none⟩
    | true, none => some ⟨[], some spec.id⟩
    | false, some _ => none
    | false, none => some ⟨[(spec.id, "")], none⟩

/-- The options of an argument that begins with a dash. -/
def readDashed (specs : List OptionSpec) : List Char → Option Reading
  | '-' :: '-' :: cs => readLong specs ('-' :: '-' :: cs)
  | _ :: cs => readLetters specs cs
  | [] => none

/-! ## All arguments -/

/-- Whether an argument is read as options. -/
def isDashed (argument : String) : Bool :=
  match argument.toList with
  | '-' :: _ :: _ => true
  | _ => false

/-- The options and the other arguments; nothing when the arguments do not fit. With `mixed`,
options may follow other arguments; without it, the first other argument ends them. `waiting` is an
option that takes the next argument as its value. -/
def scanFrom (specs : List OptionSpec) (mixed : Bool) :
    Option String → List String → Option Scanned
  | some _, [] => none
  | some id, value :: rest => (scanFrom specs mixed none rest).map (·.addOption id value)
  | none, [] => some ⟨[], []⟩
  | none, argument :: rest =>
    if argument == "--" then some ⟨[], rest⟩
    else if isDashed argument then
      match readDashed specs argument.toList with
      | none => none
      | some reading =>
        (scanFrom specs mixed reading.waiting rest).map fun scanned =>
          { scanned with options := reading.found ++ scanned.options }
    else if mixed then (scanFrom specs mixed none rest).map (·.addRest argument)
    else some ⟨[], argument :: rest⟩

/-- The options and the other arguments that a command is given. -/
def scanArguments (specs : List OptionSpec) (mixed : Bool) (arguments : List String) :
    Option Scanned :=
  scanFrom specs mixed none arguments

end Rollout
