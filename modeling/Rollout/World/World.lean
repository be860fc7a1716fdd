import Rollout.Cluster.Store
import Rollout.Pom.OnDisk
import Rollout.Text.Markup
import Rollout.World.Event

/-!
# The world of a run

The outside world answers from scripts: what each process, request, build and listing gives is laid
down beforehand, and every use takes the next answer. What a run does is kept as a log of events.

- `Reply`, `ProcessResult`, `Build`, `PodBatch`, `Outcome`: the answers.
- `Console`: the lines that can be printed.
- `World`: files, cluster, scripts, console and log.
- `Run`: computations in a world that may fail; a failure keeps the world as it is.
- `Run.say`: a line of the console, which may fail.
- `Run.ensuring`, `Run.attempt`, `Run.telling`: what happens after a failure.
-/

namespace Rollout

/-! ## Answers -/

/-- What a run of the cluster's command line gives. -/
inductive Reply
  | exited (status : Int) (output errors : String)
  /-- The run took too long. -/
  | timedOut
  /-- The command could not be started, and why. -/
  | notStarted (reason : String)
  /-- What the command printed is no text. -/
  | undecodable
  deriving DecidableEq, Repr

/-- What a process gives. -/
structure ProcessResult where
  status : Int
  output : String
  deriving DecidableEq, Repr

/-- What a build does to the cluster: objects it makes, objects that go, and its status. -/
structure Build where
  status : Int
  made : List (String × Json)
  gone : List (String × String)
  deriving Repr

/-- One listing of pods. -/
inductive PodBatch
  | pods (manifests : List Json)
  | fault (fault : Fault)
  deriving Repr

/-- What sending a request gives. -/
inductive Outcome
  | response (status : Int) (body : String)
  | fault (fault : Fault)
  deriving Repr

/-- The pauses of a run: whether they were cut short for good, and after how many more that
happens. -/
structure Pauses where
  cancelled : Bool
  cancelAfter : Option Nat
  deriving DecidableEq, Repr

/-! ## Console -/

/-- Where people are told what happens. Of the lines a run prints, only those that pass on a text of
the outside world are steps of it; the others hold the names of boosters, applications, pods and
paths, which are taken to have no brackets in them. -/
structure Console where
  /-- Whether a line can be printed. -/
  prints : String → Bool

/-- The console that reads its lines for markup. -/
def Console.standard : Console := ⟨Text.Markup.isPrintable⟩

instance : Repr Console := ⟨fun _ _ => "console"⟩

/-! ## World -/

/-- The world of a run. -/
structure World where
  disk : Disk
  store : Store
  /-- The next listings of pods; the last one stays. -/
  pods : List PodBatch
  /-- Faults of removals, by name of the object. -/
  deleteFaults : List (String × Fault)
  replies : List Reply
  processes : List ProcessResult
  builds : List Build
  /-- The next outcomes of a request, by method and address; the last one stays. -/
  routes : List (String × List Outcome)
  /-- The files of repositories, by address. -/
  remotes : List (String × List (Path × Entry))
  /-- Commands that are not installed. -/
  absent : List String
  pauses : Pauses
  console : Console
  /-- Kind and name of the objects to remove at the end of the run. -/
  tracked : List (String × String)
  /-- How many sessions were closed. -/
  closed : Nat
  log : List Event
  deriving Repr

/-- A world that answers nothing. -/
def World.start (files : Files) : World where
  disk := ⟨files, Xml.Prefixes.standard⟩
  store := []
  pods := []
  deleteFaults := []
  replies := []
  processes := []
  builds := []
  routes := []
  remotes := []
  absent := []
  pauses := ⟨false, none⟩
  console := Console.standard
  tracked := []
  closed := 0
  log := []

/-- Computations in a world that may fail. -/
abbrev Run := EStateM Failure World

namespace Run

variable {α : Type}

/-- An event added to the log. -/
def emit (event : Event) : Run Unit :=
  modify fun world => { world with log := world.log ++ [event] }

/-- A line of the console. What cannot be printed is a failure. -/
def say (line : String) : Run Unit := do
  if (← get).console.prints line then pure () else throw .badMarkup

/-- A computation on the disk. -/
def onDisk (action : Disk.Action α) : Run α := fun world =>
  match action world.disk with
  | .ok a disk => .ok a { world with disk := disk }
  | .error failure disk => .error failure { world with disk := disk }

/-- A result that may be a failure. -/
def ofExcept (result : Except Failure α) : Run α :=
  match result with
  | .ok a => pure a
  | .error failure => throw failure

/-- A computation whose failure becomes its result. -/
def attempt (run : Run α) : Run (Except Failure α) := fun world =>
  match run world with
  | .ok a world => .ok (.ok a) world
  | .error failure world => .ok (.error failure) world

/-- A computation followed by another one in any case. A failure of the second one wins. -/
def ensuring (run : Run α) (after : Run Unit) : Run α := do
  let result ← attempt run
  after
  ofExcept result

/-- A computation whose failures of one category are told and passed over. -/
def telling (category : Category) (line : Failure → String) (run : Run Unit) : Run Unit := do
  match ← attempt run with
  | .ok () => pure ()
  | .error failure => if failure.category = category then say (line failure) else throw failure

/-! ## Taking answers -/

/-- The next reply of the cluster's command line. -/
def nextReply : Run Reply := do
  let world ← get
  match world.replies with
  | [] => return .exited 1 "" "no reply"
  | reply :: rest =>
    set { world with replies := rest }
    return reply

/-- The next result of a process; one that does nothing when there is none. -/
def nextProcess : Run ProcessResult := do
  let world ← get
  match world.processes with
  | [] => return ⟨0, ""⟩
  | result :: rest =>
    set { world with processes := rest }
    return result

/-- The next build; one that does nothing when there is none. -/
def nextBuild : Run Build := do
  let world ← get
  match world.builds with
  | [] => return ⟨0, [], []⟩
  | build :: rest =>
    set { world with builds := rest }
    return build

/-- The next listing of pods. -/
def nextPods : Run (List Json) := do
  let world ← get
  match world.pods with
  | [] => return []
  | batch :: rest =>
    unless rest.isEmpty do set { world with pods := rest }
    match batch with
    | .pods manifests => return manifests
    | .fault fault => throw (.raised fault)

/-- The outcomes with the first one of a request taken, unless it is the last. -/
def advance (key : String) : List (String × List Outcome) → List (String × List Outcome)
  | [] => []
  | (k, outcomes) :: rest =>
    if k == key then
      match outcomes with
      | _ :: next :: more => (k, next :: more) :: rest
      | _ => (k, outcomes) :: rest
    else (k, outcomes) :: advance key rest

/-- The next outcome of a request. -/
def nextOutcome (key : String) : Run Outcome := do
  let world ← get
  match (world.routes.lookup key).getD [] with
  | [] => return .response 404 "no route"
  | outcome :: _ =>
    set { world with routes := advance key world.routes }
    return outcome

end Run

end Rollout
