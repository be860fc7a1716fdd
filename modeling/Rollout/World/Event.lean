import Rollout.Files.Tree
import Rollout.Json.Value

/-!
# Events

- `Event`: something done to the outside world.
- `Event.request?`: the request an event sent.
-/

namespace Rollout

/-- A request as it is sent. -/
structure SentRequest where
  method : String
  url : String
  body : Option String
  timeout : Binary64
  /-- Whether it is sent through the session of the run, and not through one of its own. -/
  shared : Bool
  deriving DecidableEq, Repr

/-- Something done to the outside world. -/
inductive Event
  /-- A pause. -/
  | sleep (seconds : Binary64)
  /-- A request sent. -/
  | request (sent : SentRequest)
  /-- A run of the cluster's command line. -/
  | cli (argv : List String) (timeout : Int) (input : Option String)
  /-- A process started, in a directory. -/
  | process (argv : List String) (directory : Option String)
  /-- A run of the version control. -/
  | git (args : List String)
  /-- A command looked up. -/
  | lookup (name : String)
  /-- A cluster command handed to a runner of commands. -/
  | command (line : String)
  /-- The output of a cluster command, reported. -/
  | output (lines : List String)
  /-- The objects of a kind listed. -/
  | list (space kind : String) (selector : Option String)
  /-- An object read. -/
  | get (space kind name : String)
  /-- An object made. -/
  | create (space kind : String) (manifest : Json)
  /-- A patch applied to an object. -/
  | edit (space kind name : String) (patch : Json)
  /-- An object removed. -/
  | delete (space kind name : String)
  /-- A build of a project. -/
  | build (project : String) (goals profile : String)
  /-- The descriptor a build found in its project. -/
  | descriptor (content : Option Content)
  deriving Repr

/-- The request an event sent. -/
def Event.request? : Event → Option SentRequest
  | .request sent => some sent
  | _ => none

end Rollout
