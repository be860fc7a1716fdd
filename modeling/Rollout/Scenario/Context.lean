import Rollout.Cluster.Objects
import Rollout.Http.Exchange
import Rollout.Project.Build
import Rollout.Settings.Harness
import Rollout.World.Pause

/-!
# The context of a run

- `Context`: what every step of a run works with.
- `Context.track`, `Context.teardown`: objects remembered and removed at the end.
- `withContext`: a computation in a new context, which is torn down in any case.
-/

namespace Rollout

/-- What runs cluster commands. -/
inductive Runner
  /-- A runner of commands that gives no output. -/
  | handed
  /-- A binary that takes the command as its arguments. -/
  | binary (name : String)
  deriving DecidableEq, Repr

/-- What every step of a run works with. -/
structure Context where
  settings : Settings
  client : Client
  /-- The namespace of all objects of the run. -/
  space : String
  engine : Engine
  runner : Runner
  deriving Repr

namespace Context

/-- A cluster command run: the lines of its output. -/
def runCommand (context : Context) (line : String) : Run (List String) :=
  match context.runner with
  | .handed => do
    Run.emit (.command line)
    return []
  | .binary name => runLine name line

/-- A cluster command run and the lines of its output reported. This is the way in for a caller who
wants to see them; the steps of a scenario run their commands for the effect alone. -/
def reportCommand (context : Context) (line : String) : Run Unit := do
  Run.emit (.output (← context.runCommand line))

/-- A request sent through the session of the run. -/
def ask (context : Context) (method url : String) (body : Option String) : Run Response :=
  Http.send context.settings.requestTimeout true method url body

/-- An object to remove at the end of the run; one that is tracked already is not tracked again. -/
def track (kind name : String) : Run Unit :=
  modify fun world =>
    if world.tracked.contains (kind, name) then world
    else { world with tracked := world.tracked ++ [(kind, name)] }

/-- The line that tells of an object that was not removed, and why. -/
def refusalLine (kind name : String) (failure : Failure) : String :=
  let reason := failure.message.getD ""
  Text.Markup.yellow s!"⚠️  Could not delete {kind}/{name}: {reason}"

/-- Objects removed one after the other. That the cluster refuses is told, and does not matter
otherwise. -/
def deleteAll (context : Context) : List (String × String) → Run Unit
  | [] => pure ()
  | (kind, name) :: rest => do
    Run.telling .cluster (refusalLine kind name)
      (context.client.delete context.space kind name)
    deleteAll context rest

/-- The tracked objects removed, the last one first. -/
def deleteTracked (context : Context) : Run Unit := do
  context.deleteAll (← get).tracked.reverse
  modify fun world => { world with tracked := [] }

/-- The end of a run: the tracked objects are removed and the session is closed in any case. -/
def teardown (context : Context) : Run Unit :=
  Run.ensuring context.deleteTracked closeSession

end Context

/-- What a context is made with instead of what the settings say. -/
structure Overrides where
  client : Option Client
  engine : Option Engine
  runner : Option Runner
  deriving Repr

/-- Nothing but what the settings say. -/
def Overrides.none : Overrides := ⟨.none, .none, .none⟩

/-- The namespace of a run: that of the settings, or else that of the command line's current
context. -/
def chosenNamespace (settings : Settings) (client : Client) : Run String :=
  match settings.space, client with
  | some space, _ => return space
  | none, .cli binary timeout => Client.activeNamespace binary timeout
  | none, .store => return defaultNamespace

/-- A new context. -/
def startContext (settings : Settings) (overrides : Overrides) : Run Context := do
  let client := overrides.client.getD (.cli settings.clusterBinary settings.clusterTimeout)
  let space ← chosenNamespace settings client
  modify fun world => { world with tracked := [] }
  return {
    settings, client, space
    engine := overrides.engine.getD (.command settings.engineBinary)
    runner := overrides.runner.getD (.binary settings.clusterBinary) }

/-- A computation in a new context, which is torn down in any case. -/
def withContext {α : Type} (settings : Settings) (overrides : Overrides)
    (body : Context → Run α) : Run α := do
  let context ← startContext settings overrides
  Run.ensuring (body context) context.teardown

end Rollout
