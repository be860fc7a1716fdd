import Rollout.Cluster.Client
import Rollout.Cluster.Pod
import Rollout.World.Pause

/-!
# Waiting for pods

The pods of an application are listed again and again until one of them matches, at most a given
number of times. Nothing is remembered from one listing to the next.

- `podsOf`: the pods of an application, newest first.
- `PollLimits`: the bound and the pauses of a poll.
- `waitForReadyPod`: a poll that ends with a pod that is ready.
- `waitForAnnotatedPod`: a poll that ends with a pod that is ready and carries an annotation, which
  the pods of an earlier rollout do not.
-/

namespace Rollout

/-- The bound and the pauses of a poll. -/
structure PollLimits where
  /-- How many listings are made at most. -/
  maxPolls : Int
  /-- The pause between two listings. -/
  interval : Binary64
  /-- The pause after a pod was found. -/
  settle : Binary64
  deriving DecidableEq, Repr

/-- The label that selects the pods of an application. -/
def appSelector (app : String) : String :=
  "app=" ++ app

/-- The pods of an application, newest first. -/
def podsOf (client : Client) (space app : String) : Run (List Pod) := do
  let pods ← client.list space podKind (some (appSelector app))
  Run.ofExcept do Pod.newestFirst (← (← pods.items).mapM Pod.ofManifest)

/-- One listing: the first pod that matches. -/
def matchingPod (client : Client) (space app : String) (isMatch : Pod → Except Failure Bool) :
    Run (Option Pod) := do
  let pods ← podsOf client space app
  Run.ofExcept (Pod.firstMatch isMatch pods)

/-- Looking for a pod of an application until it is found, the bound is reached or the pauses are
cancelled. -/
def pollPods (app : String) (limits : PollLimits) (find : Run (Option Pod)) : Run Pod := do
  let found ←
    Run.retry find Option.isSome Run.isCancelled (Run.sleep limits.interval)
      (Run.repeats limits.maxPolls)
  match found with
  | some pod =>
    Run.sleep limits.settle
    return pod
  | none => if ← Run.isCancelled then throw (.pollCancelled app) else throw (.notReady app)

/-- Whether a pod is ready. -/
def matchesReady (pod : Pod) : Except Failure Bool :=
  .ok pod.ready

/-- Whether a pod is ready and carries an annotation. -/
def matchesAnnotated (key value : String) (pod : Pod) : Except Failure Bool :=
  if pod.ready then pod.carries key value else .ok false

/-- A pod of an application that is ready. -/
def waitForReadyPod (client : Client) (space app : String) (limits : PollLimits) : Run Pod :=
  pollPods app limits (matchingPod client space app matchesReady)

/-- A pod of an application that is ready and carries an annotation. -/
def waitForAnnotatedPod (client : Client) (space app key value : String) (limits : PollLimits) :
    Run Pod :=
  pollPods app limits (matchingPod client space app (matchesAnnotated key value))

end Rollout
