import Rollout.Json.Access
import Rollout.Text.Case

/-!
# Pods

- `Pod`: what one listing shows of a pod.
- `podIsReady`: whether a manifest shows a pod that runs and is ready.
- `Pod.ofManifest`: the pod a manifest shows.
- `Pod.carries`: whether a pod carries an annotation; the case of its value does not count.
- `newestFirst`: pods by time of creation, then name, the greatest first.
-/

namespace Rollout

/-- What one listing shows of a pod. -/
structure Pod where
  name : Json
  ready : Bool
  annotations : Members
  created : Json
  deriving Repr

/-! ## Reading a manifest -/

/-- Whether one of the conditions says that the pod is ready. -/
def anyReady : List Json → Except Failure Bool
  | [] => .ok false
  | condition :: rest => do
    let type ← condition.askedOr "type" .null
    if type.same (.str "Ready") then
      let status ← condition.askedOr "status" .null
      if status.same (.str "True") then return true else anyReady rest
    else anyReady rest

/-- Whether a manifest shows a pod that runs and is ready. -/
def podIsReady (manifest : Json) : Except Failure Bool := do
  let status := (← manifest.askedOr "status" .null).orElse (.obj [])
  let phase ← status.askedOr "phase" .null
  if phase.same (.str "Running") then
    let conditions := (← status.askedOr "conditions" .null).orElse (.arr [])
    anyReady (← conditions.items)
  else return false

/-- The key and value that an item of a list of pairs gives. -/
def pairOf (index : Nat) (item : Json) : Except Failure (String × Json) := do
  match ← item.items with
  | [.str key, value] => return (key, value)
  | [_, _] => .error .wrongType
  | parts => .error (.badPair index parts.length)

/-- The members that pairs give; of two with one key, the second one counts. -/
def membersOfPairs : Nat → Members → List Json → Except Failure Members
  | _, members, [] => .ok members
  | index, members, item :: rest => do
    let (key, value) ← pairOf index item
    membersOfPairs (index + 1) (Members.put key value members) rest

/-- The members of an object, or those that a list of pairs gives. -/
def membersOf (value : Json) : Except Failure Members :=
  match value with
  | .obj members => .ok members
  | other => do membersOfPairs 0 [] (← other.items)

namespace Pod

/-- The pod a manifest shows. -/
def ofManifest (manifest : Json) : Except Failure Pod := do
  let metadata := (← manifest.askedOr "metadata" .null).orElse (.obj [])
  let name ← metadata.askedOr "name" (.str "")
  let ready ← podIsReady manifest
  let annotations := (← metadata.askedOr "annotations" .null).orElse (.obj [])
  let annotations ← membersOf annotations
  let created ← metadata.askedOr "creationTimestamp" .null
  return ⟨name, ready, annotations, created.orElse (.str "")⟩

/-- Whether the pod carries an annotation; the case of its value does not count. -/
def carries (key value : String) (pod : Pod) : Except Failure Bool :=
  match pod.annotations.lookup key with
  | none => .ok false
  | some .null => .ok false
  | some (.str actual) => .ok (Text.sameIgnoringCase actual value)
  | some _ => .error .noMembers

/-! ## Order -/

/-- What pods are ordered by: the time of creation, then the name. -/
def rank (pod : Pod) : Json :=
  .arr [pod.created, pod.name]

/-- Insertion into pods that are in order; of equal pods the inserted one comes first. -/
def insertByRank (pod : Pod) : List Pod → Except Failure (List Pod)
  | [] => .ok [pod]
  | head :: rest =>
    match pod.rank.less? head.rank with
    | none => .error .wrongType
    | some true => do return head :: (← insertByRank pod rest)
    | some false => .ok (pod :: head :: rest)

/-- The pods, the greatest first; equal pods keep their order. -/
def newestFirst : List Pod → Except Failure (List Pod)
  | [] => .ok []
  | pod :: rest => do insertByRank pod (← newestFirst rest)

/-- The first pod that matches. -/
def firstMatch (isMatch : Pod → Except Failure Bool) : List Pod → Except Failure (Option Pod)
  | [] => .ok none
  | pod :: rest => do
    if ← isMatch pod then return some pod else firstMatch isMatch rest

end Pod

end Rollout
