import Rollout.Json.Access
import Rollout.Json.Printer
import Rollout.World.World

/-!
# Cluster clients

- `Client`: how objects of a cluster are reached, through its command line or as stored objects.
- `Client.list`, `Client.get`, `Client.create`, `Client.edit`, `Client.delete`: the operations.
- `Client.activeNamespace`: the namespace of the command line's current context.

Objects are addressed by namespace, kind and name. The stored objects give one listing of pods
after the other, whatever the label.
-/

namespace Rollout

/-- How objects of a cluster are reached. -/
inductive Client
  /-- Through a command line, with a bound on the seconds of each run. -/
  | cli (binary : String) (timeout : Int)
  /-- As stored objects. -/
  | store
  deriving DecidableEq, Repr

/-- The kind of pods. -/
def podKind : String := "pod"

/-- The namespace of contexts that name none. -/
def defaultNamespace : String := "default"

namespace Client

/-! ## Command line -/

/-- A run of the command line: its output. -/
def call (binary : String) (timeout : Int) (args : List String) (input : Option String) :
    Run String := do
  Run.emit (.cli (binary :: args) timeout input)
  match ← Run.nextReply with
  | .exited status output errors =>
    if status = 0 then return output else throw (.clusterCall binary args errors)
  | .timedOut =>
    let argv := shownTexts (binary :: args)
    throw (.clusterCall binary args s!"Command '{argv}' timed out after {timeout} seconds")
  | .notStarted reason => throw (.clusterCall binary args reason)
  | .undecodable => throw .notText

/-- A run of the command line: the value it prints. -/
def callForJson (binary : String) (timeout : Int) (args : List String) (input : Option String) :
    Run Json := do
  Run.ofExcept (Json.ofText (← call binary timeout args input))

/-- The arguments that select objects by label. -/
def selectorArgs (selector : Option String) : List String :=
  match selector with
  | some label => if label.isEmpty then [] else ["-l", label]
  | none => []

/-- The namespace of the command line's current context. -/
def activeNamespace (binary : String) (timeout : Int) : Run String := do
  let args := ["config", "view", "--minify", "-o", "jsonpath=\x7b..namespace\x7d"]
  let output ← call binary timeout args none
  let found := Text.strip output
  return if found.isEmpty then defaultNamespace else found

/-! ## Operations -/

/-- The objects of a kind: a list, unless the reply has another shape. -/
def list (client : Client) (space kind : String) (selector : Option String) : Run Json :=
  match client with
  | .cli binary timeout => do
    let args := ["get", kind, "-n", space, "-o", "json"] ++ selectorArgs selector
    let value ← callForJson binary timeout args none
    Run.ofExcept (value.askedOr "items" (.arr []))
  | .store => do
    Run.emit (.list space kind selector)
    if kind == podKind then return .arr (← Run.nextPods)
    else return .arr ((← get).store.ofKind space kind)

/-- An object; nothing when there is none. -/
def get (client : Client) (space kind name : String) : Run (Option Json) :=
  match client with
  | .cli binary timeout => do
    let args := ["get", kind, name, "-n", space, "-o", "json", "--ignore-not-found"]
    let output ← call binary timeout args none
    if Text.allBlank output then return none
    else
      match ← Run.ofExcept (Json.ofText output) with
      | .null => return none
      | value => return some value
  | .store => do
    Run.emit (.get space kind name)
    return (← MonadState.get).store.find? ⟨space, kind, name⟩

/-- A new object. -/
def create (client : Client) (space kind : String) (manifest : Json) : Run Json :=
  match client with
  | .cli binary timeout =>
    callForJson binary timeout ["create", "-n", space, "-f", "-", "-o", "json"]
      (some manifest.render)
  | .store => do
    Run.emit (.create space kind manifest)
    let name ← Run.ofExcept (manifestName manifest)
    modify fun world => { world with store := world.store.put ⟨space, kind, name⟩ manifest }
    return manifest

/-- A patch merged into an object. -/
def edit (client : Client) (space kind name : String) (patch : Json) : Run Json :=
  match client with
  | .cli binary timeout =>
    callForJson binary timeout
      ["patch", kind, name, "-n", space, "--type", "merge", "-p", patch.render, "-o", "json"] none
  | .store => do
    Run.emit (.edit space kind name patch)
    match (← MonadState.get).store.find? ⟨space, kind, name⟩ with
    | none => throw (.noSuchObject kind name)
    | some manifest =>
      let changed ← Run.ofExcept (merged manifest patch)
      modify fun world => { world with store := world.store.put ⟨space, kind, name⟩ changed }
      return changed

/-- An object removed, whether it is there or not. -/
def delete (client : Client) (space kind name : String) : Run Unit :=
  match client with
  | .cli binary timeout => do
    let _ ← call binary timeout ["delete", kind, name, "-n", space, "--ignore-not-found"] none
  | .store => do
    Run.emit (.delete space kind name)
    match (← MonadState.get).deleteFaults.lookup name with
    | some fault => throw (.raised fault)
    | none => modify fun world => { world with store := world.store.remove ⟨space, kind, name⟩ }

end Client

end Rollout
