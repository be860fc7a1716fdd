import Rollout.Json.Display

/-!
# Faults of the outside world

What a transport or a cluster raises is a graph: every fault may hold others among its arguments,
as its reason, and as what caused it or what was being handled when it arose. Links may form
cycles.

- `Fault`: a graph of faults and the one that was raised.
- `Fault.links`: the faults one fault refers to.
- `Fault.namesNoHost`: whether a failed name resolution can be reached.
- `Fault.message`: the message of a fault.
-/

namespace Rollout

/-- The kinds of fault that are told apart. -/
inductive FaultKind
  | nameResolution
  | connection
  | timeout
  | connectTimeout
  | system
  | value
  | runtime
  | cluster
  deriving DecidableEq, Repr

namespace FaultKind

/-- Whether a fault of this kind is a failure to connect. -/
def isConnection : FaultKind → Bool
  | .connection => true
  | .connectTimeout => true
  | _ => false

/-- The name the kind is reported under. -/
def name : FaultKind → String
  | .nameResolution => "gaierror"
  | .connection => "ConnectionError"
  | .timeout => "Timeout"
  | .connectTimeout => "ConnectTimeout"
  | .system => "OSError"
  | .value => "ValueError"
  | .runtime => "RuntimeError"
  | .cluster => "ClusterError"

/-- All kinds. -/
def all : List FaultKind :=
  [.nameResolution, .connection, .timeout, .connectTimeout, .system, .value, .runtime, .cluster]

/-- The kind reported under a name. -/
def ofName? (name : String) : Option FaultKind :=
  all.find? fun kind => kind.name == name

end FaultKind

/-- The number of a fault in its graph. -/
abbrev FaultId := Nat

/-- An argument of a fault: a plain value or another fault. -/
inductive FaultArg
  | plain (value : Json)
  | fault (id : FaultId)
  deriving Repr

/-- The fault an argument is. -/
def FaultArg.id? : FaultArg → Option FaultId
  | .fault id => some id
  | .plain _ => none

/-- One fault of a graph. -/
structure FaultNode where
  kind : FaultKind
  args : List FaultArg
  reason : Option FaultArg
  cause : Option FaultId
  context : Option FaultId
  deriving Repr

/-- The faults a fault refers to: among its arguments, then its reason, its cause and its
context. -/
def FaultNode.links (node : FaultNode) : List FaultId :=
  node.args.filterMap FaultArg.id? ++ (node.reason.bind FaultArg.id?).toList ++ node.cause.toList
    ++ node.context.toList

/-- A graph of faults and the one that was raised. -/
structure Fault where
  nodes : List FaultNode
  start : FaultId
  deriving Repr

namespace Fault

/-- A fault on its own, with one message. -/
def single (kind : FaultKind) (message : String) : Fault :=
  ⟨[⟨kind, [.plain (.str message)], none, none, none⟩], 0⟩

/-- The fault of a number. -/
def node? (fault : Fault) (id : FaultId) : Option FaultNode :=
  fault.nodes[id]?

/-- The kind of the fault that was raised. -/
def kind (fault : Fault) : FaultKind :=
  match fault.node? fault.start with
  | some node => node.kind
  | none => .runtime

/-! ## Search -/

/-- Whether a failed name resolution can be reached from the faults in `pending` through faults in
`unseen`. A fault leaves `unseen` when it is looked at, so each is looked at once. -/
def reachesResolution (nodes : List FaultNode) (unseen pending : List FaultId) : Bool :=
  match pending with
  | [] => false
  | id :: pending =>
    if id ∈ unseen then
      match nodes[id]? with
      | some node =>
        if node.kind = .nameResolution then true
        else reachesResolution nodes (unseen.erase id) (node.links.reverse ++ pending)
      | none => reachesResolution nodes (unseen.erase id) pending
    else reachesResolution nodes unseen pending
termination_by (unseen.length, pending.length)
decreasing_by
  · have h : (unseen.erase id).length < unseen.length := by
      rw [List.length_erase_of_mem ‹id ∈ unseen›]
      have := List.length_pos_of_mem ‹id ∈ unseen›
      omega
    exact Prod.Lex.left _ _ h
  · have h : (unseen.erase id).length < unseen.length := by
      rw [List.length_erase_of_mem ‹id ∈ unseen›]
      have := List.length_pos_of_mem ‹id ∈ unseen›
      omega
    exact Prod.Lex.left _ _ h
  · exact Prod.Lex.right _ (by simp)

/-- Whether a failed name resolution can be reached from the fault that was raised. -/
def namesNoHost (fault : Fault) : Bool :=
  reachesResolution fault.nodes (List.range fault.nodes.length) [fault.start]

/-! ## Messages -/

/-- The arguments of a fault as a list in brackets; a single one is followed by a comma when
`listed` says so. -/
def bracketed (listed : Bool) (shown : List String) : String :=
  match shown with
  | [only] => if listed then s!"({only},)" else s!"({only})"
  | _ => enclosed "(" ")" shown

/-- A fault inside the arguments of another: its kind and its arguments. `fuel` bounds the
nesting. -/
def shown (nodes : List FaultNode) : Nat → FaultId → String
  | 0, _ => "..."
  | fuel + 1, id =>
    match nodes[id]? with
    | none => ""
    | some node =>
      let args := node.args.map fun arg =>
        match arg with
        | .plain value => value.shown
        | .fault other => shown nodes fuel other
      node.kind.name ++ bracketed false args

/-- The message of a fault: its only argument, nothing when it has none, and all of them in
brackets when there are several. -/
def messageOf (nodes : List FaultNode) : Nat → FaultId → String
  | 0, _ => "..."
  | fuel + 1, id =>
    match nodes[id]? with
    | none => ""
    | some node =>
      match node.args with
      | [] => ""
      | [.plain value] => value.display
      | [.fault other] => messageOf nodes fuel other
      | args =>
        bracketed true <| args.map fun arg =>
          match arg with
          | .plain value => value.shown
          | .fault other => shown nodes fuel other

/-- The message of the fault that was raised. -/
def message (fault : Fault) : String :=
  messageOf fault.nodes (fault.nodes.length + 1) fault.start

end Fault

end Rollout
