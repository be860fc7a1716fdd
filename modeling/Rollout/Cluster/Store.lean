import Rollout.Failure

/-!
# Stored objects

The objects of a cluster by namespace, kind and name.

- `Store`: the objects, in the order they were first put.
- `Store.find?`, `Store.put`, `Store.remove`: the object of a name read, set and removed.
- `Store.ofKind`: the objects of a kind.
- `merged`: a manifest with a patch applied, one level deep.
-/

namespace Rollout

/-- What identifies an object. -/
structure ObjectKey where
  space : String
  kind : String
  name : String
  deriving DecidableEq, Repr

/-- An object of a cluster. -/
structure StoredObject where
  key : ObjectKey
  manifest : Json
  deriving Repr

/-- The objects of a cluster. -/
abbrev Store := List StoredObject

namespace Store

/-- The manifest of an object. -/
def find? (key : ObjectKey) : Store → Option Json
  | [] => none
  | object :: rest => if object.key = key then some object.manifest else find? key rest

/-- The objects with one set: in its place when it is there, at the end otherwise. -/
def put (key : ObjectKey) (manifest : Json) : Store → Store
  | [] => [⟨key, manifest⟩]
  | object :: rest =>
    if object.key = key then ⟨key, manifest⟩ :: rest else object :: put key manifest rest

/-- The objects without one. -/
def remove (key : ObjectKey) (store : Store) : Store :=
  List.filter (fun object => object.key ≠ key) store

/-- The manifests of the objects of a kind in a namespace. -/
def ofKind (space kind : String) (store : Store) : List Json :=
  (List.filter (fun object => object.key.space = space ∧ object.key.kind = kind) store).map
    StoredObject.manifest

/-! ## Order of a dump -/

/-- The order of objects by namespace, kind and name. -/
def before (a b : ObjectKey) : Bool :=
  if a.space ≠ b.space then Text.precedes a.space b.space
  else if a.kind ≠ b.kind then Text.precedes a.kind b.kind
  else Text.precedes a.name b.name

/-- Insertion into objects that are in order. -/
def insertSorted (object : StoredObject) : Store → Store
  | [] => [object]
  | head :: rest =>
    if before head.key object.key then head :: insertSorted object rest
    else object :: head :: rest

/-- The objects by namespace, kind and name. -/
def sorted (store : Store) : Store :=
  List.foldr insertSorted [] store

end Store

/-! ## Manifests -/

/-- The name a manifest gives its object. -/
def manifestName (manifest : Json) : Except Failure String :=
  match manifest with
  | .obj members =>
    match members.lookup "metadata" with
    | some (.obj metadata) =>
      match metadata.lookup "name" with
      | some (.str name) => .ok name
      | some _ => .error .wrongType
      | none => .error .missingMember
    | some _ => .error .wrongType
    | none => .error .missingMember
  | _ => .error .wrongType

/-- The members with those of `patch` set one by one. -/
def putAll (patch members : Members) : Members :=
  patch.foldl (fun members entry => Members.put entry.1 entry.2 members) members

/-- A value of a patch applied to the value in its place: two objects are merged, anything else is
replaced. -/
def mergedValue (old : Option Json) (new : Json) : Json :=
  match old, new with
  | some (.obj members), .obj patch => .obj (putAll patch members)
  | _, _ => new

/-- A manifest with a patch applied, one level deep. -/
def merged (manifest patch : Json) : Except Failure Json :=
  match manifest, patch with
  | .obj members, .obj changes =>
    .ok <| .obj <| changes.foldl
      (fun members entry =>
        Members.put entry.1 (mergedValue (members.lookup entry.1) entry.2) members)
      members
  | _, _ => .error .noMembers

end Rollout
