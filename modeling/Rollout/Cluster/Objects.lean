import Rollout.Cluster.Client

/-!
# Objects of an application

- `ensureConfigMap`, `replaceConfigMap`: a config map with given data.
- `routeNamed`, `hostOfRoute`: the route of an application and the host it exposes.
- `annotatedDeployments`: the deployments that carry an annotation.
- `requireObject`, `requireApplication`: what a deployment should have made.
-/

namespace Rollout

/-- The kind of config maps. -/
def configMapKind : String := "configmap"

/-- The kind of deployments. -/
def deploymentKind : String := "deploymentconfig"

/-- The kind of services. -/
def serviceKind : String := "service"

/-- The kind of routes. -/
def routeKind : String := "route"

/-! ## Config maps -/

/-- The data of a config map. -/
abbrev ConfigData := List (String × String)

/-- The data of a config map as a value. -/
def ConfigData.toJson (data : ConfigData) : Json :=
  .obj (data.map fun entry => (entry.1, .str entry.2))

/-- The manifest of a config map. -/
def configMapObject (name : String) (data : ConfigData) : Json :=
  .obj [("apiVersion", .str "v1"), ("kind", .str "ConfigMap"),
    ("metadata", .obj [("name", .str name)]), ("data", ConfigData.toJson data)]

/-- The data of an existing config map patched. -/
def replaceConfigMap (client : Client) (space name : String) (data : ConfigData) : Run Unit := do
  let _ ← client.edit space configMapKind name (.obj [("data", ConfigData.toJson data)])

/-- A config map made, or patched when it exists. -/
def ensureConfigMap (client : Client) (space name : String) (data : ConfigData) : Run Unit := do
  match ← client.get space configMapKind name with
  | none => do
    let _ ← client.create space configMapKind (configMapObject name data)
  | some _ => replaceConfigMap client space name data

/-! ## Routes -/

/-- The first route of a name. -/
def findRoute (name : String) : List Json → Except Failure (Option Json)
  | [] => .ok none
  | route :: rest => do
    let metadata ← route.askedOr "metadata" (.obj [])
    let found ← metadata.asked "name"
    if found.any (Json.same (.str name)) then return some route
    else findRoute name rest

/-- The route of a name in a namespace. -/
def routeNamed (client : Client) (space name : String) : Run (Option Json) := do
  let routes ← client.list space routeKind none
  Run.ofExcept do findRoute name (← routes.items)

/-- The host a route exposes. -/
def hostOfRoute (route : Option Json) : Except Failure (Option Json) :=
  match route with
  | none => .ok none
  | some route => do
    let spec ← route.askedOr "spec" (.obj [])
    let host ← spec.asked "host"
    return host.filter fun value => !value.isHollow

/-! ## Deployments -/

/-- The names of the deployments that carry an annotation. -/
def namesAnnotated (key : String) : List Json → Except Failure (List Json)
  | [] => .ok []
  | deployment :: rest => do
    let metadata := (← deployment.askedOr "metadata" .null).orElse (.obj [])
    let annotations := (← metadata.askedOr "annotations" .null).orElse (.obj [])
    if ← annotations.mentions key then
      let name ← metadata.askedOr "name" .null
      return name :: (← namesAnnotated key rest)
    else namesAnnotated key rest

/-- The names of the deployments of a namespace that carry an annotation. -/
def annotatedDeployments (client : Client) (space key : String) : Run (List Json) := do
  let deployments ← client.list space deploymentKind none
  Run.ofExcept do namesAnnotated key (← deployments.items)

/-! ## What a deployment makes -/

/-- Fails unless an object exists. -/
def requireObject (client : Client) (space kind name : String) : Run Unit := do
  match ← client.get space kind name with
  | some _ => pure ()
  | none => throw (.noObject kind name space)

/-- The host of an application whose deployment, service and route exist. -/
def requireApplication (client : Client) (space app : String) : Run Json := do
  requireObject client space deploymentKind app
  requireObject client space serviceKind app
  let route ← routeNamed client space app
  match ← Run.ofExcept (hostOfRoute route) with
  | some host => return host
  | none => throw (.noRoute app)

end Rollout
