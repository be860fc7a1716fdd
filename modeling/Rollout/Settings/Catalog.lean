import Rollout.Settings.Booster
import Rollout.Json.Access

/-!
# The catalog of boosters

- `catalog`: the packaged catalog.
- `valueAt`: a value of a catalog by its path of keys.
- `boostersOf`: all boosters of a catalog; `packagedBooster`: one of the packaged ones.
-/

namespace Rollout

/-! ## The packaged catalog -/

/-- The entry of an annotation. -/
def annotationEntry (name : String) : String × Json :=
  ("annotation", .obj [("key", .str (name ++ "-testKey")), ("value", .str (name ++ "-testValue"))])

/-- Entries whose values are texts. -/
def textEntries (entries : List (String × String)) : Members :=
  entries.map fun entry => (entry.1, .str entry.2)

/-- The entries that every booster has: its repository and how it is built. -/
def buildEntries (repository goals : String) : Members :=
  textEntries [("repository", repository), ("goals", goals), ("profile", standardProfile)]

/-- The goals of builds that run no tests. -/
def untestedGoals : String := standardGoals ++ " -DskipTests"

/-- The entry of a greeting. -/
def greetingEntry (more : List (String × String)) : String × Json :=
  ("greeting", .obj (textEntries ([("path", "/api/greeting"), ("field", "content")] ++ more)))

/-- The entry of a config map whose greeting a redeployment changes. -/
def configMapEntry (key : String) (origin : String × String) : String × Json :=
  ("config_map",
    .obj (textEntries
      [("name", "app-config"), ("key", key), origin, ("replace", "Hello"),
        ("replacement", "Bonjour")]))

/-- A booster that answers with a greeting. -/
def vertxHttp : Members :=
  buildEntries "https://github.com/openshiftio-vertx-boosters/vertx-http-booster.git" standardGoals
    ++ [annotationEntry "vertx", ("check", .str "greeting"),
      greetingEntry [("expected", "Hello, World!")], ("check_deployment_annotation", .bool true)]

/-- A booster that takes its greeting from a config map. -/
def vertxConfigMap : Members :=
  buildEntries "https://github.com/openshiftio-vertx-boosters/vertx-configmap-booster.git"
      untestedGoals
    ++ [annotationEntry "vertx-configmap", ("check", .str "greeting"),
      greetingEntry [("expected", "Hello, World from a ConfigMap !"),
        ("redeploy_expected", "Bonjour, World from a ConfigMap !")],
      configMapEntry "app-config.yml" ("source", "app-config.yml"), ("view_role", .bool true)]

/-- A booster that recovers after it was stopped. -/
def vertxHealthChecks : Members :=
  buildEntries "https://github.com/openshiftio-vertx-boosters/vertx-health-checks-booster.git"
      standardGoals
    ++ [annotationEntry "vertx-healthcheck", ("check", .str "health"),
      greetingEntry [("expected", "Hello, World!")]]

/-- A booster that answers at its route. -/
def springBootHttp : Members :=
  buildEntries "https://github.com/snowdrop/spring-boot-http-booster.git" standardGoals
    ++ [("annotation", .obj (textEntries [("key", "testKey"), ("value", "testValue")])),
      ("check", .str "route"), ("check_deployment_annotation", .bool true)]

/-- Another booster that takes its greeting from a config map. -/
def springBootConfigMap : Members :=
  buildEntries "https://github.com/snowdrop/spring-boot-configmap-booster.git" untestedGoals
    ++ [annotationEntry "springboot-configmap", ("check", .str "greeting"),
      greetingEntry [("expected", "Hello World from a ConfigMap!"),
        ("redeploy_expected", "Bonjour World from a ConfigMap!")],
      configMapEntry "application.properties"
        ("content", "greeting.message: Hello World from a ConfigMap!"),
      ("view_role", .bool true)]

/-- The command that sets up the database of a booster that keeps records. -/
def databaseCommand : String :=
  "new-app -ePOSTGRESQL_USER=luke -ePOSTGRESQL_PASSWORD=secret -ePOSTGRESQL_DATABASE=my_data "
    ++ "openshift/postgresql-92-centos7 --name=my-database"

/-- A booster that keeps records. -/
def springBootCrud : Members :=
  buildEntries "https://github.com/snowdrop/spring-boot-crud-booster.git" untestedGoals
    ++ [annotationEntry "springboot-crud", ("check", .str "crud"),
      ("crud", .obj (textEntries [("path", "/api/fruits"), ("name", "Pineapple")])),
      ("setup_commands", .arr [.str databaseCommand])]

/-- The packaged catalog. -/
def catalog : Json :=
  .obj [("boosters", .obj
    [("vertx-http", .obj vertxHttp), ("vertx-configmap", .obj vertxConfigMap),
      ("vertx-health-checks", .obj vertxHealthChecks), ("spring-boot-http", .obj springBootHttp),
      ("spring-boot-configmap", .obj springBootConfigMap),
      ("spring-boot-crud", .obj springBootCrud)])]

/-! ## Looking things up -/

/-- The value that a path of keys leads to; nothing when a key is missing or leads to null. -/
def valueAt : List String → Json → Option Json
  | [], value => some value
  | key :: keys, value =>
    match value.member? key with
    | none => none
    | some .null => none
    | some found => valueAt keys found

/-- A booster from its entry in a catalog, which must not name it again. -/
def boosterOfEntry (name : String) (entry : Json) : Except Failure Booster :=
  match entry with
  | .obj members =>
    if Members.has members "name" then .error .wrongType
    else
      match Booster.read (("name", .str name) :: members) with
      | .ok booster => .ok booster
      | .error errors => .error (.invalid errors)
  | _ => .error .wrongType

/-- All boosters of a catalog. -/
def boostersOf (catalog : Json) : Except Failure (List (String × Booster)) := do
  let entries := (← catalog.askedOr "boosters" .null).orElse (.obj [])
  match entries with
  | .obj members =>
    members.mapM fun entry => do return (entry.1, ← boosterOfEntry entry.1 entry.2)
  | _ => .error .noMembers

/-- Insertion into texts that are in order. -/
def insertText (text : String) : List String → List String
  | [] => [text]
  | head :: rest =>
    if Text.precedes head text then head :: insertText text rest else text :: head :: rest

/-- Texts in order of their code points. -/
def sortTexts (texts : List String) : List String :=
  texts.foldr insertText []

/-- One of the packaged boosters. -/
def packagedBooster (name : String) : Except Failure Booster := do
  let boosters ← boostersOf catalog
  match boosters.lookup name with
  | some booster => return booster
  | none => .error (.unknownBooster name (sortTexts (boosters.map Prod.fst)))

end Rollout
