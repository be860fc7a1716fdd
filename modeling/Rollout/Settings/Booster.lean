import Rollout.Files.Packaged
import Rollout.Settings.Form
import Rollout.Text.Pieces

/-!
# Boosters

A booster is an application with its repository, the way it is built, and the check that shows
whether it works.

- `Booster`, `Greeting`, `Crud`, `ConfigMap`, `CheckKind`: the types.
- `Booster.read`: a booster from the members of an object.
- `ConfigMap.data`: the data of a config map for a deployment or a redeployment.
- `cloneName`: the directory a clone of a repository gets.
-/

namespace Rollout

/-! ## Types -/

/-- The checks that can be run against an application. -/
inductive CheckKind
  | greeting
  | route
  | crud
  | health
  deriving DecidableEq, Repr, Inhabited

/-- The key and the value of an annotation. -/
structure Stamp where
  key : String
  value : String
  deriving DecidableEq, Repr, Inhabited

/-- The greeting an application answers with. -/
structure Greeting where
  path : String
  field : String
  expected : String
  /-- What is expected after a redeployment, unless it is the same. -/
  redeployExpected : Option String
  deriving DecidableEq, Repr, Inhabited

/-- The records an application keeps. -/
structure Crud where
  path : String
  name : String
  deriving DecidableEq, Repr, Inhabited

/-- The config map an application needs. Its content is that of a packaged file when `source` is
set. -/
structure ConfigMap where
  name : String
  key : String
  content : Option String
  source : Option String
  /-- The text that a redeployment replaces in the content. -/
  replace : Option String
  replacement : Option String
  deriving DecidableEq, Repr, Inhabited

/-- An application and how to verify it. -/
structure Booster where
  name : String
  repository : String
  goals : String
  profile : String
  stamp : Stamp
  check : CheckKind
  greeting : Option Greeting
  crud : Option Crud
  configMap : Option ConfigMap
  /-- Whether the application has to be allowed to view the cluster. -/
  viewRole : Bool
  /-- Cluster commands to run before a deployment. -/
  setupCommands : List String
  /-- Whether a redeployment has to leave the annotation on a deployment. -/
  checkStamp : Bool
  deriving DecidableEq, Repr, Inhabited

/-! ## Names -/

/-- The directory a clone of a repository gets. -/
def cloneName (url : String) : String :=
  Text.dropEnding ".git" (Text.afterLast '/' (Text.dropTrailing '/' url))

/-- The directory a clone of the booster's repository gets. -/
def Booster.cloneName (booster : Booster) : String :=
  Rollout.cloneName booster.repository

/-- The name of a check. -/
def CheckKind.name : CheckKind → String
  | .greeting => "greeting"
  | .route => "route"
  | .crud => "crud"
  | .health => "health"

/-- All checks. -/
def CheckKind.all : List CheckKind := [.greeting, .route, .crud, .health]

/-! ## Reading -/

/-- A check by its name. -/
def checkField : Json → Checked CheckKind
  | .str s =>
    match CheckKind.all.find? (·.name == s) with
    | some kind => .ok kind
    | none => problem .notChoice
  | _ => problem .notChoice

/-- An annotation. -/
def Stamp.read (given : Members) : Checked Stamp :=
  Form.complete do
    let key ← Form.required given "key" textField
    let value ← Form.required given "value" textField
    return ⟨key, value⟩

/-- A greeting. -/
def Greeting.read (given : Members) : Checked Greeting :=
  Form.complete do
    let path ← Form.optional given "path" "/api/greeting" textField
    let field ← Form.optional given "field" "content" textField
    let expected ← Form.required given "expected" textField
    let redeployExpected ← Form.optional given "redeploy_expected" none (nullable textField)
    return ⟨path, field, expected, redeployExpected⟩

/-- The records used where none are given. -/
def Crud.standard : Crud := ⟨"/api/fruits", "Pineapple"⟩

/-- Records. -/
def Crud.read (given : Members) : Checked Crud :=
  Form.complete do
    let path ← Form.optional given "path" standard.path textField
    let name ← Form.optional given "name" standard.name textField
    return ⟨path, name⟩

/-- A config map, which has to have content of its own or a source. -/
def ConfigMap.read (given : Members) : Checked ConfigMap := do
  let spec ← Form.complete do
    let name ← Form.required given "name" textField
    let key ← Form.required given "key" textField
    let content ← Form.optional given "content" none (nullable textField)
    let source ← Form.optional given "source" none (nullable textField)
    let replace ← Form.optional given "replace" none (nullable textField)
    let replacement ← Form.optional given "replacement" none (nullable textField)
    return (⟨name, key, content, source, replace, replacement⟩ : ConfigMap)
  if spec.content.isNone && spec.source.isNone then
    problem (.rule s!"config map '{spec.name}' needs either content or source")
  else return spec

/-- Whether a check compares a greeting. -/
def CheckKind.needsGreeting : CheckKind → Bool
  | .greeting => true
  | .health => true
  | _ => false

/-- The goals of builds that name none. -/
def standardGoals : String :=
  "fabric8:deploy -Dfabric8.openshift.trimImageInContainerSpec=true"

/-- The build profile of boosters that name none. -/
def standardProfile : String := "openshift"

/-- The fields of a booster. -/
def Booster.form (given : Members) : Form Booster := do
  let name ← Form.required given "name" textField
  let repository ← Form.required given "repository" textField
  let goals ← Form.optional given "goals" standardGoals textField
  let profile ← Form.optional given "profile" standardProfile textField
  let stamp ← Form.required given "annotation" (objectField Stamp.read)
  let check ← Form.optional given "check" .route checkField
  let greeting ← Form.optional given "greeting" none (nullable (objectField Greeting.read))
  let crud ← Form.optional given "crud" none (nullable (objectField Crud.read))
  let configMap ← Form.optional given "config_map" none (nullable (objectField ConfigMap.read))
  let viewRole ← Form.optional given "view_role" false truthField
  let setupCommands ← Form.optional given "setup_commands" [] (listField textField)
  let checkStamp ←
    Form.optional given "check_deployment_annotation" false truthField
  return {
    name, repository, goals, profile, stamp, check, greeting, crud, configMap, viewRole,
    setupCommands, checkStamp }

/-- A booster. A check that compares a greeting needs one; a check of records has some to go by
without being given any. -/
def Booster.read (given : Members) : Checked Booster := do
  let booster ← Form.complete (Booster.form given)
  if booster.check.needsGreeting && booster.greeting.isNone then
    let check := booster.check.name
    problem (.rule s!"booster '{booster.name}' uses check '{check}' without greeting settings")
  else if booster.check = .crud && booster.crud.isNone then
    return { booster with crud := some Crud.standard }
  else return booster

/-! ## What a booster expects -/

/-- The greeting expected after a deployment or a redeployment. -/
def Greeting.greetingAfter (greeting : Greeting) (redeployed : Bool) : String :=
  if redeployed then greeting.redeployExpected.getD greeting.expected else greeting.expected

/-- The content of a config map before a redeployment changes it. -/
def ConfigMap.text (spec : ConfigMap) (files : Files) : Except Failure String :=
  match spec.source with
  | some source => files.readText (resourceDir.child source)
  | none => .ok (spec.content.getD "")

/-- The data of a config map for a deployment or a redeployment. -/
def ConfigMap.data (spec : ConfigMap) (files : Files) (redeployed : Bool) :
    Except Failure (List (String × String)) := do
  let text ← spec.text files
  match spec.replace with
  | some replaced =>
    if redeployed then
      return [(spec.key, Text.replaceAll replaced (spec.replacement.getD "") text)]
    else return [(spec.key, text)]
  | none => return [(spec.key, text)]

end Rollout
