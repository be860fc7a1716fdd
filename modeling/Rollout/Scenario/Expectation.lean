import Rollout.Scenario.Context
import Rollout.Settings.Booster

/-!
# Checks of an application

- `askUntilOk`: a page asked for until it answers with status 200.
- `checkGreeting`, `checkRoute`, `checkCrud`, `checkHealth`: the checks.
- `checkApplication`: the check of a booster.
-/

namespace Rollout

/-- The status of a page that is there. -/
def statusOk : Int := 200

/-- The status of a record that was made. -/
def statusCreated : Int := 201

/-- Where an application reports whether it is alive. -/
def livenessPath : String := "/api/health/liveness"

/-- Where an application is stopped. -/
def stopPath : String := "/api/stop"

/-- The address of a page of a host. -/
def pageUrl (host path : String) : String :=
  "http://" ++ host ++ path

/-! ## Expectations -/

/-- Fails unless a response has a status. -/
def requireStatus (response : Response) (expected : Int) (what : String) : Run Unit :=
  if response.status = expected then pure ()
  else throw (.wrongStatus what expected response.status)

/-- Fails unless a value is a text. -/
def requireText (actual : Json) (expected : String) : Run Unit :=
  if actual.same (.str expected) then pure () else throw (.wrongValue actual expected)

/-- Fails unless a member of a response's body is a text. -/
def requireField (response : Response) (name expected : String) : Run Unit := do
  requireText (← Run.ofExcept (response.member name)) expected

/-- A page asked for until it answers with status 200, at most `attempts` times: the last
response. -/
def askUntilOk (context : Context) (url : String) (attempts : Int) (interval : Binary64) :
    Run Response :=
  Run.retry (context.ask "GET" url none) (fun response => response.status = statusOk)
    (return false) (Run.sleep interval) (Run.repeats attempts)

/-! ## Checks -/

/-- The greeting is the expected one. -/
def checkGreeting (context : Context) (greeting : Greeting) (host : String) (redeployed : Bool) :
    Run Unit := do
  let settings := context.settings
  let response ←
    askUntilOk context (pageUrl host greeting.path) settings.probeAttempts settings.probeRetry
  requireStatus response statusOk greeting.path
  requireField response greeting.field (greeting.greetingAfter redeployed)

/-- The root of the route answers. -/
def checkRoute (context : Context) (name host : String) : Run Unit := do
  let response ← context.ask "GET" (pageUrl host "") none
  requireStatus response statusOk s!"route of {name}"

/-- A record that was made can be read back. -/
def checkCrud (context : Context) (crud : Crud) (host : String) : Run Unit := do
  let url := pageUrl host crud.path
  let record := Json.obj [("name", .str crud.name)]
  let created ← context.ask "POST" url (some record.render)
  requireStatus created statusCreated s!"POST {crud.path}"
  let id := (← Run.ofExcept (created.member "id")).display
  let read ← context.ask "GET" (url ++ "/" ++ id) none
  requireStatus read statusOk s!"GET {crud.path}/{id}"
  requireField read "name" crud.name

/-- The pause between two questions for a greeting after a stop. -/
def recoveryPause : Binary64 := Binary64.ofInt 1

/-- The application is alive and greets, is down once it was stopped, and comes back by itself. -/
def checkHealth (context : Context) (greeting : Greeting) (host : String) (redeployed : Bool) :
    Run Unit := do
  let livenessUrl := pageUrl host livenessPath
  let greetingUrl := pageUrl host greeting.path
  requireField (← context.ask "GET" livenessUrl none) "outcome" "UP"
  requireField (← context.ask "GET" greetingUrl none) greeting.field
    (greeting.greetingAfter redeployed)
  requireStatus (← context.ask "GET" (pageUrl host stopPath) none) statusOk stopPath
  let stopped ← context.ask "GET" livenessUrl none
  if stopped.status = statusOk then throw .stillAlive
  requireField stopped "outcome" "DOWN"
  let recovered ← askUntilOk context greetingUrl context.settings.recovery recoveryPause
  if recovered.status ≠ statusOk then throw .notRecovered

/-- The check of a booster. Boosters that were read have the settings their check needs. -/
def checkApplication (context : Context) (booster : Booster) (host : String) (redeployed : Bool) :
    Run Unit :=
  match booster.check with
  | .route => checkRoute context booster.name host
  | .greeting =>
    match booster.greeting with
    | some greeting => checkGreeting context greeting host redeployed
    | none => throw .noMembers
  | .crud =>
    match booster.crud with
    | some crud => checkCrud context crud host
    | none => throw .noMembers
  | .health =>
    match booster.greeting with
    | some greeting => checkHealth context greeting host redeployed
    | none => throw .noMembers

end Rollout
