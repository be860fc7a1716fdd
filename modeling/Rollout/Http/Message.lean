import Rollout.Failure
import Rollout.Json.Access
import Rollout.Json.Printer
import Rollout.Json.Reader
import Rollout.Text.Case

/-!
# Requests and responses

- `HttpRequest.ofMethod`: a request of a supported method.
- `Response.json`, `Response.member`: the body of a response as JSON.
-/

namespace Rollout

/-! ## Requests -/

/-- A request. -/
structure HttpRequest where
  method : String
  url : String
  headers : List (String × String)
  body : Option String
  deriving DecidableEq, Repr

/-- The methods that can be sent. -/
def supportedMethods : List String := ["GET", "POST", "PUT", "DELETE"]

/-- The type of every body that is sent. -/
def jsonContentType : String := "application/json; charset=utf-8"

/-- A request of a supported method, whose letters may be small. All methods but `GET` carry a
body, an empty object when none is given. -/
def HttpRequest.ofMethod (method url : String) (body : Option String) :
    Except Failure HttpRequest :=
  let name := Text.upper method
  if !supportedMethods.contains name then .error (.unsupportedMethod name)
  else if name == "GET" then .ok ⟨name, url, [], none⟩
  else .ok ⟨name, url, [("Content-Type", jsonContentType)], some (body.getD (Json.obj []).render)⟩

/-! ## Responses -/

/-- A response. -/
structure Response where
  status : Int
  body : String
  deriving DecidableEq, Repr

namespace Response

/-- The body as JSON. -/
def json (response : Response) : Except Failure Json :=
  match Json.read? response.body with
  | some value => .ok value
  | none => .error (.notJson response.body)

/-- A member of the body, which has to be an object that has it. -/
def member (name : String) (response : Response) : Except Failure Json := do
  match (← response.json).member? name with
  | some value => return value
  | none => .error (.noField name response.body)

end Response

end Rollout
