import Rollout.Http.Message
import Rollout.World.World

/-!
# Sending requests

- `faultOfRequest`: a host that cannot be resolved is a failure of the environment.
- `Http.send`: a request sent through the session of the run, or through one of its own.
-/

namespace Rollout

/-! ## Faults and sessions -/

/-- What the sender of a request makes of a fault. -/
def faultOfRequest (url : String) (fault : Fault) : Failure :=
  if fault.kind.isConnection && fault.namesNoHost then .unresolvable url else .raised fault

/-- One more session closed. -/
def closeSession : Run Unit :=
  modify fun world => { world with closed := world.closed + 1 }

/-! ## Sending -/

namespace Http

/-- A request sent through an open session. -/
def exchange (timeout : Binary64) (shared : Bool) (method url : String) (body : Option String) :
    Run Response := do
  let request ← Run.ofExcept (HttpRequest.ofMethod method url body)
  Run.emit (.request ⟨request.method, url, request.body, timeout, shared⟩)
  match ← Run.nextOutcome (request.method ++ " " ++ url) with
  | .response status body => return ⟨status, body⟩
  | .fault fault => throw (faultOfRequest url fault)

/-- A request sent through the session of the run when it is shared, otherwise through one that is
closed afterwards. -/
def send (timeout : Binary64) (shared : Bool) (method url : String) (body : Option String) :
    Run Response :=
  if shared then exchange timeout shared method url body
  else Run.ensuring (exchange timeout shared method url body) closeSession

end Http

end Rollout
