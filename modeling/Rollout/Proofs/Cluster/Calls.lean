import Rollout.Cluster.Objects
import Rollout.Proofs.Cluster.Listing
import Rollout.Proofs.World.Courses

/-!
# Calls of the cluster

Every operation of a client is one event, which names what it is done to, whatever the cluster
answers.

- `Client.listingEvent`, `Client.getEvent`, `Client.createEvent`, `Client.editEvent`,
  `Client.deleteEvent`: the events of the operations.
- `Client.logs_list`, `Client.logs_get`, `Client.logs_create`, `Client.logs_edit`,
  `Client.logs_delete`: **the operations log them**.
- `Event.listsPods`, `Event.creates`, `Event.deletes`: which of them list pods, make an object or
  remove one.
-/

namespace Rollout

open Run (logs_pure logs_throw logs_get logs_modify logs_ofExcept logs_emit)

/-- A run that takes one answer logs its event. -/
theorem TakesAnswer.logs {α : Type} {client : Client} {event : Event} {run : Run α}
    (h : TakesAnswer client event run) : run.Logs {[event]} := by
  intro world
  have hbehind : run.behind world = (client.later world).logging [event] := by
    rw [Run.behind, h.run_eq]
    cases run.outcome world <;> rfl
  rw [hbehind]
  refine ⟨?_, [event], rfl, ?_⟩ <;> cases client <;> rfl

/-! ## Events -/

namespace Client

variable (client : Client) (space kind name : String)

/-- What a listing of a kind leaves in the log. -/
def listingEvent (selector : Option String) : Event :=
  match client with
  | .cli binary timeout =>
    .cli (binary :: (["get", kind, "-n", space, "-o", "json"] ++ selectorArgs selector)) timeout
      none
  | .store => .list space kind selector

/-- What reading an object leaves in the log. -/
def getEvent : Event :=
  match client with
  | .cli binary timeout =>
    .cli [binary, "get", kind, name, "-n", space, "-o", "json", "--ignore-not-found"] timeout none
  | .store => .get space kind name

/-- What making an object leaves in the log. -/
def createEvent (manifest : Json) : Event :=
  match client with
  | .cli binary timeout =>
    .cli [binary, "create", "-n", space, "-f", "-", "-o", "json"] timeout (some manifest.render)
  | .store => .create space kind manifest

/-- What patching an object leaves in the log. -/
def editEvent (patch : Json) : Event :=
  match client with
  | .cli binary timeout =>
    .cli [binary, "patch", kind, name, "-n", space, "--type", "merge", "-p", patch.render, "-o",
      "json"] timeout none
  | .store => .edit space kind name patch

/-- What removing an object leaves in the log. -/
def deleteEvent : Event :=
  match client with
  | .cli binary timeout =>
    .cli [binary, "delete", kind, name, "-n", space, "--ignore-not-found"] timeout none
  | .store => .delete space kind name

/-- What asking for the namespace of the current context leaves in the log. -/
def namespaceEvent (binary : String) (timeout : Int) : Event :=
  .cli [binary, "config", "view", "--minify", "-o", "jsonpath=\x7b..namespace\x7d"] timeout none

/-- The listing of an application's pods. -/
theorem listEvent_eq (app : String) :
    client.listEvent space app = client.listingEvent space podKind (some (appSelector app)) := by
  cases client <;> rfl

/-! ## What operations log -/

theorem logs_call (binary : String) (timeout : Int) (args : List String) (input : Option String) :
    (call binary timeout args input).Logs {[.cli (binary :: args) timeout input]} :=
  (takesAnswer_call binary timeout args input).logs

theorem logs_callForJson (binary : String) (timeout : Int) (args : List String)
    (input : Option String) :
    (callForJson binary timeout args input).Logs {[.cli (binary :: args) timeout input]} :=
  (logs_call binary timeout args input).bind fun _ => logs_ofExcept _

theorem logs_nextPods : Run.nextPods.Logs 1 := by
  refine Run.logs_nothing fun world => ?_
  obtain ⟨disk, store, pods, deleteFaults, replies, processes, builds, routes, remotes, absent,
    pauses, console, tracked, closed, log⟩ := world
  rcases pods with _ | ⟨batch, _ | ⟨next, more⟩⟩
  · exact ⟨rfl, rfl⟩
  · cases batch <;> exact ⟨rfl, rfl⟩
  · cases batch <;> exact ⟨rfl, rfl⟩

theorem logs_list (selector : Option String) :
    (client.list space kind selector).Logs {[client.listingEvent space kind selector]} := by
  cases client with
  | cli binary timeout =>
    exact (logs_callForJson binary timeout _ none).bind fun _ => logs_ofExcept _
  | store =>
    refine (logs_emit _).bind fun _ => ?_
    split
    · exact logs_nextPods.bind fun _ => logs_pure _
    · exact logs_get.bind fun _ => logs_pure _

theorem logs_get : (client.get space kind name).Logs {[client.getEvent space kind name]} := by
  cases client with
  | cli binary timeout =>
    refine (logs_call binary timeout _ none).bind fun output => ?_
    split
    · exact logs_pure _
    · refine (logs_ofExcept _).bind fun value => ?_
      cases value <;> exact logs_pure _
  | store => exact (logs_emit _).bind fun _ => Run.logs_get.bind fun _ => logs_pure _

theorem logs_create (manifest : Json) :
    (client.create space kind manifest).Logs {[client.createEvent space kind manifest]} := by
  cases client with
  | cli binary timeout => exact logs_callForJson binary timeout _ _
  | store =>
    refine (logs_emit _).bind fun _ => (logs_ofExcept _).bind fun name => ?_
    exact Run.Logs.bind (logs_modify (fun _ => rfl) fun _ => rfl) fun _ => logs_pure manifest

theorem logs_edit (patch : Json) :
    (client.edit space kind name patch).Logs {[client.editEvent space kind name patch]} := by
  cases client with
  | cli binary timeout => exact logs_callForJson binary timeout _ none
  | store =>
    refine (logs_emit _).bind fun _ => Run.logs_get.bind fun world => ?_
    cases world.store.find? ⟨space, kind, name⟩ with
    | none => exact logs_throw _
    | some manifest =>
      refine (logs_ofExcept _).bind fun changed => ?_
      exact Run.Logs.bind (logs_modify (fun _ => rfl) fun _ => rfl) fun _ => logs_pure changed

theorem logs_delete :
    (client.delete space kind name).Logs {[client.deleteEvent space kind name]} := by
  cases client with
  | cli binary timeout => exact (logs_call binary timeout _ none).bind fun _ => logs_pure _
  | store =>
    refine (logs_emit _).bind fun _ => Run.logs_get.bind fun world => ?_
    cases world.deleteFaults.lookup name with
    | none => exact logs_modify (fun _ => rfl) fun _ => rfl
    | some fault => exact logs_throw _

theorem logs_activeNamespace (binary : String) (timeout : Int) :
    (activeNamespace binary timeout).Logs {[namespaceEvent binary timeout]} :=
  (logs_call binary timeout _ none).bind fun _ => logs_pure _

/-! ## Objects of an application -/

theorem logs_matchingPod (app : String) (isMatch : Pod → Except Failure Bool) :
    (matchingPod client space app isMatch).Logs {[client.listEvent space app]} :=
  (takesAnswer_matchingPod client space app isMatch).logs

theorem logs_requireObject :
    (requireObject client space kind name).Logs {[client.getEvent space kind name]} := by
  refine (client.logs_get space kind name).bind fun found => ?_
  cases found with
  | none => exact logs_throw _
  | some value => exact logs_pure _

theorem logs_routeNamed :
    (routeNamed client space name).Logs {[client.listingEvent space routeKind none]} :=
  (client.logs_list space routeKind none).bind fun _ => logs_ofExcept _

theorem logs_annotatedDeployments (key : String) :
    (annotatedDeployments client space key).Logs
      {[client.listingEvent space deploymentKind none]} :=
  (client.logs_list space deploymentKind none).bind fun _ => logs_ofExcept _

end Client

/-! ## Kinds of events -/

namespace Event

/-- Whether pods are listed. -/
def listsPods : Event → Bool
  | .list _ kind _ => kind == podKind
  | .cli argv _ _ => (argv.drop 1).take 2 == ["get", podKind]
  | _ => false

/-- Whether an object is made. -/
def creates : Event → Bool
  | .create _ _ _ => true
  | .cli argv _ _ => (argv.drop 1).take 1 == ["create"]
  | _ => false

/-- Whether an object is removed. -/
def deletes : Event → Bool
  | .delete _ _ _ => true
  | .cli argv _ _ => (argv.drop 1).take 1 == ["delete"]
  | _ => false

/-- Whether a request is sent to the application. -/
def isRequest : Event → Bool
  | .request _ => true
  | _ => false

end Event

section Kinds

variable (client : Client) (space kind name : String)

@[simp] theorem isRequest_listingEvent (selector : Option String) :
    (client.listingEvent space kind selector).isRequest = false := by
  cases client <;> rfl

@[simp] theorem isRequest_getEvent : (client.getEvent space kind name).isRequest = false := by
  cases client <;> rfl

@[simp] theorem isRequest_createEvent (manifest : Json) :
    (client.createEvent space kind manifest).isRequest = false := by
  cases client <;> rfl

@[simp] theorem isRequest_editEvent (patch : Json) :
    (client.editEvent space kind name patch).isRequest = false := by
  cases client <;> rfl

@[simp] theorem creates_listingEvent (selector : Option String) :
    (client.listingEvent space kind selector).creates = false := by
  cases client <;> rfl

@[simp] theorem creates_getEvent : (client.getEvent space kind name).creates = false := by
  cases client <;> rfl

@[simp] theorem creates_createEvent (manifest : Json) :
    (client.createEvent space kind manifest).creates = true := by
  cases client <;> rfl

@[simp] theorem creates_editEvent (patch : Json) :
    (client.editEvent space kind name patch).creates = false := by
  cases client <;> rfl

@[simp] theorem creates_deleteEvent : (client.deleteEvent space kind name).creates = false := by
  cases client <;> rfl

@[simp] theorem deletes_listingEvent (selector : Option String) :
    (client.listingEvent space kind selector).deletes = false := by
  cases client <;> rfl

@[simp] theorem deletes_getEvent : (client.getEvent space kind name).deletes = false := by
  cases client <;> rfl

@[simp] theorem deletes_createEvent (manifest : Json) :
    (client.createEvent space kind manifest).deletes = false := by
  cases client <;> rfl

@[simp] theorem deletes_editEvent (patch : Json) :
    (client.editEvent space kind name patch).deletes = false := by
  cases client <;> rfl

@[simp] theorem deletes_deleteEvent : (client.deleteEvent space kind name).deletes = true := by
  cases client <;> rfl

@[simp] theorem listsPods_getEvent :
    (client.getEvent space configMapKind name).listsPods = false := by
  cases client <;> rfl

@[simp] theorem listsPods_createEvent (manifest : Json) :
    (client.createEvent space kind manifest).listsPods = false := by
  cases client <;> rfl

@[simp] theorem listsPods_editEvent (patch : Json) :
    (client.editEvent space kind name patch).listsPods = false := by
  cases client <;> rfl

end Kinds

end Rollout
