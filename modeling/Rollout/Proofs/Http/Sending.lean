import Rollout.Http.Exchange
import Rollout.Proofs.Http.Search
import Rollout.Proofs.World.Lookups
import Rollout.Proofs.World.Runs

/-!
# Requests and their outcomes

A request takes the next outcome of its method and address. A response is given whatever its status
is, and a fault is raised as it is, unless it is a failure to connect that came from a failed name
resolution.

- `World.outcomeOf`: the outcome of a request behind others.
- `World.answered`, `Http.sent`: the world once a request was answered.
- `Http.send_run`: **one request**, with what it gives and the world it leaves.
- `Http.send_unresolved_iff`: **the environment** is to blame exactly when a failed name resolution
  is reached from a failure to connect.
-/

namespace Rollout

/-! ## Outcomes to come -/

/-- The outcomes laid down for a request. -/
def World.outcomes (key : String) (world : World) : List Outcome :=
  (world.routes.lookup key).getD []

/-- The outcome of a request behind `i` others of the same method and address: those that are laid
down come one after the other, and the last one stays. -/
def World.outcomeOf (key : String) (world : World) (i : Nat) : Outcome :=
  (world.outcomes key).getD (min i ((world.outcomes key).length - 1)) (.response 404 "no route")

/-- **Any sequence** of outcomes can be laid down. -/
theorem World.outcomeOf_of_script {key : String} {world : World} {outcomes : List Outcome}
    (h : world.routes.lookup key = some outcomes) {i : Nat} (hi : i < outcomes.length) :
    world.outcomeOf key i = outcomes[i] := by
  have houtcomes : world.outcomes key = outcomes := by
    rw [World.outcomes, h, Option.getD_some]
  rw [outcomeOf, houtcomes, Nat.min_eq_left (Nat.le_sub_one_of_lt hi),
    List.getD_eq_getElem?_getD, List.getElem?_eq_getElem hi, Option.getD_some]

/-- What an outcome is to the sender of a request. -/
def Outcome.received (url : String) : Outcome → Except Failure Response
  | .response status body => .ok ⟨status, body⟩
  | .fault raised => .error (faultOfRequest url raised)

namespace Run

theorem advance_cons_of_ne {key k : String} (h : k ≠ key) (outcomes : List Outcome)
    (routes : List (String × List Outcome)) :
    advance key ((k, outcomes) :: routes) = (k, outcomes) :: advance key routes := by
  simp [advance, h]

/-- Once a request was answered, its outcome is gone unless it is the last one. -/
theorem lookup_advance (key : String) (routes : List (String × List Outcome)) :
    (advance key routes).lookup key
      = (routes.lookup key).map fun outcomes =>
          if 1 < outcomes.length then outcomes.tail else outcomes := by
  induction routes with
  | nil => rfl
  | cons route rest ih =>
    obtain ⟨k, outcomes⟩ := route
    by_cases hkey : k = key
    · subst hkey
      rcases outcomes with _ | ⟨first, _ | ⟨next, more⟩⟩ <;> simp [advance]
    · rw [advance_cons_of_ne hkey, lookup_cons_eq_ite, lookup_cons_eq_ite, ih,
        if_neg (Ne.symm hkey), if_neg (Ne.symm hkey)]

/-- Where no outcome is laid down, none is taken. -/
theorem advance_of_nil {key : String} {routes : List (String × List Outcome)}
    (h : (routes.lookup key).getD [] = []) : advance key routes = routes := by
  induction routes with
  | nil => rfl
  | cons route rest ih =>
    obtain ⟨k, outcomes⟩ := route
    by_cases hkey : k = key
    · subst hkey
      obtain rfl : outcomes = [] := by simpa using h
      simp [advance]
    · rw [lookup_cons_eq_ite, if_neg (Ne.symm hkey)] at h
      rw [advance_cons_of_ne hkey, ih h]

end Run

/-- The world once a request was answered. -/
def World.answered (key : String) (world : World) : World :=
  { world with routes := Run.advance key world.routes }

/-- The outcomes behind the first one. -/
theorem World.outcomeOf_answered (key : String) (world : World) (i : Nat) :
    (world.answered key).outcomeOf key i = world.outcomeOf key (i + 1) := by
  have houtcomes : (world.answered key).outcomes key
      = if 1 < (world.outcomes key).length then (world.outcomes key).tail
        else world.outcomes key := by
    unfold outcomes answered
    rw [Run.lookup_advance]
    cases world.routes.lookup key <;> rfl
  unfold outcomeOf
  rw [houtcomes]
  rcases world.outcomes key with _ | ⟨first, _ | ⟨next, more⟩⟩
  · rfl
  · simp
  · simp [Nat.add_min_add_right]

/-- A request takes the first of its outcomes. -/
theorem Run.nextOutcome_run (key : String) (world : World) :
    nextOutcome key world = .ok (world.outcomeOf key 0) (world.answered key) := by
  have hget : (get : Run World) world = .ok world world := rfl
  rw [nextOutcome, bind_of_ok hget]
  unfold World.outcomeOf World.outcomes World.answered
  cases houtcomes : (world.routes.lookup key).getD [] with
  | nil =>
    rw [advance_of_nil houtcomes]
    rfl
  | cons outcome rest =>
    rw [Nat.zero_min]
    rfl

/-! ## One request -/

namespace Http

/-- The world once a request was sent and answered. A session of its own is closed behind it. -/
def sent (timeout : Binary64) (shared : Bool) (request : HttpRequest) (world : World) : World :=
  { (world.answered (request.method ++ " " ++ request.url)).logging
      [.request ⟨request.method, request.url, request.body, timeout, shared⟩] with
    closed := if shared then world.closed else world.closed + 1 }

variable {method url : String} {body : Option String} {request : HttpRequest}

theorem url_of_ofMethod (h : HttpRequest.ofMethod method url body = .ok request) :
    request.url = url := by
  unfold HttpRequest.ofMethod at h
  dsimp only at h
  split at h
  · cases h
  · split at h <;>
    · cases h
      rfl

theorem exchange_run (h : HttpRequest.ofMethod method url body = .ok request) (timeout : Binary64)
    (shared : Bool) (world : World) :
    exchange timeout shared method url body world
      = Run.ending ((world.outcomeOf (request.method ++ " " ++ url) 0).received url)
          ((world.answered (request.method ++ " " ++ url)).logging
            [.request ⟨request.method, url, request.body, timeout, shared⟩]) := by
  have hrequest :
      Run.ofExcept (HttpRequest.ofMethod method url body) world = .ok request world := by
    rw [h]
    rfl
  have hemit : ∀ event, Run.emit event world = .ok () (world.logging [event]) := fun _ => rfl
  rw [exchange, Run.bind_of_ok hrequest, Run.bind_of_ok (hemit _),
    Run.bind_of_ok (Run.nextOutcome_run _ _)]
  show (match world.outcomeOf (request.method ++ " " ++ url) 0 with
    | .response status body => pure ⟨status, body⟩
    | .fault fault => throw (faultOfRequest url fault) : Run Response) _ = _
  cases world.outcomeOf (request.method ++ " " ++ url) 0 <;> rfl

/-- **One request**, through the session of the run or one of its own. -/
theorem send_run (h : HttpRequest.ofMethod method url body = .ok request) (timeout : Binary64)
    (shared : Bool) (world : World) :
    send timeout shared method url body world
      = Run.ending ((world.outcomeOf (request.method ++ " " ++ url) 0).received url)
          (sent timeout shared request world) := by
  obtain rfl := url_of_ofMethod h
  have hexchange := exchange_run h timeout shared world
  cases shared with
  | true => exact hexchange
  | false => exact Run.ensuring_run hexchange rfl

/-! ## Failures of requests -/

/-- Only a failure to connect that came from a failed name resolution is one of the environment. -/
theorem category_faultOfRequest (url : String) (fault : Fault) :
    (faultOfRequest url fault).category = .environment
      ↔ fault.kind.isConnection = true ∧ fault.Unresolved := by
  have hkind : ∀ kind : FaultKind, kind.category ≠ .environment := fun kind => by
    cases kind <;> exact nofun
  rw [← Fault.namesNoHost_iff, ← Bool.and_eq_true, faultOfRequest]
  split
  · rename_i hunresolved
    exact iff_of_true rfl hunresolved
  · rename_i hother
    exact iff_of_false (hkind _) hother

theorem faultOfRequest_of_unresolved {fault : Fault} (url : String)
    (h : fault.kind.isConnection = true ∧ fault.Unresolved) :
    faultOfRequest url fault = .unresolvable url := by
  rw [← Fault.namesNoHost_iff, ← Bool.and_eq_true] at h
  exact if_pos h

theorem faultOfRequest_of_other {fault : Fault} (url : String)
    (h : ¬ (fault.kind.isConnection = true ∧ fault.Unresolved)) :
    faultOfRequest url fault = .raised fault := by
  rw [← Fault.namesNoHost_iff, ← Bool.and_eq_true] at h
  exact if_neg h

/-- **Hosts that cannot be resolved.** The search through the faults that led to another one ends on
every graph, cycles included, expands none of them twice, and finds a failed name resolution exactly
when one is reached. A request fails because of its environment exactly when sending it raised a
failure to connect from which one is reached; any other fault is raised as it is, and a response is
given whatever its status is. -/
theorem send_unresolved_iff (h : HttpRequest.ofMethod method url body = .ok request)
    (timeout : Binary64) (shared : Bool) (world : World) :
    -- the search
    (∀ fault : Fault,
      (WellFounded fun after before => fault.Round before after) ∧
      (∃ last, Relation.ReflTransGen fault.Round fault.search last ∧
        fault.Ends last fault.namesNoHost ∧ last.expanded.Nodup) ∧
      (fault.namesNoHost = true ↔ fault.Unresolved)) ∧
    -- the failures that blame the environment
    ((∃ failure behind, send timeout shared method url body world = .error failure behind ∧
        failure.category = .environment) ↔
      ∃ fault, world.outcomeOf (request.method ++ " " ++ url) 0 = .fault fault ∧
        fault.kind.isConnection = true ∧ fault.Unresolved) ∧
    -- every outcome
    (∀ fault, world.outcomeOf (request.method ++ " " ++ url) 0 = .fault fault →
      (fault.kind.isConnection = true ∧ fault.Unresolved →
        send timeout shared method url body world
          = .error (.unresolvable url) (sent timeout shared request world)) ∧
      (¬ (fault.kind.isConnection = true ∧ fault.Unresolved) →
        send timeout shared method url body world
          = .error (.raised fault) (sent timeout shared request world))) ∧
    ∀ status answer, world.outcomeOf (request.method ++ " " ++ url) 0 = .response status answer →
      send timeout shared method url body world
        = .ok ⟨status, answer⟩ (sent timeout shared request world) := by
  rw [send_run h]
  refine ⟨fun fault => ⟨fault.wellFounded_round, fault.exists_search, fault.namesNoHost_iff⟩,
    ⟨?_, ?_⟩, fun fault hfault => ?_, fun status answer hresponse => ?_⟩
  · rintro ⟨failure, behind, hrun, hcategory⟩
    cases houtcome : world.outcomeOf (request.method ++ " " ++ url) 0 with
    | response status answer =>
      rw [houtcome] at hrun
      cases hrun
    | fault fault =>
      rw [houtcome] at hrun
      cases hrun
      exact ⟨fault, rfl, (category_faultOfRequest url fault).mp hcategory⟩
  · rintro ⟨fault, hfault, hunresolved⟩
    rw [hfault]
    exact ⟨_, _, rfl, (category_faultOfRequest url fault).mpr hunresolved⟩
  · rw [hfault]
    refine ⟨fun hunresolved => ?_, fun hother => ?_⟩
    · rw [← faultOfRequest_of_unresolved url hunresolved]
      rfl
    · rw [← faultOfRequest_of_other url hother]
      rfl
  · rw [hresponse]
    rfl

/-- A host without an address: the failure to connect holds what was retried, whose reason is the
failed name resolution, and it arose while a fault was handled that it had caused itself. -/
def unknownHost : Fault where
  nodes := [⟨.connection, [.fault 1], none, none, some 2⟩,
    ⟨.system, [], some (.fault 3), none, none⟩,
    ⟨.value, [], none, some 0, none⟩, ⟨.nameResolution, [], none, none, none⟩]
  start := 0

theorem send_unresolved_iff_unknownHost :
    send .zero true "get" "http://demo/" none
        { World.start ⟨[]⟩ with routes := [("GET http://demo/", [.fault unknownHost])] }
      = .error (.unresolvable "http://demo/")
          (sent .zero true ⟨"GET", "http://demo/", [], none⟩
            { World.start ⟨[]⟩ with routes := [("GET http://demo/", [.fault unknownHost])] }) := by
  have hget : HttpRequest.ofMethod "get" "http://demo/" none
      = .ok ⟨"GET", "http://demo/", [], none⟩ := rfl
  have hretried : unknownHost.Links 0 1 := .arg rfl (List.mem_singleton_self _)
  have hreason : unknownHost.Links 1 3 := .reason rfl rfl
  have hreached : unknownHost.Unresolved :=
    ⟨3, _, (Relation.ReflTransGen.single hretried).tail hreason, rfl, rfl⟩
  exact ((send_unresolved_iff hget .zero true _).2.2.1 unknownHost rfl).1 ⟨rfl, hreached⟩

end Http

end Rollout
