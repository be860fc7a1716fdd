import Mathlib.Logic.Function.Iterate
import Rollout.Cluster.Wait
import Rollout.Proofs.World.Runs

/-!
# Listings of pods

A listing asks the cluster once for the pods of an application. What it shows depends only on the
answers that are still to come, so that the listings of a poll form a sequence that is fixed when
the poll begins.

- `Wanted`, `Suits`, `examine`: what a wait looks for, as a condition on a pod and as a test of it.
- `Client.listing`, `observed`: the manifests that a listing gives, and the pods they show.
- `Client.later`: the world once a listing was answered.
- `TakesAnswer`: what a run does that takes one answer; `takesAnswer_podsOf` and
  `takesAnswer_matchingPod` say so of **one listing**.
- `Client.listed`, `Client.shown`: the manifests and the pods of every listing to come.
- `listed_of_script`: **any sequence** of listings can be laid down.
-/

namespace Rollout

/-! ## What a wait looks for -/

/-- What a pod has to carry besides being ready: an annotation of this key and value, or nothing. -/
abbrev Wanted := Option (String × String)

/-- The test that a wait puts pods to. -/
def examine : Wanted → Pod → Except Failure Bool
  | none => matchesReady
  | some (key, value) => matchesAnnotated key value

/-- A wait for a pod that is ready, and for an annotation if one is wanted. -/
def waitFor (client : Client) (space app : String) (wanted : Wanted) (limits : PollLimits) :
    Run Pod :=
  match wanted with
  | none => waitForReadyPod client space app limits
  | some (key, value) => waitForAnnotatedPod client space app key value limits

/-- The pod is ready and carries what is wanted: a text under exactly the key, with the lower-case
form of the value. -/
def Suits (wanted : Wanted) (pod : Pod) : Prop :=
  pod.ready = true ∧ ∀ key value, wanted = some (key, value) →
    ∃ actual, pod.annotations.lookup key = some (.str actual) ∧
      Text.lower actual = Text.lower value

/-- The annotation that is looked for is a text, unless it is missing or null. -/
def Legible (wanted : Wanted) (pod : Pod) : Prop :=
  ∀ key value, wanted = some (key, value) → ∀ annotation,
    pod.annotations.lookup key = some annotation →
      annotation = .null ∨ ∃ actual, annotation = .str actual

theorem waitFor_eq (client : Client) (space app : String) (wanted : Wanted)
    (limits : PollLimits) :
    waitFor client space app wanted limits
      = pollPods app limits (matchingPod client space app (examine wanted)) := by
  cases wanted <;> rfl

theorem carries_eq_true {key value : String} {pod : Pod} :
    pod.carries key value = .ok true ↔
      ∃ actual, pod.annotations.lookup key = some (.str actual) ∧
        Text.lower actual = Text.lower value := by
  unfold Pod.carries Text.sameIgnoringCase
  cases h : pod.annotations.lookup key with
  | none => simp
  | some annotation => cases annotation <;> simp

/-- **The test is passed** by the pods that suit, and by no other. -/
theorem examine_eq_true {wanted : Wanted} {pod : Pod} :
    examine wanted pod = .ok true ↔ Suits wanted pod := by
  unfold Suits
  cases wanted with
  | none => simp [examine, matchesReady]
  | some entry =>
    obtain ⟨key, value⟩ := entry
    show matchesAnnotated key value pod = .ok true ↔ _
    unfold matchesAnnotated
    cases hready : pod.ready with
    | false => simp
    | true =>
      rw [if_pos rfl, carries_eq_true]
      constructor
      · rintro h
        refine ⟨rfl, ?_⟩
        rintro _ _ ⟨⟩
        exact h
      · exact fun h => h.2 key value rfl

theorem toOption_examine {wanted : Wanted} {pod : Pod} :
    (examine wanted pod).toOption = some true ↔ examine wanted pod = .ok true := by
  cases examine wanted pod <;> simp [Except.toOption]

/-- A pod whose annotation can be read is tested without a failure. -/
theorem Legible.exists_examine {wanted : Wanted} {pod : Pod} (h : Legible wanted pod) :
    ∃ passed, examine wanted pod = .ok passed := by
  cases wanted with
  | none => exact ⟨pod.ready, rfl⟩
  | some entry =>
    obtain ⟨key, value⟩ := entry
    show ∃ passed, matchesAnnotated key value pod = .ok passed
    unfold matchesAnnotated Pod.carries
    cases pod.ready with
    | false => exact ⟨false, rfl⟩
    | true =>
      rw [if_pos rfl]
      cases hlookup : pod.annotations.lookup key with
      | none => exact ⟨false, rfl⟩
      | some annotation =>
        rcases h key value rfl annotation hlookup with rfl | ⟨actual, rfl⟩
        · exact ⟨false, rfl⟩
        · exact ⟨_, rfl⟩

/-- Whether a pod suits can be tried out: a failure of the test counts as no. -/
instance (wanted : Wanted) : DecidablePred (Suits wanted) := fun _ =>
  decidable_of_iff _ (toOption_examine.trans examine_eq_true)

/-! ## The first pod that matches -/

section FirstMatch

variable {wanted : Wanted} {pods : List Pod}

/-- **What a search gives** is the first pod that suits. -/
theorem eq_find?_of_firstMatch {found : Option Pod}
    (h : Pod.firstMatch (examine wanted) pods = .ok found) :
    found = pods.find? fun pod => Suits wanted pod := by
  induction pods with
  | nil =>
    cases h
    rfl
  | cons first rest ih =>
    rw [Pod.firstMatch] at h
    cases hfirst : examine wanted first with
    | error failure =>
      rw [hfirst] at h
      cases h
    | ok passed =>
      rw [hfirst] at h
      cases passed with
      | true =>
        have hsuits : Suits wanted first := examine_eq_true.mp hfirst
        cases h
        exact (List.find?_cons_of_pos (by simpa using hsuits)).symm
      | false =>
        have hsuits : ¬ Suits wanted first := by
          rw [← examine_eq_true, hfirst]
          simp
        rw [List.find?_cons_of_neg (by simpa using hsuits)]
        exact ih h

/-- A search of pods whose annotations can be read does not fail. -/
theorem firstMatch_of_legible (h : ∀ pod ∈ pods, Legible wanted pod) :
    Pod.firstMatch (examine wanted) pods = .ok (pods.find? fun pod => Suits wanted pod) := by
  have hfound : ∃ found, Pod.firstMatch (examine wanted) pods = .ok found := by
    induction pods with
    | nil => exact ⟨none, rfl⟩
    | cons first rest ih =>
      obtain ⟨hfirst, hrest⟩ := List.forall_mem_cons.mp h
      obtain ⟨passed, hpassed⟩ := hfirst.exists_examine
      obtain ⟨found, hfound⟩ := ih hrest
      rw [Pod.firstMatch, hpassed]
      cases passed with
      | true => exact ⟨some first, rfl⟩
      | false => exact ⟨found, hfound⟩
  obtain ⟨found, hfound⟩ := hfound
  rw [hfound, eq_find?_of_firstMatch hfound]

end FirstMatch

/-! ## Answers of the cluster -/

/-- The pods that manifests show, newest first. -/
def observed (manifests : List Json) : Except Failure (List Pod) := do
  Pod.newestFirst (← manifests.mapM Pod.ofManifest)

namespace Client

/-- The manifests of an application's pods. -/
def listing (client : Client) (space app : String) : Run (List Json) := do
  let value ← client.list space podKind (some (appSelector app))
  Run.ofExcept value.items

/-- What a listing leaves in the log. -/
def listEvent (client : Client) (space app : String) : Event :=
  match client with
  | .cli binary timeout =>
    .cli (binary :: ["get", podKind, "-n", space, "-o", "json"]
      ++ selectorArgs (some (appSelector app))) timeout none
  | .store => .list space podKind (some (appSelector app))

/-- The batches that are left after one listing: the last one stays. -/
def laterBatches : List PodBatch → List PodBatch
  | _ :: next :: more => next :: more
  | batches => batches

/-- The world once a listing was answered. -/
def later (client : Client) (world : World) : World :=
  match client with
  | .cli _ _ => { world with replies := world.replies.tail }
  | .store => { world with pods := laterBatches world.pods }

theorem later_logging (client : Client) (events : List Event) (world : World) :
    client.later (world.logging events) = (client.later world).logging events := by
  cases client <;> rfl

theorem later_iterate_logging (client : Client) (events : List Event) (i : Nat) (world : World) :
    client.later^[i] (world.logging events) = (client.later^[i] world).logging events :=
  (Function.Semiconj.iterate_right (fun w => (client.later_logging events w).symm) i world).symm

theorem calm_later {client : Client} {world : World} (h : world.Calm) :
    (client.later world).Calm := by
  cases client <;> exact h

end Client

/-! ## Runs that take one answer -/

/-- The run takes one answer of the cluster and logs one event, whatever it gives, and what it gives
does not depend on the log. -/
structure TakesAnswer {α : Type} (client : Client) (event : Event) (run : Run α) : Prop where
  run_eq : ∀ world,
    run world = Run.ending (run.outcome world) ((client.later world).logging [event])
  outcome_logging : ∀ world events, run.outcome (world.logging events) = run.outcome world

section TakesAnswer

variable {α β : Type} {client : Client} {event : Event} {run : Run α}

/-- A run whose result and world are known. -/
theorem takesAnswer_of_run {result : World → Except Failure α}
    (h : ∀ world, run world = Run.ending (result world) ((client.later world).logging [event]))
    (hlog : ∀ world events, result (world.logging events) = result world) :
    TakesAnswer client event run := by
  have houtcome : ∀ world, run.outcome world = result world := fun world =>
    Run.outcome_of_ending (h world)
  refine ⟨fun world => ?_, fun world events => ?_⟩
  · rw [houtcome, h]
  · rw [houtcome, houtcome, hlog]

theorem TakesAnswer.bind_run (h : TakesAnswer client event run) (f : α → Except Failure β)
    (world : World) :
    (run >>= fun a => Run.ofExcept (f a)) world
      = Run.ending (run.outcome world >>= f) ((client.later world).logging [event]) := by
  have hrun := h.run_eq world
  cases hresult : run.outcome world with
  | ok a =>
    rw [hresult] at hrun
    rw [Run.bind_of_ok hrun]
    exact Run.ofExcept_run (f a) _
  | error failure =>
    rw [hresult] at hrun
    exact Run.bind_of_error hrun

/-- What is made of an answer takes no other. -/
theorem TakesAnswer.bind (h : TakesAnswer client event run) (f : α → Except Failure β) :
    TakesAnswer client event (run >>= fun a => Run.ofExcept (f a)) :=
  takesAnswer_of_run (h.bind_run f) fun world events => by rw [h.outcome_logging]

theorem TakesAnswer.outcome_bind (h : TakesAnswer client event run) (f : α → Except Failure β)
    (world : World) :
    (run >>= fun a => Run.ofExcept (f a)).outcome world = run.outcome world >>= f :=
  Run.outcome_of_ending (h.bind_run f world)

end TakesAnswer

/-! ## One listing -/

section Listing

/-- What a reply says to a call of the command line. -/
def Reply.said (binary : String) (timeout : Int) (args : List String) :
    Reply → Except Failure String
  | .exited status output errors =>
    if status = 0 then .ok output else .error (.clusterCall binary args errors)
  | .timedOut =>
    let argv := shownTexts (binary :: args)
    .error (.clusterCall binary args s!"Command '{argv}' timed out after {timeout} seconds")
  | .notStarted reason => .error (.clusterCall binary args reason)
  | .undecodable => .error .notText

/-- A call of the command line gives what the next reply says. -/
theorem call_run (binary : String) (timeout : Int) (args : List String) (input : Option String)
    (world : World) :
    Client.call binary timeout args input world
      = Run.ending ((world.replies.headD (.exited 1 "" "no reply")).said binary timeout args)
          ((Client.later (.cli binary timeout) world).logging
            [.cli (binary :: args) timeout input]) := by
  obtain ⟨disk, store, pods, deleteFaults, replies, processes, builds, routes, remotes, absent,
    pauses, console, tracked, closed, log⟩ := world
  cases replies with
  | nil => rfl
  | cons reply replies =>
    cases reply with
    | exited status output errors =>
      show (if status = 0 then pure output else throw (.clusterCall binary args errors)
        : Run String) _ = Run.ending (if status = 0 then _ else _) _
      split <;> rfl
    | timedOut => rfl
    | notStarted reason => rfl
    | undecodable => rfl

/-- A call of the command line takes one reply. -/
theorem takesAnswer_call (binary : String) (timeout : Int) (args : List String)
    (input : Option String) :
    TakesAnswer (.cli binary timeout) (.cli (binary :: args) timeout input)
      (Client.call binary timeout args input) :=
  takesAnswer_of_run (call_run binary timeout args input) fun _ _ => rfl

/-- What a batch of a script shows. -/
def PodBatch.manifests : PodBatch → Except Failure (List Json)
  | .pods manifests => .ok manifests
  | .fault raised => .error (.raised raised)

/-- Stored objects answer with the next batch. -/
theorem listBatch_run (space app : String) (world : World) :
    Client.store.list space podKind (some (appSelector app)) world
      = Run.ending ((world.pods.headD (.pods [])).manifests.map Json.arr)
          ((Client.store.later world).logging [.list space podKind (some (appSelector app))]) := by
  obtain ⟨disk, store, pods, deleteFaults, replies, processes, builds, routes, remotes, absent,
    pauses, console, tracked, closed, log⟩ := world
  rcases pods with _ | ⟨batch, _ | ⟨next, more⟩⟩
  · rfl
  · cases batch <;> rfl
  · cases batch <;> rfl

theorem takesAnswer_listBatch (space app : String) :
    TakesAnswer .store (.list space podKind (some (appSelector app)))
      (Client.store.list space podKind (some (appSelector app))) :=
  takesAnswer_of_run (listBatch_run space app) fun _ _ => rfl

variable (client : Client) (space app : String)

theorem takesAnswer_list :
    TakesAnswer client (client.listEvent space app)
      (client.list space podKind (some (appSelector app))) := by
  cases client with
  | cli binary timeout =>
    exact ((takesAnswer_call binary timeout _ none).bind Json.ofText).bind
      fun value => value.askedOr "items" (.arr [])
  | store => exact takesAnswer_listBatch space app

theorem takesAnswer_podsOf :
    TakesAnswer client (client.listEvent space app) (podsOf client space app) :=
  (takesAnswer_list client space app).bind fun value => value.items >>= observed

theorem takesAnswer_matchingPod (isMatch : Pod → Except Failure Bool) :
    TakesAnswer client (client.listEvent space app) (matchingPod client space app isMatch) :=
  (takesAnswer_podsOf client space app).bind (Pod.firstMatch isMatch)

/-- **The pods** of an application are those that the manifests of a listing show. -/
theorem outcome_podsOf (world : World) :
    (podsOf client space app).outcome world
      = (client.listing space app).outcome world >>= observed := by
  have hlist := takesAnswer_list client space app
  have hmanifests : (client.listing space app).outcome world
      = (client.list space podKind (some (appSelector app))).outcome world >>= Json.items :=
    hlist.outcome_bind Json.items world
  rw [hmanifests, bind_assoc]
  exact hlist.outcome_bind (fun value => value.items >>= observed) world

/-- **The pod that matches** is looked for among the pods of one listing. -/
theorem outcome_matchingPod (isMatch : Pod → Except Failure Bool) (world : World) :
    (matchingPod client space app isMatch).outcome world
      = (podsOf client space app).outcome world >>= Pod.firstMatch isMatch :=
  (takesAnswer_podsOf client space app).outcome_bind (Pod.firstMatch isMatch) world

end Listing

/-! ## The listings to come -/

/-- The manifests that the listing behind `i` others gives. -/
def Client.listed (client : Client) (space app : String) (world : World) (i : Nat) :
    Except Failure (List Json) :=
  (client.listing space app).outcome (client.later^[i] world)

/-- The pods that the listing behind `i` others shows. -/
def Client.shown (client : Client) (space app : String) (world : World) (i : Nat) :
    Except Failure (List Pod) :=
  (podsOf client space app).outcome (client.later^[i] world)

theorem Client.shown_eq (client : Client) (space app : String) (world : World) (i : Nat) :
    client.shown space app world i = client.listed space app world i >>= observed :=
  outcome_podsOf client space app _

/-- The listings behind the first one. -/
theorem Client.shown_later (client : Client) (space app : String) (world : World) (i : Nat) :
    client.shown space app (client.later world) i = client.shown space app world (i + 1) := rfl

/-- The log does not matter to the listings to come. -/
theorem Client.shown_logging (client : Client) (space app : String) (world : World)
    (events : List Event) (i : Nat) :
    client.shown space app (world.logging events) i = client.shown space app world i := by
  unfold Client.shown
  rw [Client.later_iterate_logging]
  exact (takesAnswer_podsOf client space app).outcome_logging _ events

/-- **Any sequence** of listings can be laid down: each batch of a script is one of them. -/
theorem listed_of_script (space app : String) {world : World} {i : Nat}
    (hi : i < world.pods.length) :
    Client.store.listed space app world i = (world.pods[i]).manifests := by
  induction i generalizing world with
  | zero =>
    obtain ⟨batch, more, hpods⟩ := List.exists_cons_of_length_pos hi
    have hlist : (Client.store.list space podKind (some (appSelector app))).outcome world
        = batch.manifests.map Json.arr := by
      rw [Run.outcome_of_ending (listBatch_run space app world), hpods, List.headD_cons]
    have hlisting : Client.store.listed space app world 0 = batch.manifests := by
      show (Client.store.listing space app).outcome world = _
      rw [Client.listing, (takesAnswer_listBatch space app).outcome_bind, hlist]
      cases batch <;> rfl
    simp only [hlisting, hpods, List.getElem_cons_zero]
  | succ i ih =>
    -- as another batch follows, the first one is gone once it was shown
    obtain ⟨batch, next, more, hpods⟩ : ∃ batch next more, world.pods = batch :: next :: more := by
      match hworld : world.pods with
      | [] => simp [hworld] at hi
      | [_] => simp [hworld] at hi
      | batch :: next :: more => exact ⟨batch, next, more, rfl⟩
    have hlater : (Client.store.later world).pods = next :: more := by
      show Client.laterBatches world.pods = _
      rw [hpods]
      rfl
    have hi' : i < (Client.store.later world).pods.length := by
      rw [hlater]
      rw [hpods] at hi
      exact Nat.lt_of_succ_lt_succ hi
    have hrest := ih hi'
    simp only [hlater] at hrest
    simp only [hpods, List.getElem_cons_succ]
    exact hrest

end Rollout
