import Rollout.Proofs.Cluster.Newest

/-!
# Polls

A poll goes through the listings to come until one of them ends it: with a pod that suits, with a
failure, or as the last one that is made.

- `Client.seen`: the first pod that suits in the listing behind others.
- `pollEvents`: listings with a pause in between.
- `retry_run`: the listings of a poll, one by one.
- `waitFor_run`: **how a poll ends**, with every listing and every pause that it makes.
-/

namespace Rollout

/-- The first pod that suits in the listing behind `i` others. -/
def Client.seen (client : Client) (space app : String) (wanted : Wanted) (world : World) (i : Nat) :
    Except Failure (Option Pod) :=
  client.shown space app world i >>= Pod.firstMatch (examine wanted)

/-- What a number of listings leaves in the log, with a pause between any two. -/
def pollEvents (listing : Event) (interval : Binary64) (listings : Nat) : List Event :=
  (List.replicate listings listing).intersperse (.sleep interval)

theorem pollEvents_succ (listing : Event) (interval : Binary64) (k : Nat) :
    pollEvents listing interval (k + 2)
      = [listing, .sleep interval] ++ pollEvents listing interval (k + 1) := by
  unfold pollEvents
  rw [List.replicate_succ, List.replicate_succ, List.intersperse_cons_cons]
  rfl

section Poll

variable {client : Client} {space app : String} {wanted : Wanted} {world : World}

/-! ## The listings of a poll -/

/-- The first listing: what it shows, and the world behind it. -/
theorem matchingPod_run (client : Client) (space app : String) (wanted : Wanted) (world : World) :
    matchingPod client space app (examine wanted) world
      = Run.ending (client.seen space app wanted world 0)
          ((client.later world).logging [client.listEvent space app]) := by
  have hrun := (takesAnswer_matchingPod client space app (examine wanted)).run_eq world
  rw [outcome_matchingPod] at hrun
  exact hrun

/-- What the next listings show is known before the first one, whatever it logs. -/
theorem seen_later (events : List Event) (i : Nat) :
    client.seen space app wanted ((client.later world).logging events) i
      = client.seen space app wanted world (i + 1) := by
  unfold Client.seen
  rw [Client.shown_logging, Client.shown_later]

/-- **The listings of a poll** up to the one that ends it: the first that does not come back
without a pod, or the last one. -/
theorem retry_run (interval : Binary64) {n k : Nat} (calm : world.Calm) (hk : k ≤ n)
    (hbefore : ∀ i < k, client.seen space app wanted world i = .ok none)
    (hend : k = n ∨ client.seen space app wanted world k ≠ .ok none) :
    Run.retry (matchingPod client space app (examine wanted)) Option.isSome Run.isCancelled
        (Run.sleep interval) n world
      = Run.ending (client.seen space app wanted world k)
          ((client.later^[k + 1] world).logging
            (pollEvents (client.listEvent space app) interval (k + 1))) := by
  have hlisting := matchingPod_run client space app wanted world
  induction n generalizing k world with
  | zero =>
    obtain rfl : k = 0 := Nat.le_zero.mp hk
    exact hlisting
  | succ n ih =>
    cases k with
    | zero =>
      have hseen : client.seen space app wanted world 0 ≠ .ok none :=
        hend.resolve_left (Nat.succ_ne_zero n).symm
      cases hfirst : client.seen space app wanted world 0 with
      | error failure =>
        rw [hfirst] at hlisting
        exact Run.retry_of_error hlisting (n + 1)
      | ok found =>
        rw [hfirst] at hlisting
        cases found with
        | none => exact absurd hfirst hseen
        | some pod => exact Run.retry_of_accepted hlisting rfl (n + 1)
    | succ k =>
      -- the first listing shows no pod: the others are those of a poll with one try less
      have hcalm : ((client.later world).logging [client.listEvent space app]).Calm :=
        Client.calm_later calm
      rw [hbefore 0 (Nat.succ_pos k)] at hlisting
      rw [Run.retry_of_rejected hlisting rfl (Run.isCancelled_of_calm hcalm)
        (Run.sleep_of_calm hcalm interval), World.logging_logging]
      have hcalm' : ((client.later world).logging
          ([client.listEvent space app] ++ [.sleep interval])).Calm := Client.calm_later calm
      have hbefore' : ∀ i < k, client.seen space app wanted
          ((client.later world).logging ([client.listEvent space app] ++ [.sleep interval])) i
            = .ok none := fun i hi =>
        (seen_later _ i).trans (hbefore (i + 1) (Nat.succ_lt_succ hi))
      have hend' : k = n ∨ client.seen space app wanted
          ((client.later world).logging ([client.listEvent space app] ++ [.sleep interval])) k
            ≠ .ok none := by
        rw [seen_later]
        exact hend.imp_left Nat.succ.inj
      rw [ih hcalm' (Nat.le_of_succ_le_succ hk) hbefore' hend' (matchingPod_run ..), seen_later,
        pollEvents_succ, Client.later_iterate_logging, World.logging_logging,
        ← Function.iterate_succ_apply]
      rfl

/-- The end of a poll is one of its listings. -/
theorem exists_last (client : Client) (space app : String) (wanted : Wanted) (world : World)
    (n : Nat) :
    ∃ k ≤ n, (∀ i < k, client.seen space app wanted world i = .ok none) ∧
      (k = n ∨ client.seen space app wanted world k ≠ .ok none) :=
  Run.exists_last_try (fun i => client.seen space app wanted world i = .ok none) n

/-! ## How a poll ends -/

/-- At least one listing is made. -/
theorem repeats_succ (maxPolls : Int) : Run.repeats maxPolls + 1 = max 1 maxPolls.toNat := by
  unfold Run.repeats
  omega

section Ending

variable {limits : PollLimits} {k : Nat} {behind : World}

/-- A pod that was found is given back behind one more pause. -/
theorem pollPods_of_some {find : Run (Option Pod)} {pod : Pod} (calm : behind.Calm)
    (h : Run.retry find Option.isSome Run.isCancelled (Run.sleep limits.interval)
      (Run.repeats limits.maxPolls) world = .ok (some pod) behind) :
    pollPods app limits find world = .ok pod (behind.logging [.sleep limits.settle]) := by
  unfold pollPods
  rw [Run.bind_of_ok h]
  exact Run.bind_of_ok (Run.sleep_of_calm calm limits.settle)

/-- Without a pod, the poll has timed out. -/
theorem pollPods_of_none {find : Run (Option Pod)} (calm : behind.Calm)
    (h : Run.retry find Option.isSome Run.isCancelled (Run.sleep limits.interval)
      (Run.repeats limits.maxPolls) world = .ok none behind) :
    pollPods app limits find world = .error (.notReady app) behind := by
  unfold pollPods
  rw [Run.bind_of_ok h]
  exact Run.bind_of_ok (Run.isCancelled_of_calm calm)

/-- A failure of a listing is the failure of the poll. -/
theorem pollPods_of_error {find : Run (Option Pod)} {failure : Failure}
    (h : Run.retry find Option.isSome Run.isCancelled (Run.sleep limits.interval)
      (Run.repeats limits.maxPolls) world = .error failure behind) :
    pollPods app limits find world = .error failure behind :=
  Run.bind_of_error h

end Ending

/-- The world behind a number of listings of a poll. -/
def Client.polled (client : Client) (space app : String) (limits : PollLimits) (world : World)
    (listings : Nat) : World :=
  (client.later^[listings] world).logging
    (pollEvents (client.listEvent space app) limits.interval listings)

theorem Client.calm_polled (client : Client) (space app : String) (limits : PollLimits)
    (calm : world.Calm) (listings : Nat) :
    (client.polled space app limits world listings).Calm := by
  induction listings generalizing world with
  | zero => exact calm
  | succ n ih => exact ih (Client.calm_later calm)

/-- What a wait gives is what its last listing gives. -/
theorem waitFor_ending (limits : PollLimits) {k : Nat} (calm : world.Calm)
    (hk : k ≤ Run.repeats limits.maxPolls)
    (hbefore : ∀ i < k, client.seen space app wanted world i = .ok none)
    (hend : k = Run.repeats limits.maxPolls
      ∨ client.seen space app wanted world k ≠ .ok none) :
    waitFor client space app wanted limits world
      = match client.seen space app wanted world k with
        | .ok (some pod) =>
          .ok pod ((client.polled space app limits world (k + 1)).logging [.sleep limits.settle])
        | .ok none => .error (.notReady app) (client.polled space app limits world (k + 1))
        | .error failure => .error failure (client.polled space app limits world (k + 1)) := by
  have hrun := retry_run limits.interval calm hk hbefore hend
  have hcalm := client.calm_polled space app limits calm (k + 1)
  rw [waitFor_eq]
  cases hseen : client.seen space app wanted world k with
  | error failure =>
    rw [hseen] at hrun
    exact pollPods_of_error hrun
  | ok found =>
    rw [hseen] at hrun
    cases found with
    | some pod => exact pollPods_of_some hcalm hrun
    | none => exact pollPods_of_none hcalm hrun

/-- What a wait gives depends only on what its listings show. -/
theorem waitFor_outcome_congr {world' : World} (limits : PollLimits) (calm : world.Calm)
    (calm' : world'.Calm)
    (h : ∀ i, client.seen space app wanted world' i = client.seen space app wanted world i) :
    (waitFor client space app wanted limits).outcome world'
      = (waitFor client space app wanted limits).outcome world := by
  obtain ⟨k, hk, hbefore, hend⟩ := exists_last client space app wanted world
    (Run.repeats limits.maxPolls)
  have hbefore' : ∀ i < k, client.seen space app wanted world' i = .ok none := fun i hi =>
    (h i).trans (hbefore i hi)
  have hend' : k = Run.repeats limits.maxPolls
      ∨ client.seen space app wanted world' k ≠ .ok none := by
    rw [h k]
    exact hend
  unfold Run.outcome
  rw [waitFor_ending limits calm' hk hbefore' hend', waitFor_ending limits calm hk hbefore hend,
    h k]
  cases client.seen space app wanted world k with
  | error failure => rfl
  | ok found => cases found <;> rfl

/-- A listing that fails ends the search, and one that shows pods is searched for the first that
suits. The search itself fails only at an annotation that is no text. -/
theorem seen_of_shown (client : Client) (space app : String) (wanted : Wanted) (world : World)
    (i : Nat) :
    (∀ failure, client.shown space app world i = .error failure →
      client.seen space app wanted world i = .error failure) ∧
    ∀ pods, client.shown space app world i = .ok pods →
      (∀ found, client.seen space app wanted world i = .ok found →
        found = pods.find? fun pod => Suits wanted pod) ∧
      ((∀ pod ∈ pods, Legible wanted pod) →
        client.seen space app wanted world i = .ok (pods.find? fun pod => Suits wanted pod)) := by
  refine ⟨fun failure hshown => ?_, fun pods hshown => ?_⟩
  · unfold Client.seen
    rw [hshown]
    rfl
  · have hseen : client.seen space app wanted world i = Pod.firstMatch (examine wanted) pods := by
      unfold Client.seen
      rw [hshown]
      rfl
    rw [hseen]
    exact ⟨fun found => eq_find?_of_firstMatch, firstMatch_of_legible⟩

/-- **What one listing counts as**: its pods are looked at newest first. -/
theorem listing_counts (client : Client) (space app : String) (wanted : Wanted) (world : World)
    (i : Nat) :
    (∀ failure, client.shown space app world i = .error failure →
      client.seen space app wanted world i = .error failure) ∧
    ∀ pods, client.shown space app world i = .ok pods →
      (∃ manifests unsorted, client.listed space app world i = .ok manifests ∧
        manifests.mapM Pod.ofManifest = .ok unsorted ∧ pods.Perm unsorted) ∧
      ((∀ pod ∈ pods, pod.Textual) → pods.Pairwise Pod.NotOlder) ∧
      (∀ found, client.seen space app wanted world i = .ok found →
        found = pods.find? fun pod => Suits wanted pod) ∧
      ((∀ pod ∈ pods, Legible wanted pod) →
        client.seen space app wanted world i = .ok (pods.find? fun pod => Suits wanted pod)) := by
  have hsearch := seen_of_shown client space app wanted world i
  refine ⟨hsearch.1, fun pods hshown => ?_⟩
  obtain ⟨hpods, hnewest⟩ := Client.shown_newest hshown
  exact ⟨hpods, hnewest, hsearch.2 pods hshown⟩

/-- A pod that a search gives suits. -/
theorem suits_of_seen {i : Nat} {pod : Pod}
    (h : client.seen space app wanted world i = .ok (some pod)) : Suits wanted pod := by
  have hlisting := seen_of_shown client space app wanted world i
  cases hshown : client.shown space app world i with
  | error failure =>
    rw [hlisting.1 failure hshown] at h
    cases h
  | ok pods =>
    have hfound := (hlisting.2 pods hshown).1 (some pod) h
    simpa using List.find?_some hfound.symm

end Poll

/-- **How a wait ends**, while nothing cancels it. Of the listings to come, at most `maxPolls` and
at least one are made, and the first that shows a pod that suits or fails is the last one: its
first pod that suits, and so the newest of them, is given behind one pause to settle, and its
failure is given as it is. Without such a listing, the wait has timed out. -/
theorem waitFor_run (client : Client) (space app : String) (wanted : Wanted) (limits : PollLimits)
    (world : World) (calm : world.Calm) :
    -- what one listing counts as
    (∀ i,
      (∀ failure, client.shown space app world i = .error failure →
        client.seen space app wanted world i = .error failure) ∧
      ∀ pods, client.shown space app world i = .ok pods →
        (∃ manifests unsorted, client.listed space app world i = .ok manifests ∧
          manifests.mapM Pod.ofManifest = .ok unsorted ∧ pods.Perm unsorted) ∧
        ((∀ pod ∈ pods, pod.Textual) → pods.Pairwise Pod.NotOlder) ∧
        (∀ found, client.seen space app wanted world i = .ok found →
          found = pods.find? fun pod => Suits wanted pod) ∧
        ((∀ pod ∈ pods, Legible wanted pod) →
          client.seen space app wanted world i
            = .ok (pods.find? fun pod => Suits wanted pod))) ∧
    -- a listing that ends the wait
    (∀ k < max 1 limits.maxPolls.toNat,
      (∀ i < k, client.seen space app wanted world i = .ok none) →
        (∀ pod, client.seen space app wanted world k = .ok (some pod) →
          waitFor client space app wanted limits world
            = .ok pod ((client.polled space app limits world (k + 1)).logging
                [.sleep limits.settle])) ∧
        ∀ failure, client.seen space app wanted world k = .error failure →
          waitFor client space app wanted limits world
            = .error failure (client.polled space app limits world (k + 1))) ∧
    -- no such listing
    ((∀ i < max 1 limits.maxPolls.toNat, client.seen space app wanted world i = .ok none) →
      waitFor client space app wanted limits world
        = .error (.notReady app)
            (client.polled space app limits world (max 1 limits.maxPolls.toNat))) ∧
    -- a pod that does not suit never ends it
    ∀ pod behind, waitFor client space app wanted limits world = .ok pod behind →
      Suits wanted pod := by
  rw [← repeats_succ]
  refine ⟨listing_counts client space app wanted world, ?_, ?_, ?_⟩
  · intro k hk hbefore
    have hlast := Nat.le_of_lt_succ hk
    refine ⟨fun pod hpod => ?_, fun failure hfailure => ?_⟩
    · rw [waitFor_ending limits calm hlast hbefore (Or.inr (by simp [hpod])), hpod]
    · rw [waitFor_ending limits calm hlast hbefore (Or.inr (by simp [hfailure])), hfailure]
  · intro hnone
    rw [waitFor_ending limits calm (Nat.le_refl _)
      (fun i hi => hnone i (Nat.lt_succ_of_lt hi)) (Or.inl rfl), hnone _ (Nat.lt_succ_self _)]
  · intro pod behind hrun
    obtain ⟨k, hk, hbefore, hend⟩ := exists_last client space app wanted world
      (Run.repeats limits.maxPolls)
    rw [waitFor_ending limits calm hk hbefore hend] at hrun
    cases hseen : client.seen space app wanted world k with
    | error failure =>
      rw [hseen] at hrun
      cases hrun
    | ok found =>
      rw [hseen] at hrun
      cases found with
      | none => cases hrun
      | some found =>
        cases hrun
        exact suits_of_seen hseen

/-- The manifest of a pod that is ready. -/
def readyManifest (name created : String) (annotations : Members) : Json :=
  .obj [("metadata", .obj [("name", .str name), ("creationTimestamp", .str created),
      ("annotations", .obj annotations)]),
    ("status", .obj [("phase", .str "Running"),
      ("conditions", .arr [.obj [("type", .str "Ready"), ("status", .str "True")]])])]

/-- A pod of an earlier rollout is ready, and two new ones are seen by the second listing. -/
def rollingOut : World :=
  { World.start ⟨[]⟩ with
    pods := [.pods [readyManifest "old" "2024-02-29T11:00:00Z" []],
      .pods [readyManifest "old" "2024-02-29T11:00:00Z" [],
        readyManifest "new" "2024-02-29T12:00:00Z" [("at", .str "Noon")],
        readyManifest "newest" "2024-02-29T12:05:00Z" [("at", .str "noon")]]] }

theorem waitFor_rollingOut :
    waitFor .store "shop" "cart" (some ("at", "noon")) ⟨5, .zero, .zero⟩ rollingOut
      = .ok ⟨.str "newest", true, [("at", .str "noon")], .str "2024-02-29T12:05:00Z"⟩
          ((Client.store.polled "shop" "cart" ⟨5, .zero, .zero⟩ rollingOut 2).logging
            [.sleep .zero]) := by
  have hold : ∀ i < 1, Client.store.seen "shop" "cart" (some ("at", "noon")) rollingOut i
      = .ok none := by
    intro i hi
    obtain rfl : i = 0 := Nat.lt_one_iff.mp hi
    rfl
  exact ((waitFor_run .store "shop" "cart" (some ("at", "noon")) ⟨5, .zero, .zero⟩ rollingOut
    rfl).2.1 1 (by decide) hold).1 _ rfl

end Rollout
