import Rollout.Proofs.Cluster.Poll
import Rollout.Proofs.World.Courses

/-!
# Cancelled polls

A wait may be cancelled from outside: before it begins, while a listing is made, or in any pause.
The cancellation cuts a pause short, but no listing. It is noticed once a listing has shown no pod,
so that at most one more listing begins.

- `Run.interruptedIf`, `interruptedWait`: a wait that may be cancelled while listings are made, at
  any choice of them.
- `Client.begins`: the world in which each listing begins.
- `Client.CancelledBy`: the wait was cancelled before a listing began, or while it was made.
- `retry_interrupted`: the listings of such a poll, one by one.
- `interruptedWait_run`: **how a wait ends** that may be cancelled at any moment.
-/

namespace Rollout

/-! ## Cancelling from outside -/

/-- The world once the pauses were cancelled. -/
def World.cancel (world : World) : World :=
  { world with pauses := { world.pauses with cancelled := true } }

/-- A run during which the pauses are cancelled, if that is chosen for the world it begins in. -/
def Run.interruptedIf {α : Type} (cancels : World → Bool) (act : Run α) : Run α := fun world =>
  Run.ending (act.outcome world)
    (if cancels world then (act.behind world).cancel else act.behind world)

/-- A wait for a pod that may be cancelled while listings are made. -/
def interruptedWait (cancels : World → Bool) (client : Client) (space app : String)
    (wanted : Wanted) (limits : PollLimits) : Run Pod :=
  pollPods app limits ((matchingPod client space app (examine wanted)).interruptedIf cancels)

theorem Run.ending_outcome {α : Type} (act : Run α) (world : World) :
    Run.ending (act.outcome world) (act.behind world) = act world := by
  unfold outcome behind
  cases act world <;> rfl

/-- While no listing is interrupted, this is the wait as it is. -/
theorem interruptedWait_never (client : Client) (space app : String) (wanted : Wanted)
    (limits : PollLimits) :
    interruptedWait (fun _ => false) client space app wanted limits
      = waitFor client space app wanted limits := by
  have hact : ∀ act : Run (Option Pod), act.interruptedIf (fun _ => false) = act := fun act =>
    funext act.ending_outcome
  unfold interruptedWait
  rw [hact, waitFor_eq]

/-! ## Pauses -/

namespace Pauses

/-- A pause is cancelled that was cancelled before, or that is the one to be cancelled. -/
theorem slept_cancelled (pauses : Pauses) :
    pauses.slept.cancelled = true ↔ pauses.cancelled = true ∨ pauses.cancelAfter = some 1 := by
  obtain ⟨cancelled, cancelAfter⟩ := pauses
  rcases cancelAfter with _ | _ | _ | n <;> simp [slept]

/-- Once cancelled, the pauses stay so; otherwise the pause to be cancelled comes closer. -/
theorem slept_cancelAfter {pauses : Pauses} (h : pauses.slept.cancelled = false) (n : Nat) :
    pauses.slept.cancelAfter = some (n + 1) ↔ pauses.cancelAfter = some (n + 2) := by
  obtain ⟨cancelled, cancelAfter⟩ := pauses
  rcases cancelAfter with _ | _ | _ | m
  · simp [slept]
  · simp [slept]
  · simp [slept] at h
  · simp [slept]

/-- **The pauses are cancelled** behind a number of them if they were before, or in one of those. -/
theorem slept_iterate_cancelled (pauses : Pauses) (i : Nat) :
    (slept^[i] pauses).cancelled = true
      ↔ pauses.cancelled = true ∨ ∃ n < i, pauses.cancelAfter = some (n + 1) := by
  induction i generalizing pauses with
  | zero => simp
  | succ i ih =>
    rw [Function.iterate_succ_apply, ih, slept_cancelled]
    cases hslept : pauses.slept.cancelled with
    | true =>
      rcases pauses.slept_cancelled.mp hslept with hbefore | hfirst
      · simp [hbefore]
      · simp [hfirst]
    | false =>
      have hnot := mt pauses.slept_cancelled.mpr (by simp [hslept])
      constructor
      · rintro (hbefore | ⟨n, hn, hlater⟩)
        · exact absurd hbefore hnot
        · exact .inr ⟨n + 1, Nat.succ_lt_succ hn, (slept_cancelAfter hslept n).mp hlater⟩
      · rintro (hbefore | ⟨n, hn, hlater⟩)
        · exact absurd (.inl hbefore) hnot
        · cases n with
          | zero => exact absurd (.inr hlater) hnot
          | succ n =>
            exact .inr ⟨n, Nat.lt_of_succ_lt_succ hn, (slept_cancelAfter hslept n).mpr hlater⟩

end Pauses

section Answers

variable (client : Client) (space app : String)

/-! ## Listings and pauses -/

/-- The world with other pauses. -/
def World.pausing (pauses : Pauses) (world : World) : World :=
  { world with pauses }

theorem Client.later_pausing (pauses : Pauses) (world : World) :
    client.later (world.pausing pauses) = (client.later world).pausing pauses := by
  cases client <;> rfl

theorem Client.later_iterate_pausing (pauses : Pauses) (i : Nat) (world : World) :
    client.later^[i] (world.pausing pauses) = (client.later^[i] world).pausing pauses :=
  (Function.Semiconj.iterate_right (fun w => (client.later_pausing pauses w).symm) i world).symm

/-- The pauses do not matter to what the cluster answers. -/
theorem outcome_list_pausing (pauses : Pauses) (world : World) :
    (client.list space podKind (some (appSelector app))).outcome (world.pausing pauses)
      = (client.list space podKind (some (appSelector app))).outcome world := by
  cases client with
  | cli binary timeout =>
    have hreply : ∀ args input, (Client.call binary timeout args input).outcome
        (world.pausing pauses) = (Client.call binary timeout args input).outcome world :=
      fun args input => (Run.outcome_of_ending (call_run binary timeout args input _)).trans
        (Run.outcome_of_ending (call_run binary timeout args input world)).symm
    have hcall := takesAnswer_call binary timeout
      (["get", podKind, "-n", space, "-o", "json"]
        ++ Client.selectorArgs (some (appSelector app))) none
    have hlist : ∀ world, (Client.list (.cli binary timeout) space podKind
        (some (appSelector app))).outcome world = _ := fun world =>
      ((hcall.bind Json.ofText).outcome_bind (fun value => value.askedOr "items" (.arr []))
        world).trans (congrArg (· >>= _) (hcall.outcome_bind Json.ofText world))
    rw [hlist, hlist, hreply]
  | store =>
    exact (Run.outcome_of_ending (listBatch_run space app _)).trans
      (Run.outcome_of_ending (listBatch_run space app world)).symm

/-- Nor do they matter to what the listings to come show. -/
theorem Client.seen_pausing (wanted : Wanted) (pauses : Pauses) (world : World) (i : Nat) :
    client.seen space app wanted (world.pausing pauses) i
      = client.seen space app wanted world i := by
  have hpods : ∀ world : World, (podsOf client space app).outcome world
      = (client.list space podKind (some (appSelector app))).outcome world
        >>= fun value => value.items >>= observed :=
    (takesAnswer_list client space app).outcome_bind fun value => value.items >>= observed
  unfold Client.seen Client.shown
  rw [Client.later_iterate_pausing, hpods, hpods, outcome_list_pausing]

end Answers

/-! ## The listings of a poll that may be cancelled -/

/-- A pause is logged, and may be the one that is cancelled. -/
theorem Run.sleep_run (seconds : Binary64) (world : World) :
    Run.sleep seconds world
      = .ok () ((world.logging [.sleep seconds]).pausing world.pauses.slept) := rfl

/-- The world behind a listing and the pause after it. -/
def Client.turn (client : Client) (space app : String) (interval : Binary64) (world : World) :
    World :=
  ((client.later world).logging [client.listEvent space app, .sleep interval]).pausing
    world.pauses.slept

/-- The world in which the listing behind `i` others begins. -/
def Client.begins (client : Client) (space app : String) (interval : Binary64) (world : World)
    (i : Nat) : World :=
  (client.turn space app interval)^[i] world

/-- The wait was cancelled by the time the listing behind `i` others is done: before it began, in
one of the pauses between, or while that listing was made. -/
def Client.CancelledBy (client : Client) (space app : String) (interval : Binary64)
    (cancels : World → Bool) (world : World) (i : Nat) : Prop :=
  world.pauses.cancelled = true ∨ (∃ n < i, world.pauses.cancelAfter = some (n + 1)) ∨
    cancels (client.begins space app interval world i) = true

section Poll

variable {client : Client} {space app : String} {wanted : Wanted}

theorem Client.pauses_begins (interval : Binary64) (world : World) (i : Nat) :
    (client.begins space app interval world i).pauses = Pauses.slept^[i] world.pauses :=
  Function.Semiconj.iterate_right (f := World.pauses) (fun _ => rfl) i world

/-- What the listings show is fixed before the first one, whatever the pauses are. -/
theorem seen_turn (interval : Binary64) (world : World) (i : Nat) :
    client.seen space app wanted (client.turn space app interval world) i
      = client.seen space app wanted world (i + 1) :=
  (client.seen_pausing space app wanted _ _ i).trans (seen_later _ i)

/-- A wait that is cancelled by then was cancelled when the listing began or while it was made. -/
theorem Client.cancelledBy_iff {interval : Binary64} {cancels : World → Bool} {world : World}
    {i : Nat} :
    client.CancelledBy space app interval cancels world i
      ↔ (client.begins space app interval world i).pauses.cancelled = true ∨
        cancels (client.begins space app interval world i) = true := by
  rw [Client.pauses_begins, Pauses.slept_iterate_cancelled, or_assoc]
  rfl

/-- The listings behind the first one are those of the world behind its pause. -/
theorem Client.cancelledBy_turn {interval : Binary64} {cancels : World → Bool} {world : World}
    {i : Nat} :
    client.CancelledBy space app interval cancels (client.turn space app interval world) i
      ↔ client.CancelledBy space app interval cancels world (i + 1) := by
  rw [Client.cancelledBy_iff, Client.cancelledBy_iff]
  rfl

/-- The world behind the first listing, which may be interrupted. -/
def Client.afterFirst (client : Client) (space app : String) (cancels : World → Bool)
    (world : World) : World :=
  if cancels world then ((client.later world).logging [client.listEvent space app]).cancel
  else (client.later world).logging [client.listEvent space app]

theorem Client.log_afterFirst (cancels : World → Bool) (world : World) :
    (client.afterFirst space app cancels world).log
      = world.log ++ [client.listEvent space app] := by
  unfold Client.afterFirst
  split <;> cases client <;> rfl

/-- The pauses behind the first listing are cancelled if they were before, or while it was made. -/
theorem Client.cancelled_afterFirst (interval : Binary64) (cancels : World → Bool)
    (world : World) :
    (client.afterFirst space app cancels world).pauses.cancelled = true
      ↔ client.CancelledBy space app interval cancels world 0 := by
  have hpauses : (client.later world).pauses = world.pauses := by cases client <;> rfl
  rw [Client.cancelledBy_iff]
  show _ ↔ world.pauses.cancelled = true ∨ cancels world = true
  unfold Client.afterFirst
  split
  · rename_i hcancels
    exact iff_of_true rfl (.inr hcancels)
  · rename_i hcancels
    rw [or_iff_left hcancels, ← hpauses]
    rfl

/-- The first listing shows what it shows, interrupted or not. -/
theorem interrupted_run (cancels : World → Bool) (world : World) :
    (matchingPod client space app (examine wanted)).interruptedIf cancels world
      = Run.ending (client.seen space app wanted world 0)
          (client.afterFirst space app cancels world) := by
  have hrun := matchingPod_run client space app wanted world
  have hbehind : (matchingPod client space app (examine wanted)).behind world
      = (client.later world).logging [client.listEvent space app] := by
    unfold Run.behind
    rw [hrun]
    cases client.seen space app wanted world 0 <;> rfl
  unfold Run.interruptedIf
  rw [Run.outcome_of_ending hrun, hbehind]
  rfl

/-- A poll ends with its first listing if that does not come back without a pod, or if the wait is
cancelled by then. -/
theorem retry_first {cancels : World → Bool} {interval : Binary64} {world : World}
    (h : client.seen space app wanted world 0 ≠ .ok none ∨
      client.CancelledBy space app interval cancels world 0) (n : Nat) :
    Run.retry ((matchingPod client space app (examine wanted)).interruptedIf cancels)
        Option.isSome Run.isCancelled (Run.sleep interval) n world
      = Run.ending (client.seen space app wanted world 0)
          (client.afterFirst space app cancels world) := by
  have hfirst := @interrupted_run client space app wanted cancels world
  rw [← Client.cancelled_afterFirst] at h
  cases hseen : client.seen space app wanted world 0 with
  | error failure =>
    rw [hseen] at hfirst
    exact Run.retry_of_error hfirst n
  | ok found =>
    rw [hseen] at hfirst h
    cases found with
    | some pod => exact Run.retry_of_accepted hfirst rfl n
    | none =>
      have hstopped : Run.isCancelled (client.afterFirst space app cancels world)
          = .ok true (client.afterFirst space app cancels world) :=
        congrArg (EStateM.Result.ok · _) (h.resolve_left (not_not_intro rfl))
      exact Run.retry_of_stopped hfirst rfl hstopped n

/-- Otherwise the other listings are those of a poll with one try less, behind a pause. -/
theorem retry_rest {cancels : World → Bool} {interval : Binary64} {world : World}
    (hseen : client.seen space app wanted world 0 = .ok none)
    (hcancelled : ¬ client.CancelledBy space app interval cancels world 0) (n : Nat) :
    Run.retry ((matchingPod client space app (examine wanted)).interruptedIf cancels)
        Option.isSome Run.isCancelled (Run.sleep interval) (n + 1) world
      = Run.retry ((matchingPod client space app (examine wanted)).interruptedIf cancels)
          Option.isSome Run.isCancelled (Run.sleep interval) n
          (client.turn space app interval world) := by
  have hfirst := @interrupted_run client space app wanted cancels world
  have hstopped : Run.isCancelled (client.afterFirst space app cancels world)
      = .ok false (client.afterFirst space app cancels world) := by
    rw [← Client.cancelled_afterFirst, Bool.not_eq_true] at hcancelled
    exact congrArg (EStateM.Result.ok · _) hcancelled
  have hafter : client.afterFirst space app cancels world
      = (client.later world).logging [client.listEvent space app] := by
    rw [Client.cancelledBy_iff, not_or] at hcancelled
    exact if_neg hcancelled.2
  have hpause : Run.sleep interval (client.afterFirst space app cancels world)
      = .ok () (client.turn space app interval world) := by
    rw [hafter, Run.sleep_run, World.logging_logging]
    cases client <;> rfl
  rw [hseen] at hfirst
  exact Run.retry_of_rejected hfirst rfl hstopped hpause n

/-- **The listings of a poll** that may be cancelled: all but the last one show no pod, and the
wait is not cancelled by the time they are done. -/
theorem retry_interrupted (cancels : World → Bool) (interval : Binary64) (n : Nat)
    (world : World) :
    ∃ k ≤ n, ∃ behind,
      Run.retry ((matchingPod client space app (examine wanted)).interruptedIf cancels)
          Option.isSome Run.isCancelled (Run.sleep interval) n world
        = Run.ending (client.seen space app wanted world k) behind ∧
      behind.log = world.log ++ pollEvents (client.listEvent space app) interval (k + 1) ∧
      (behind.pauses.cancelled = true
        ↔ client.CancelledBy space app interval cancels world k) ∧
      (∀ i < k, client.seen space app wanted world i = .ok none ∧
        ¬ client.CancelledBy space app interval cancels world i) ∧
      (k = n ∨ client.seen space app wanted world k ≠ .ok none ∨
        client.CancelledBy space app interval cancels world k) := by
  induction n generalizing world with
  | zero =>
    exact ⟨0, Nat.le_refl 0, _, interrupted_run cancels world,
      Client.log_afterFirst cancels world, Client.cancelled_afterFirst interval cancels world,
      fun _ hi => absurd hi (Nat.not_lt_zero _), .inl rfl⟩
  | succ n ih =>
    by_cases hends : client.seen space app wanted world 0 ≠ .ok none ∨
        client.CancelledBy space app interval cancels world 0
    · exact ⟨0, Nat.zero_le _, _, retry_first hends (n + 1), Client.log_afterFirst cancels world,
        Client.cancelled_afterFirst interval cancels world,
        fun _ hi => absurd hi (Nat.not_lt_zero _), .inr hends⟩
    · obtain ⟨hseen, hcancelled⟩ := not_or.mp hends
      rw [not_not] at hseen
      obtain ⟨k, hk, behind, hrun, hlog, hpauses, hbefore, hlast⟩ :=
        ih (client.turn space app interval world)
      rw [seen_turn] at hrun hlast
      rw [Client.cancelledBy_turn] at hpauses hlast
      refine ⟨k + 1, Nat.succ_le_succ hk, behind, (retry_rest hseen hcancelled n).trans hrun, ?_,
        hpauses, fun i hi => ?_, hlast.imp_left (congrArg Nat.succ)⟩
      · have hturn : (client.turn space app interval world).log
            = world.log ++ [client.listEvent space app, .sleep interval] := by
          cases client <;> rfl
        rw [hlog, hturn, List.append_assoc, ← pollEvents_succ]
      · cases i with
        | zero => exact ⟨hseen, hcancelled⟩
        | succ i =>
          have hshown := hbefore i (Nat.lt_of_succ_lt_succ hi)
          rwa [seen_turn, Client.cancelledBy_turn] at hshown

end Poll

/-! ## How a wait ends that may be cancelled -/

/-- How a poll ends whose listings come to a result: without a pod, the pauses tell whether it was
cancelled or has timed out. -/
def pollEnd (app : String) (limits : PollLimits) (behind : World) :
    Except Failure (Option Pod) → EStateM.Result Failure World Pod
  | .ok (some pod) => .ok pod ((behind.logging [.sleep limits.settle]).pausing behind.pauses.slept)
  | .ok none =>
    .error (if behind.pauses.cancelled then .pollCancelled app else .notReady app) behind
  | .error failure => .error failure behind

theorem pollPods_ending (app : String) {limits : PollLimits} {find : Run (Option Pod)}
    {world behind : World} {found : Except Failure (Option Pod)}
    (h : Run.retry find Option.isSome Run.isCancelled (Run.sleep limits.interval)
      (Run.repeats limits.maxPolls) world = Run.ending found behind) :
    pollPods app limits find world = pollEnd app limits behind found := by
  unfold pollPods
  match found with
  | .error failure => exact Run.bind_of_error h
  | .ok (some pod) => exact (Run.bind_of_ok h).trans (Run.bind_of_ok (Run.sleep_run ..))
  | .ok none =>
    have hlook : Run.isCancelled behind = .ok behind.pauses.cancelled behind := rfl
    refine (Run.bind_of_ok h).trans ((Run.bind_of_ok hlook).trans ?_)
    unfold pollEnd
    cases behind.pauses.cancelled <;> rfl

/-- **How a wait ends** that may be cancelled at any moment: before it begins, while any of its
listings is made, or in any pause. One of the listings that may be made is the last one; those
before it show no pod, and none is begun behind one by which the wait was cancelled, so that at most
one begins behind the cancellation. A pod that the last listing shows is given, and a failure of it
is raised, cancelled or not. Without either, the wait is given up as cancelled if it was, even when
no listing was left, and as timed out only if it was not and no listing was left. -/
theorem interruptedWait_run (cancels : World → Bool) (client : Client) (space app : String)
    (wanted : Wanted) (limits : PollLimits) (world : World) :
    -- what one listing counts as
    (∀ i,
      (∀ failure, client.shown space app world i = .error failure →
        client.seen space app wanted world i = .error failure) ∧
      ∀ pods, client.shown space app world i = .ok pods →
        (∃ manifests unsorted, client.listed space app world i = .ok manifests ∧
          manifests.mapM Pod.ofManifest = .ok unsorted ∧ pods.Perm unsorted) ∧
        ((∀ pod ∈ pods, pod.Textual) → pods.Pairwise Pod.NotOlder) ∧
        (∀ found, client.seen space app wanted world i = .ok found →
          found = pods.find? fun pod => Suits wanted pod) ∧
        ((∀ pod ∈ pods, Legible wanted pod) →
          client.seen space app wanted world i
            = .ok (pods.find? fun pod => Suits wanted pod))) ∧
    ∃ k < max 1 limits.maxPolls.toNat,
      -- the listings that are made
      (∀ i < k, client.seen space app wanted world i = .ok none) ∧
      (∀ i, client.CancelledBy space app limits.interval cancels world i → k ≤ i) ∧
      ((interruptedWait cancels client space app wanted limits).behind world).log
        = world.log ++ pollEvents (client.listEvent space app) limits.interval (k + 1)
          ++ (match client.seen space app wanted world k with
            | .ok (some _) => [.sleep limits.settle]
            | _ => []) ∧
      -- what the last of them decides
      (∀ pod, client.seen space app wanted world k = .ok (some pod) →
        (interruptedWait cancels client space app wanted limits).outcome world = .ok pod) ∧
      (∀ failure, client.seen space app wanted world k = .error failure →
        (interruptedWait cancels client space app wanted limits).outcome world
          = .error failure) ∧
      (client.seen space app wanted world k = .ok none →
        (client.CancelledBy space app limits.interval cancels world k →
          (interruptedWait cancels client space app wanted limits).outcome world
            = .error (.pollCancelled app)) ∧
        (¬ client.CancelledBy space app limits.interval cancels world k →
          k + 1 = max 1 limits.maxPolls.toNat ∧
          (interruptedWait cancels client space app wanted limits).outcome world
            = .error (.notReady app))) := by
  obtain ⟨k, hk, behind, hrun, hlog, hcancelled, hbefore, hlast⟩ :=
    @retry_interrupted client space app wanted cancels limits.interval
      (Run.repeats limits.maxPolls) world
  have hwait := pollPods_ending app hrun
  rw [← repeats_succ]
  refine ⟨listing_counts client space app wanted world, k, Nat.lt_succ_of_le hk,
    fun i hi => (hbefore i hi).1, fun i hi => ?_, ?_⟩
  · exact Nat.le_of_not_lt fun hlt => (hbefore i hlt).2 hi
  · unfold Run.behind Run.outcome interruptedWait
    rw [hwait]
    cases hseen : client.seen space app wanted world k with
    | error failure =>
      refine ⟨hlog.trans (List.append_nil _).symm, nofun, ?_, nofun⟩
      rintro _ ⟨⟩
      rfl
    | ok found =>
      cases found with
      | some pod =>
        have hsettled : (behind.logging [.sleep limits.settle]).log
            = world.log ++ pollEvents (client.listEvent space app) limits.interval (k + 1)
              ++ [.sleep limits.settle] := congrArg (· ++ _) hlog
        refine ⟨hsettled, ?_, nofun, nofun⟩
        rintro _ ⟨⟩
        rfl
      | none =>
        refine ⟨hlog.trans (List.append_nil _).symm, nofun, nofun,
          fun _ => ⟨fun h => ?_, fun h => ?_⟩⟩
        · show Except.error (if behind.pauses.cancelled then _ else _) = _
          rw [if_pos (hcancelled.mpr h)]
        · have hbound : k = Run.repeats limits.maxPolls :=
            hlast.resolve_right (not_or.mpr ⟨not_not_intro hseen, h⟩)
          refine ⟨congrArg Nat.succ hbound, ?_⟩
          show Except.error (if behind.pauses.cancelled then _ else _) = _
          rw [if_neg (mt hcancelled.mp h)]

/-- With one listing that shows no pod, a wait that was cancelled has not timed out. -/
example : (waitFor .store "shop" "cart" none ⟨1, .zero, .zero⟩).outcome (World.start ⟨[]⟩).cancel
    = .error (.pollCancelled "cart") := rfl

end Rollout
