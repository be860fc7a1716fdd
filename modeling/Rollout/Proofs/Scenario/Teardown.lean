import Rollout.Proofs.Cluster.Calls
import Rollout.Scenario.Context

/-!
# The beginning and the end of a run

- `openingWords`: what opening a context logs: nothing, unless no namespace is configured and the
  command line has to be asked for its own.
- `startContext_run`: **a new context** remembers no objects.
- `Run.behind_ensuring`: a run with another one behind it in any case.
- `Context.teardown_log`: **the end of a run** removes what was remembered, the last object first.
-/

namespace Rollout

open Run (logs_pure logs_throw)

/-! ## A run in any case -/

namespace Run

variable {α : Type}

theorem behind_attempt (run : Run α) (world : World) :
    (attempt run).behind world = run.behind world := by
  unfold behind attempt
  cases run world <;> rfl

/-- What follows in any case goes on from the world that was left. -/
theorem behind_ensuring (run : Run α) (after : Run Unit) (world : World) :
    (ensuring run after).behind world = after.behind (run.behind world) := by
  obtain ⟨result, hattempt⟩ : ∃ result, attempt run world = .ok result (run.behind world) := by
    unfold attempt behind
    cases run world <;> exact ⟨_, rfl⟩
  rw [behind, ensuring, bind_of_ok hattempt]
  cases hafter : after (run.behind world) with
  | error failure world' => rw [bind_of_error hafter, behind_of_error hafter, worldOf]
  | ok a world' =>
    rw [bind_of_ok hafter, behind_of_ok hafter, ofExcept_run]
    cases result <;> rfl

theorem Logs.attempt {run : Run α} {words : Language Event} (h : run.Logs words) :
    (attempt run).Logs words := fun world => by
  rw [behind_attempt]
  exact h world

/-- What people are told is no event. -/
theorem logs_say (line : String) : (say line).Logs 1 := by
  refine logs_get_bind fun world => ?_
  split
  · exact logs_pure ()
  · exact logs_throw _

/-- A failure that is told and passed over leaves what was logged. -/
theorem Logs.telling {run : Run Unit} {words : Language Event} (h : run.Logs words)
    (category : Category) (line : Failure → String) : (telling category line run).Logs words := by
  refine h.attempt.bind fun result => ?_
  cases result with
  | ok => exact logs_pure ()
  | error failure =>
    dsimp only
    split
    · exact logs_say (line failure)
    · exact logs_throw failure

end Run

/-! ## Opening -/

/-- What opening a context logs. -/
def openingWords (settings : Settings) (client : Client) : Language Event :=
  match settings.space, client with
  | none, .cli binary timeout => {[Client.namespaceEvent binary timeout]}
  | _, _ => 1

theorem logs_chosenNamespace (settings : Settings) (client : Client) :
    (chosenNamespace settings client).Logs (openingWords settings client) := by
  unfold chosenNamespace openingWords
  cases settings.space with
  | some space => exact logs_pure space
  | none =>
    cases client with
    | cli binary timeout => exact Client.logs_activeNamespace binary timeout
    | store => exact logs_pure _

/-- The client of a new context. -/
def Overrides.clientOf (overrides : Overrides) (settings : Settings) : Client :=
  overrides.client.getD (.cli settings.clusterBinary settings.clusterTimeout)

/-- A new context for a namespace. -/
def Overrides.contextOf (overrides : Overrides) (settings : Settings) (space : String) :
    Context where
  settings := settings
  client := overrides.clientOf settings
  space := space
  engine := overrides.engine.getD (.command settings.engineBinary)
  runner := overrides.runner.getD (.binary settings.clusterBinary)

/-- **A new context** has what it was given and remembers no objects. -/
theorem startContext_run (settings : Settings) (overrides : Overrides) (world : World) :
    ∃ opening ∈ openingWords settings (overrides.clientOf settings),
      (∃ failure opened, startContext settings overrides world = .error failure opened ∧
        opened.log = world.log ++ opening) ∨
      ∃ space opened, startContext settings overrides world
          = .ok (overrides.contextOf settings space) opened ∧
        opened.log = world.log ++ opening ∧ opened.tracked = [] := by
  obtain ⟨-, opening, hopening, hlog⟩ :=
    logs_chosenNamespace settings (overrides.clientOf settings) world
  refine ⟨opening, hopening, ?_⟩
  unfold startContext
  cases hspace : chosenNamespace settings (overrides.clientOf settings) world with
  | error failure opened =>
    rw [Run.behind_of_error hspace] at hlog
    exact .inl ⟨failure, opened, Run.bind_of_error hspace, hlog⟩
  | ok space opened =>
    rw [Run.behind_of_ok hspace] at hlog
    exact .inr ⟨space, { opened with tracked := [] }, Run.bind_of_ok hspace, hlog, rfl⟩

/-! ## Teardown -/

namespace Context

variable (context : Context)

/-- The events by which objects are removed one after the other. -/
def deletions (objects : List (String × String)) : List Event :=
  objects.map fun object => context.client.deleteEvent context.space object.1 object.2

/-- Removals go through their objects in order; a failure that is not one of the cluster, or that
cannot be told, ends them early. -/
theorem logs_deleteAll (objects : List (String × String)) :
    (context.deleteAll objects).Logs
      {word | word <+: context.deletions objects ∧ (objects ≠ [] → word ≠ [])} := by
  induction objects with
  | nil =>
    refine (logs_pure ()).mono ?_
    rintro _ rfl
    exact ⟨List.prefix_rfl, absurd rfl⟩
  | cons object rest ih =>
    have hfirst := (context.client.logs_delete context.space object.1 object.2).telling .cluster
      (refusalLine object.1 object.2)
    refine (hfirst.seq fun _ => ih).mono ?_
    rintro _ (rfl | ⟨_, rfl, more, ⟨hmore, -⟩, rfl⟩)
    · exact ⟨List.prefix_append _ _, fun _ => List.cons_ne_nil _ _⟩
    · exact ⟨List.cons_prefix_cons.mpr ⟨rfl, hmore⟩, fun _ => List.cons_ne_nil _ _⟩

/-- **The end of a run** removes what was remembered. -/
theorem teardown_log (world : World) :
    ∃ removals, (context.teardown.behind world).log = world.log ++ removals ∧
      removals <+: context.deletions world.tracked.reverse ∧
      (world.tracked ≠ [] → removals ≠ []) := by
  obtain ⟨-, removals, ⟨hpart, hne⟩, hlog⟩ :=
    context.logs_deleteAll world.tracked.reverse world
  refine ⟨removals, ?_, hpart, fun h => hne (by simpa using h)⟩
  rw [teardown, Run.behind_ensuring]
  have hdeleted : (context.deleteTracked.behind world).log = world.log ++ removals := by
    show (Run.behind (context.deleteAll world.tracked.reverse >>= _) world).log = _
    cases hrun : context.deleteAll world.tracked.reverse world with
    | error failure world' =>
      rw [Run.behind_of_error hrun] at hlog
      rw [Run.behind, Run.bind_of_error hrun]
      exact hlog
    | ok a world' =>
      rw [Run.behind_of_ok hrun] at hlog
      rw [Run.behind, Run.bind_of_ok hrun]
      exact hlog
  exact hdeleted

/-- One object that was remembered is removed. -/
theorem teardown_log_of_singleton {world : World} {kind name : String}
    (h : world.tracked = [(kind, name)]) :
    (context.teardown.behind world).log
      = world.log ++ [context.client.deleteEvent context.space kind name] := by
  obtain ⟨removals, hlog, hpart, hne⟩ := context.teardown_log world
  rw [h] at hpart hne
  have hlength := List.length_pos_iff.mpr (hne (List.cons_ne_nil _ _))
  rw [hlog, hpart.eq_of_length_le hlength]
  rfl

/-- Without an object that was remembered, nothing is removed. -/
theorem teardown_log_of_nil {world : World} (h : world.tracked = []) :
    (context.teardown.behind world).log = world.log := by
  obtain ⟨removals, hlog, hpart, -⟩ := context.teardown_log world
  rw [h] at hpart
  rw [hlog, List.prefix_nil.mp hpart, List.append_nil]

end Context

end Rollout
