import Rollout.Proofs.Cluster.Calls
import Rollout.Proofs.Cluster.Poll
import Rollout.Scenario.Run

/-!
# What the steps of scenarios log

- `repeated`, `logs_retry`: the words of a repetition.
- `Context.commandWords`, `Engine.buildWords`: the words of commands and builds, which are refused
  without being run when they are no command lines.
- `Context.pageEvent`, `Context.postEvent`: the requests to an application.
-/

namespace Rollout

open Run (logs_pure logs_throw logs_get logs_modify logs_onDisk logs_ofExcept logs_emit logs_sleep
  logs_get_bind logs_ofExcept_bind logs_emit_bind)

/-! ## Repetitions -/

/-- An event and then at most `again` times a pause and the event. -/
def repeated (event : Event) (pause : Binary64) (again : Nat) : Language Event :=
  {word | ∃ k ≤ again, word = pollEvents event pause (k + 1)}

theorem singleton_le_repeated (event : Event) (pause : Binary64) (again : Nat) :
    {[event]} ≤ repeated event pause again := by
  rintro _ rfl
  exact ⟨0, Nat.zero_le again, rfl⟩

theorem repeated_succ_le (event : Event) (pause : Binary64) (again : Nat) :
    {[event]} * ({[.sleep pause]} * repeated event pause again)
      ≤ repeated event pause (again + 1) := by
  rintro _ ⟨_, rfl, _, ⟨_, rfl, _, ⟨k, hk, rfl⟩, rfl⟩, rfl⟩
  exact ⟨k + 1, Nat.succ_le_succ hk, (pollEvents_succ event pause k).symm⟩

/-- A run of one event that is tried again logs the event with pauses in between. -/
theorem logs_retry {α : Type} {act : Run α} {accepted : α → Bool} {stopped : Run Bool}
    {event : Event} {pause : Binary64} (hact : act.Logs {[event]}) (hstopped : stopped.Logs 1)
    (again : Nat) :
    (Run.retry act accepted stopped (Run.sleep pause) again).Logs (repeated event pause again) := by
  induction again with
  | zero => exact hact.mono (singleton_le_repeated event pause 0)
  | succ again ih =>
    -- behind a try there is nothing, or a pause and the words of one try less
    have hpause : (do
        Run.sleep pause
        Run.retry act accepted stopped (Run.sleep pause) again : Run α).Logs
        (1 + {[.sleep pause]} * repeated event pause again) :=
      ((logs_sleep pause).bind_of_passes (fun _ => ⟨_, _, rfl⟩) fun _ => ih).mono fun _ => .inr
    have hstop : ∀ a, (do
        if ← stopped then return a
        else
          Run.sleep pause
          Run.retry act accepted stopped (Run.sleep pause) again : Run α).Logs
        (1 + {[.sleep pause]} * repeated event pause again) := by
      intro a
      have hseq := hstopped.seq fun stop => show (if stop = true then pure a else do
          Run.sleep pause
          Run.retry act accepted stopped (Run.sleep pause) again : Run α).Logs
          (1 + {[.sleep pause]} * repeated event pause again) by
        split
        · exact (logs_pure a).mono fun _ => .inl
        · exact hpause
      rwa [one_mul, ← add_assoc, Language.add_self] at hseq
    have hrest : ∀ a, (do
        if accepted a then return a
        else if ← stopped then return a
        else
          Run.sleep pause
          Run.retry act accepted stopped (Run.sleep pause) again : Run α).Logs
        (1 + {[.sleep pause]} * repeated event pause again) := by
      intro a
      split
      · exact (logs_pure a).mono fun _ => .inl
      · exact hstop a
    refine (hact.seq hrest).mono ?_
    rw [mul_add, mul_one, ← add_assoc, Language.add_self]
    exact sup_le (singleton_le_repeated event pause _) (repeated_succ_le event pause again)

/-! ## Processes and builds -/

theorem logs_nextProcess : Run.nextProcess.Logs 1 := by
  refine Run.logs_nothing fun world => ?_
  obtain ⟨disk, store, pods, deleteFaults, replies, processes, builds, routes, remotes, absent,
    pauses, console, tracked, closed, log⟩ := world
  cases processes <;> exact ⟨rfl, rfl⟩

theorem logs_nextBuild : Run.nextBuild.Logs 1 := by
  refine Run.logs_nothing fun world => ?_
  obtain ⟨disk, store, pods, deleteFaults, replies, processes, builds, routes, remotes, absent,
    pauses, console, tracked, closed, log⟩ := world
  cases builds <;> exact ⟨rfl, rfl⟩

theorem logs_startProcess (argv : List String) (directory : Option String) :
    (Run.startProcess argv directory).Logs {[.process argv directory]} :=
  (logs_emit _).bind fun _ => logs_nextProcess

/-- What a cluster command logs. A line that is no command is refused without being run. -/
def Context.commandWords (context : Context) (line : String) : Language Event :=
  match context.runner with
  | .handed => {[.command line]}
  | .binary name =>
    match commandArguments name line with
    | .ok argv => {[.process argv none]}
    | .error _ => 1

theorem Context.logs_runCommand (context : Context) (line : String) :
    (context.runCommand line).Logs (context.commandWords line) := by
  unfold Context.runCommand Context.commandWords
  cases context.runner with
  | handed => exact (logs_emit _).bind fun _ => logs_pure _
  | binary name =>
    dsimp only
    unfold runLine
    cases commandArguments name line with
    | error failure => exact logs_throw failure
    | ok argv =>
      refine logs_ofExcept_bind ?_ nofun
      rintro _ ⟨⟩
      refine Run.Logs.bind (logs_startProcess argv none) fun result => ?_
      split
      · exact logs_pure _
      · exact logs_throw _

/-- What a build logs. Goals that are no command line are refused without a build. -/
def Engine.buildWords (engine : Engine) (project : Path) (goals profile : String) :
    Language Event :=
  match engine with
  | .command binary =>
    match engineArguments project goals profile with
    | .ok args => {[.process (binary :: args) (some project.text)]}
    | .error _ => 1
  | .scripted _ => {[.build project.text goals profile]} * ⨆ content, {[.descriptor content]}

theorem Engine.logs_run (engine : Engine) (project : Path) (goals profile : String) :
    (engine.run project goals profile).Logs (engine.buildWords project goals profile) := by
  unfold Engine.run Engine.buildWords
  cases engine with
  | command binary =>
    dsimp only
    cases engineArguments project goals profile with
    | error failure => exact logs_throw failure
    | ok args =>
      refine logs_ofExcept_bind ?_ nofun
      rintro _ ⟨⟩
      exact Run.Logs.bind (logs_startProcess _ _) fun _ => logs_pure _
  | scripted space =>
    refine logs_emit_bind _ (logs_get_bind fun world => ?_)
    have hdescriptor := logs_emit (.descriptor (descriptorContent world.disk.files project))
    refine (hdescriptor.bind fun _ => ?_).mono
      (le_iSup (fun content => ({[.descriptor content]} : Language Event)) _)
    refine logs_nextBuild.bind fun build => logs_get_bind fun world => ?_
    refine (logs_ofExcept _).bind fun store => ?_
    exact Run.Logs.bind (logs_modify (fun _ => rfl) fun _ => rfl) fun _ => logs_pure _

/-! ## Requests -/

namespace Context

/-- What asking for a page leaves in the log. -/
def pageEvent (context : Context) (url : String) : Event :=
  .request ⟨"GET", url, none, context.settings.requestTimeout, true⟩

/-- What sending a record leaves in the log. -/
def postEvent (context : Context) (url body : String) : Event :=
  .request ⟨"POST", url, some body, context.settings.requestTimeout, true⟩

theorem logs_nextOutcome (key : String) : (Run.nextOutcome key).Logs 1 := by
  refine Run.logs_nothing fun world => ?_
  have hget : (get : Run World) world = .ok world world := rfl
  unfold Run.behind Run.nextOutcome
  simp only [bind, EStateM.bind, hget]
  cases (world.routes.lookup key).getD [] <;> exact ⟨rfl, rfl⟩

theorem logs_ask (context : Context) {method url : String} {body : Option String}
    {request : HttpRequest} (h : HttpRequest.ofMethod method url body = .ok request) :
    (context.ask method url body).Logs
      {[.request ⟨request.method, url, request.body, context.settings.requestTimeout, true⟩]} := by
  unfold Context.ask Http.send Http.exchange
  rw [if_pos rfl, h]
  refine logs_ofExcept_bind ?_ nofun
  rintro _ ⟨⟩
  refine (logs_emit _).bind fun _ => (logs_nextOutcome _).bind fun outcome => ?_
  cases outcome with
  | response status body => exact logs_pure _
  | fault fault => exact logs_throw _

theorem logs_page (context : Context) (url : String) :
    (context.ask "GET" url none).Logs {[context.pageEvent url]} := by
  have hget : HttpRequest.ofMethod "GET" url none = .ok ⟨"GET", url, [], none⟩ := by
    rfl
  exact context.logs_ask hget

theorem logs_post (context : Context) (url body : String) :
    (context.ask "POST" url (some body)).Logs {[context.postEvent url body]} := by
  have hpost : HttpRequest.ofMethod "POST" url (some body)
      = .ok ⟨"POST", url, [("Content-Type", jsonContentType)], some body⟩ := by
    rfl
  exact context.logs_ask hpost

end Context

end Rollout
