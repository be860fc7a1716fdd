import Mathlib.Computability.Language
import Mathlib.Order.CompletePartialOrder
import Rollout.Proofs.World.Runs

/-!
# Courses of runs

A run is laid out as a plan: steps in a row, each with the events it may log, where later steps may
depend on what earlier ones gave. The course of a plan passes its steps one by one up to its end or
up to the step that raises a failure.

- `Run.behind`, `Run.Logs`: the world a run leaves, and the words by which its log may grow.
- `Step`, `Plan`: one step, and steps in a row.
- `Course`: the way a plan takes in a world.
- `Plan.exists_course`: **every run** of a plan takes a course.
- `Course.log`, `Course.word`: what a course logs: a part from the start of **a word of the plan**,
  and the whole word if no step raised a failure.
- `Course.bind_inv`: a course of two plans in a row.
-/

namespace Rollout

/-- The world that a result comes with. -/
def worldOf {α : Type} : EStateM.Result Failure World α → World
  | .ok _ world => world
  | .error _ world => world

namespace Run

variable {α β : Type}

/-- The world that a run leaves, whatever it gives. -/
def behind (run : Run α) (world : World) : World :=
  worldOf (run world)

theorem behind_of_ok {run : Run α} {world world' : World} {a : α} (h : run world = .ok a world') :
    run.behind world = world' := by
  rw [behind, h, worldOf]

theorem behind_of_error {run : Run α} {world world' : World} {failure : Failure}
    (h : run world = .error failure world') : run.behind world = world' := by
  rw [behind, h, worldOf]

/-- Whatever the run gives, its log has grown by one of the words, and the objects that are removed
at the end are the same. -/
def Logs (run : Run α) (words : Language Event) : Prop :=
  ∀ world, (run.behind world).tracked = world.tracked ∧
    ∃ word ∈ words, (run.behind world).log = world.log ++ word

/-- A run that only changes what is not logged. -/
theorem logs_nothing {run : Run α} (h : ∀ world, (run.behind world).tracked = world.tracked ∧
    (run.behind world).log = world.log) : run.Logs 1 := fun world =>
  ⟨(h world).1, [], Language.nil_mem_one, by rw [(h world).2, List.append_nil]⟩

theorem logs_pure (a : α) : (pure a : Run α).Logs 1 := logs_nothing fun _ => ⟨rfl, rfl⟩

theorem logs_throw (failure : Failure) : (throw failure : Run α).Logs 1 :=
  logs_nothing fun _ => ⟨rfl, rfl⟩

theorem logs_get : (get : Run World).Logs 1 := logs_nothing fun _ => ⟨rfl, rfl⟩

theorem logs_modify {change : World → World}
    (htracked : ∀ world, (change world).tracked = world.tracked)
    (hlog : ∀ world, (change world).log = world.log) : (modify change : Run Unit).Logs 1 :=
  logs_nothing fun world => ⟨htracked world, hlog world⟩

theorem logs_onDisk (action : Disk.Action α) : (onDisk action).Logs 1 := by
  refine logs_nothing fun world => ?_
  unfold behind onDisk
  cases action world.disk <;> exact ⟨rfl, rfl⟩

theorem logs_ofExcept (result : Except Failure α) : (ofExcept result).Logs 1 := by
  cases result with
  | ok a => exact logs_pure a
  | error failure => exact logs_throw failure

theorem logs_emit (event : Event) : (emit event).Logs {[event]} := fun _ =>
  ⟨rfl, [event], rfl, rfl⟩

theorem Logs.mono {run : Run α} {words more : Language Event} (h : run.Logs words)
    (hle : words ≤ more) : run.Logs more := fun world =>
  let ⟨htracked, word, hword, hlog⟩ := h world
  ⟨htracked, word, hle hword, hlog⟩

section Bind

variable {run : Run α} {next : α → Run β} {words more : Language Event}

/-- A run behind another one that passes logs on. -/
theorem Logs.bind_of_ok {world world' : World} {a : α} (h : run.Logs words)
    (hrun : run world = .ok a world') (hnext : (next a).Logs more) :
    ((run >>= next).behind world).tracked = world.tracked ∧
      ∃ word ∈ words * more, ((run >>= next).behind world).log = world.log ++ word := by
  obtain ⟨htracked, word, hword, hlog⟩ := h world
  rw [behind_of_ok hrun] at htracked hlog
  obtain ⟨htracked', word', hword', hlog'⟩ := hnext world'
  rw [behind, Run.bind_of_ok hrun]
  exact ⟨htracked'.trans htracked, word ++ word', Language.append_mem_mul hword hword',
    hlog'.trans (by rw [hlog, List.append_assoc])⟩

/-- Two runs in a row, where the first one always passes. -/
theorem Logs.bind_of_passes (h : run.Logs words)
    (hpasses : ∀ world, ∃ a world', run world = .ok a world') (hnext : ∀ a, (next a).Logs more) :
    (run >>= next).Logs (words * more) := fun world =>
  let ⟨a, _, hrun⟩ := hpasses world
  h.bind_of_ok hrun (hnext a)

/-- Two runs in a row: a failure of the first one ends both. -/
theorem Logs.seq (h : run.Logs words) (hnext : ∀ a, (next a).Logs more) :
    (run >>= next).Logs (words + words * more) := by
  intro world
  cases hrun : run world with
  | error failure world' =>
    obtain ⟨htracked, word, hword, hlog⟩ := h world
    rw [behind_of_error hrun] at htracked hlog
    rw [behind, bind_of_error hrun]
    exact ⟨htracked, word, .inl hword, hlog⟩
  | ok a world' =>
    obtain ⟨htracked, word, hword, hlog⟩ := h.bind_of_ok hrun (hnext a)
    exact ⟨htracked, word, .inr hword, hlog⟩

/-- What follows a run and logs nothing leaves its words as they are. -/
theorem Logs.bind (h : run.Logs words) (hnext : ∀ a, (next a).Logs 1) :
    (run >>= next).Logs words := by
  have hseq := h.seq hnext
  rwa [mul_one, Language.add_self] at hseq

/-- What follows a look at the world may depend on it. -/
theorem logs_get_bind {next : World → Run β} (h : ∀ world, (next world).Logs words) :
    (get >>= next).Logs words := fun world =>
  h world world

/-- What follows a result that may be a failure has the words of the whole. -/
theorem logs_ofExcept_bind {result : Except Failure α}
    (hok : ∀ a, result = .ok a → (next a).Logs words)
    (herror : ∀ failure, result = .error failure → [] ∈ words) :
    (ofExcept result >>= next).Logs words := by
  cases hresult : result with
  | ok a => exact hok a hresult
  | error failure =>
    refine (logs_throw failure).mono ?_
    rintro word hword
    obtain rfl := (Language.mem_one _).mp hword
    exact herror failure hresult

/-- What follows an event logs on. -/
theorem logs_emit_bind {next : Run β} (event : Event) (h : next.Logs words) :
    (emit event >>= fun _ => next).Logs ({[event]} * words) :=
  (logs_emit event).bind_of_passes (fun _ => ⟨_, _, rfl⟩) fun _ => h

theorem logs_sleep (seconds : Binary64) : (sleep seconds).Logs {[.sleep seconds]} :=
  (logs_emit _).bind fun _ => logs_modify (fun _ => rfl) fun _ => rfl

end Bind

end Run

/-- Words in a row are one word. -/
theorem singleton_mul_singleton (first second : List Event) :
    ({first} * {second} : Language Event) = {first ++ second} :=
  Set.image2_singleton

/-! ## Plans -/

/-- A step of a plan: what is run, the words it may log, and what it does to the objects that are
removed at the end. -/
structure Step (α : Type) where
  given : Nonempty α
  run : Run α
  words : Language Event
  remembers : List (String × String) → List (String × String)
  logs : ∀ world, (run.behind world).tracked = remembers world.tracked ∧
    ∃ word ∈ words, (run.behind world).log = world.log ++ word

/-- Steps in a row. What a step gives may decide what comes next. -/
inductive Plan (α : Type) : Type 1
  | give (a : α)
  | step {β : Type} (first : Step β) (next : β → Plan α)

namespace Plan

variable {α β : Type}

/-- A plan of one step that has nothing to do with the objects that are removed. -/
def of [Nonempty α] (run : Run α) (words : Language Event) (logs : run.Logs words) : Plan α :=
  .step ⟨‹_›, run, words, id, logs⟩ .give

/-- Two plans in a row. -/
def bind : Plan α → (α → Plan β) → Plan β
  | .give a, f => f a
  | .step first next, f => .step first fun b => (next b).bind f

instance : Monad Plan where
  pure := .give
  bind := bind

/-- The run that a plan lays out. -/
def run : Plan α → Run α
  | .give a => pure a
  | .step first next => first.run >>= fun b => (next b).run

/-- The words that all steps of a plan may log in a row. -/
def words : Plan α → Language Event
  | .give _ => 1
  | .step first next => first.words * ⨆ b, (next b).words

/-- No step changes the objects that are removed at the end. -/
def Keeps : Plan α → Prop
  | .give _ => True
  | .step first next => first.remembers = id ∧ ∀ b, (next b).Keeps

@[simp] theorem run_pure (a : α) : (pure a : Plan α).run = pure a := rfl

@[simp] theorem run_of [Nonempty α] (run : Run α) (words : Language Event)
    (logs : run.Logs words) : (of run words logs).run = run :=
  bind_pure run

@[simp] theorem run_bind (plan : Plan α) (f : α → Plan β) :
    (plan >>= f).run = plan.run >>= fun a => (f a).run := by
  show (plan.bind f).run = _
  induction plan with
  | give a => rfl
  | step first next ih =>
    show first.run >>= (fun b => ((next b).bind f).run) = (first.run >>= _) >>= _
    rw [bind_assoc]
    exact congrArg _ (funext ih)

theorem run_ite {c : Prop} [Decidable c] (first second : Plan α) :
    (if c then first else second).run = if c then first.run else second.run := by
  split <;> rfl

theorem words_ite {c : Prop} [Decidable c] (first second : Plan α) :
    (if c then first else second).words = if c then first.words else second.words := by
  split <;> rfl

@[simp] theorem words_pure (a : α) : (pure a : Plan α).words = 1 := rfl

@[simp] theorem words_of [Nonempty α] (run : Run α) (words : Language Event)
    (logs : run.Logs words) : (of run words logs).words = words := by
  show words * ⨆ _ : α, 1 = words
  rw [iSup_const, mul_one]

@[simp] theorem words_of_bind [Nonempty α] (run : Run α) (words : Language Event)
    (logs : run.Logs words) (f : α → Plan β) :
    (of run words logs >>= f).words = words * ⨆ a, (f a).words := rfl

/-- Two plans in a row log a word of the first one and a word of what follows it. -/
theorem words_bind_le (plan : Plan α) (f : α → Plan β) :
    (plan >>= f).words ≤ plan.words * ⨆ a, (f a).words := by
  show (plan.bind f).words ≤ _
  induction plan with
  | give a =>
    show (f a).words ≤ 1 * _
    rw [one_mul]
    exact le_iSup (fun a => (f a).words) a
  | step first next ih =>
    show first.words * ⨆ b, ((next b).bind f).words ≤ first.words * (⨆ b, (next b).words) * _
    rw [mul_assoc, Language.iSup_mul]
    exact mul_le_mul_right (iSup_mono ih) _

/-- What follows a plan may have the same words whatever the plan gave. -/
theorem words_bind_of_const {f : α → Plan β} {words : Language Event} (plan : Plan α)
    (h : ∀ a, (f a).words = words) : (plan >>= f).words = plan.words * words := by
  show (plan.bind f).words = _
  induction plan with
  | give a => exact (h a).trans (one_mul words).symm
  | step first next ih =>
    show first.words * ⨆ b, ((next b).bind f).words = first.words * (⨆ b, (next b).words) * words
    rw [mul_assoc, Language.iSup_mul]
    exact congrArg _ (iSup_congr ih)

theorem keeps_bind {plan : Plan α} {f : α → Plan β} (h : plan.Keeps) (hf : ∀ a, (f a).Keeps) :
    (plan >>= f).Keeps := by
  show (plan.bind f).Keeps
  induction plan with
  | give a => exact hf a
  | step first next ih => exact ⟨h.1, fun b => ih b (h.2 b)⟩

@[simp] theorem keeps_pure (a : α) : (pure a : Plan α).Keeps := trivial

@[simp] theorem keeps_of [Nonempty α] (run : Run α) (words : Language Event)
    (logs : run.Logs words) : (of run words logs).Keeps :=
  ⟨rfl, fun _ => trivial⟩

@[simp] theorem keeps_of_bind [Nonempty α] (run : Run α) (words : Language Event)
    (logs : run.Logs words) (f : α → Plan β) :
    (of run words logs >>= f).Keeps ↔ ∀ a, (f a).Keeps :=
  and_iff_right rfl

@[simp] theorem keeps_ite {c : Prop} [Decidable c] {first second : Plan α} :
    (if c then first else second).Keeps ↔ if c then first.Keeps else second.Keeps := by
  split <;> rfl

/-- Every plan has a word: each step logs one in any world, and gives something. -/
theorem exists_word (plan : Plan α) : ∃ word, word ∈ plan.words := by
  induction plan with
  | give a => exact ⟨[], Language.nil_mem_one⟩
  | step first next ih =>
    obtain ⟨-, word, hword, -⟩ := first.logs (World.start Files.empty)
    obtain ⟨b⟩ := first.given
    obtain ⟨more, hmore⟩ := ih b
    exact ⟨word ++ more, Language.append_mem_mul hword (Language.mem_iSup.mpr ⟨b, hmore⟩)⟩

end Plan

/-! ## Courses -/

section Courses

variable {α β : Type}

/-- The way a plan takes in a world, with the events on the way and the result at its end: the steps
pass one after the other until the end or until one of them raises a failure, behind which there is
no other. -/
inductive Course : Plan α → World → List Event → EStateM.Result Failure World α → Prop
  | give (a : α) (world : World) : Course (.give a) world [] (.ok a world)
  | passed {β : Type} {first : Step β} {next : β → Plan α} {world world' : World} {b : β}
      {events more : List Event} {result : EStateM.Result Failure World α}
      (run : first.run world = .ok b world') (log : world'.log = world.log ++ events)
      (word : events ∈ first.words) (rest : Course (next b) world' more result) :
      Course (.step first next) world (events ++ more) result
  | raised {β : Type} {first : Step β} {next : β → Plan α} {world world' : World}
      {failure : Failure} {events : List Event}
      (run : first.run world = .error failure world') (log : world'.log = world.log ++ events)
      (word : events ∈ first.words) :
      Course (.step first next) world events (.error failure world')

/-- **Every run** of a plan takes a course. -/
theorem Plan.exists_course (plan : Plan α) (world : World) :
    ∃ events, Course plan world events (plan.run world) := by
  induction plan generalizing world with
  | give a => exact ⟨[], .give a world⟩
  | step first next ih =>
    obtain ⟨-, word, hword, hlog⟩ := first.logs world
    cases hrun : first.run world with
    | ok b world' =>
      obtain ⟨more, hmore⟩ := ih b world'
      rw [Run.behind_of_ok hrun] at hlog
      refine ⟨word ++ more, ?_⟩
      rw [Plan.run, Run.bind_of_ok hrun]
      exact .passed hrun hlog hword hmore
    | error failure world' =>
      rw [Run.behind_of_error hrun] at hlog
      refine ⟨word, ?_⟩
      rw [Plan.run, Run.bind_of_error hrun]
      exact .raised hrun hlog hword

namespace Course

variable {plan : Plan α} {world : World} {events : List Event}
  {result : EStateM.Result Failure World α}

/-- A course ends as its run does. -/
theorem run_eq (h : Course plan world events result) : plan.run world = result := by
  induction h with
  | give => rfl
  | passed hrun _ _ _ ih => rw [Plan.run, Run.bind_of_ok hrun, ih]
  | raised hrun => rw [Plan.run, Run.bind_of_error hrun]

/-- The events of a course are what the log has grown by. -/
theorem log (h : Course plan world events result) :
    (worldOf result).log = world.log ++ events := by
  induction h with
  | give => exact (List.append_nil _).symm
  | passed _ hlog _ _ ih => rw [ih, hlog, List.append_assoc]
  | raised _ hlog => exact hlog

/-- **What a course logs** is a part from the start of a word of the plan, and the whole word unless
a step raised a failure. -/
theorem word (h : Course plan world events result) :
    ∃ word ∈ plan.words, events <+: word ∧ ∀ a world', result = .ok a world' → events = word := by
  induction h with
  | give => exact ⟨[], Language.nil_mem_one, List.prefix_rfl, fun _ _ _ => rfl⟩
  | @passed _ _ _ _ _ b events _ _ _ _ hword _ ih =>
    obtain ⟨word, hmem, hpart, hwhole⟩ := ih
    exact ⟨events ++ word, Language.append_mem_mul hword (Language.mem_iSup.mpr ⟨b, hmem⟩),
      (List.prefix_append_right_inj _).mpr hpart, fun a world' hok => by
        rw [hwhole a world' hok]⟩
  | @raised _ first next _ _ _ events _ _ hword =>
    obtain ⟨b⟩ := first.given
    obtain ⟨more, hmore⟩ := (next b).exists_word
    exact ⟨events ++ more, Language.append_mem_mul hword (Language.mem_iSup.mpr ⟨b, hmore⟩),
      List.prefix_append _ _, nofun⟩

/-- A plan whose steps keep the objects that are removed at the end keeps them. -/
theorem tracked (h : Course plan world events result) (hkeeps : plan.Keeps) :
    (worldOf result).tracked = world.tracked := by
  induction h with
  | give => rfl
  | @passed _ first _ world _ _ _ _ _ hrun _ _ _ ih =>
    have hstep := (first.logs world).1
    rw [Run.behind_of_ok hrun, hkeeps.1] at hstep
    exact (ih (hkeeps.2 _)).trans hstep
  | @raised _ first _ world _ _ _ hrun =>
    have hstep := (first.logs world).1
    rw [Run.behind_of_error hrun, hkeeps.1] at hstep
    exact hstep

/-- **A course of two plans** in a row ends in the first one, or goes on with what follows what it
gave. -/
theorem bind_inv {f : α → Plan β} {result : EStateM.Result Failure World β}
    (h : Course (plan >>= f) world events result) :
    (∃ failure world', Course plan world events (.error failure world') ∧
      result = .error failure world') ∨
    ∃ a world' first rest, Course plan world first (.ok a world') ∧
      Course (f a) world' rest result ∧ events = first ++ rest := by
  revert h
  show Course (plan.bind f) world events result → _
  induction plan generalizing world events with
  | give a => exact fun h => .inr ⟨a, world, [], events, .give a world, h, rfl⟩
  | step first next ih =>
    rintro (_ | ⟨hrun, hlog, hword, hrest⟩ | ⟨hrun, hlog, hword⟩)
    · rcases ih _ hrest with ⟨failure, world', hfirst, rfl⟩ | ⟨a, world', _, _, hfirst, hmore, rfl⟩
      · exact .inl ⟨failure, world', .passed hrun hlog hword hfirst, rfl⟩
      · exact .inr ⟨a, world', _, _, .passed hrun hlog hword hfirst, hmore,
          (List.append_assoc _ _ _).symm⟩
    · exact .inl ⟨_, _, .raised hrun hlog hword, rfl⟩

/-- A course of one step. -/
theorem of_inv [Nonempty α] {run : Run α} {words : Language Event} {logs : run.Logs words}
    (h : Course (.of run words logs) world events result) :
    run world = result ∧ events ∈ words := by
  rcases h with _ | ⟨hrun, hlog, hword, hrest⟩ | ⟨hrun, hlog, hword⟩
  · cases hrest
    rw [List.append_nil]
    exact ⟨hrun, hword⟩
  · exact ⟨hrun, hword⟩

end Course

end Courses

end Rollout
