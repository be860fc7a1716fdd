import Rollout.Proofs.Scenario.Plans

/-!
# The words of a scenario

- `Scenario.words`: **what a scenario does** to the outside world from its start to its end.
- `words_plan_le`: its plan has no other words.
- `Silent`: words without any event of a kind; which parts of a scenario list no pods, make no
  objects and send no requests.
-/

namespace Rollout

/-! ## The words of a scenario -/

namespace Context

variable (context : Context) (booster : Booster)

/-- The commands before a deployment: the one for the view role, if any, and those of the
booster. -/
def setUpWords : Language Event :=
  (((if booster.viewRole then [viewRoleCommand] else [])
      ++ booster.setupCommands).map fun command =>
    context.commandWords (inNamespace command context.space)).prod

/-- The config map looked for, and made or patched. -/
def configMapWords : Language Event :=
  match booster.configMap with
  | none => 1
  | some spec => ⨆ data : ConfigData,
    {[context.client.getEvent context.space configMapKind spec.name]} *
      ({[context.client.createEvent context.space configMapKind (configMapObject spec.name data)]} ⊔
        {[context.client.editEvent context.space configMapKind spec.name
          (.obj [("data", ConfigData.toJson data)])]})

/-- The config map patched for a redeployment. -/
def changeWords : Language Event :=
  match booster.configMap with
  | none => 1
  | some spec => ⨆ data : ConfigData,
    {[context.client.editEvent context.space configMapKind spec.name
      (.obj [("data", ConfigData.toJson data)])]}

/-- The requests of a check and the pauses between them. -/
def checkWords (host : String) : Language Event :=
  match booster.check, booster.greeting, booster.crud with
  | .route, _, _ => {[context.pageEvent (pageUrl host "")]}
  | .greeting, some greeting, _ =>
    repeated (context.pageEvent (pageUrl host greeting.path)) context.settings.probeRetry
      (Run.repeats context.settings.probeAttempts)
  | .crud, _, some crud =>
    {[context.postEvent (pageUrl host crud.path) (Json.obj [("name", .str crud.name)]).render]} *
      ⨆ id : Json, {[context.pageEvent (pageUrl host crud.path ++ "/" ++ id.display)]}
  | .health, some greeting, _ =>
    {[context.pageEvent (pageUrl host livenessPath),
        context.pageEvent (pageUrl host greeting.path), context.pageEvent (pageUrl host stopPath),
        context.pageEvent (pageUrl host livenessPath)]} *
      repeated (context.pageEvent (pageUrl host greeting.path)) recoveryPause
        (Run.repeats context.settings.recovery)
  | _, _, _ => 1

/-- The deployments listed, when one of them has to carry the annotation. -/
def annotatedWords : Language Event :=
  if booster.checkStamp then {[context.client.listingEvent context.space deploymentKind none]}
  else 1

/-- The objects of an application looked for behind a pause. -/
def locateWords (app : String) : Language Event :=
  {[.sleep context.settings.postDeploy,
    context.client.getEvent context.space deploymentKind app,
    context.client.getEvent context.space serviceKind app,
    context.client.listingEvent context.space routeKind none]}

end Context

namespace Scenario

variable (scenario : Scenario) (context : Context) (booster : Booster) (project : Project)

/-- The pods of an application listed with pauses in between, and a pause to settle; before that,
the config map patched for a redeployment. -/
def awaitWords (app : String) : Language Event :=
  (match scenario with
    | .deployOnce => 1
    | .redeploy => context.changeWords booster) *
  (repeated (context.client.listEvent context.space app) context.settings.pollInterval
      (Run.repeats (scenario.polls context.settings)) * {[.sleep context.settings.settle]})

/-- The application asked, and behind a redeployment its deployment looked at. -/
def verifyWords (host : String) : Language Event :=
  context.checkWords booster host *
    match scenario with
    | .deployOnce => 1
    | .redeploy => context.annotatedWords booster

/-- All from the build on, for an application and some host. -/
def deployWords (app : String) : Language Event :=
  context.engine.buildWords project.path booster.goals booster.profile *
    (scenario.awaitWords context booster app *
      (context.locateWords app * ⨆ host, scenario.verifyWords context booster host))

/-- **What a scenario does** to the outside world from its start to its end, for some name of the
application. -/
def words : Language Event :=
  context.setUpWords booster * context.configMapWords booster *
    ⨆ app, scenario.deployWords context booster project app

end Scenario

/-! ## The words of its plan -/

section Words

variable (scenario : Scenario) (context : Context) (booster : Booster) (project : Project)

theorem words_commandsPlan (commands : List String) :
    (commandsPlan context commands).words = (commands.map fun command =>
      context.commandWords (inNamespace command context.space)).prod := by
  induction commands with
  | nil => rfl
  | cons command rest ih =>
    rw [commandsPlan, Plan.words_of_bind, iSup_const, ih, List.map_cons, List.prod_cons]

theorem words_trackPlan (kind name : String) : (trackPlan kind name).words = 1 := by
  show (1 : Language Event) * ⨆ _ : Unit, 1 = 1
  rw [iSup_const, mul_one]

theorem words_replacePlan (client : Client) (space name : String) (data : ConfigData) :
    (replacePlan client space name data).words
      = {[client.editEvent space configMapKind name
          (.obj [("data", ConfigData.toJson data)])]} := by
  rw [replacePlan, Plan.words_of_bind]
  simp only [Plan.words_pure, iSup_const, mul_one]

theorem words_ensurePlan (client : Client) (space name : String) (data : ConfigData) :
    (ensurePlan client space name data).words
      = {[client.getEvent space configMapKind name]} *
        ({[client.createEvent space configMapKind (configMapObject name data)]} ⊔
          {[client.editEvent space configMapKind name
            (.obj [("data", ConfigData.toJson data)])]}) := by
  rw [ensurePlan, Plan.words_of_bind, iSup_option]
  simp only [Plan.words_of_bind, Plan.words_pure, iSup_const, mul_one, words_replacePlan]

theorem words_setUpPlan :
    (setUpPlan context booster).words
      = context.setUpWords booster * context.configMapWords booster := by
  unfold setUpPlan Context.configMapWords Context.setUpWords
  rw [Plan.words_bind_of_const _ fun _ => rfl, words_commandsPlan]
  congr 1
  cases booster.configMap with
  | none => rfl
  | some spec =>
    dsimp only
    rw [Plan.words_of_bind, one_mul]
    refine iSup_congr fun data => ?_
    rw [Plan.words_bind_of_const _ fun _ => words_trackPlan _ _, mul_one, words_ensurePlan]

theorem words_editsPlan : (editsPlan scenario context booster project).words = 1 := by
  cases scenario with
  | deployOnce => exact Plan.words_of _ _ _
  | redeploy => simp only [editsPlan, Plan.words_of_bind, Plan.words_of, iSup_const, mul_one]

theorem words_preparePlan :
    (scenario.preparePlan context booster project).words
      = context.setUpWords booster * context.configMapWords booster := by
  have hedits : ∀ app : String, (do
      editsPlan scenario context booster project
      return app : Plan String).words = 1 := by
    intro app
    rw [Plan.words_bind_of_const _ fun _ => Plan.words_pure app, words_editsPlan, mul_one]
  rw [Scenario.preparePlan, Plan.words_of_bind, one_mul]
  have happ : ∀ app : String, (do
      setUpPlan context booster
      editsPlan scenario context booster project
      return app : Plan String).words
        = context.setUpWords booster * context.configMapWords booster := by
    intro app
    rw [Plan.words_bind_of_const _ fun _ => hedits app, words_setUpPlan, mul_one]
  rw [iSup_congr happ, iSup_const]

theorem words_buildPlan (engine : Engine) (path : Path) (goals profile : String) :
    (buildPlan engine path goals profile).words = engine.buildWords path goals profile := by
  rw [buildPlan, Plan.words_of_bind]
  simp only [Plan.words_ite, Plan.words_of, Plan.words_pure, ite_self, iSup_const, mul_one]

theorem words_changePlan : (changePlan context booster).words = context.changeWords booster := by
  unfold changePlan Context.changeWords
  cases booster.configMap with
  | none => rfl
  | some spec =>
    dsimp only
    rw [Plan.words_of_bind, one_mul]
    exact iSup_congr fun data => words_replacePlan _ _ _ data

theorem words_waitPlan (client : Client) (space app : String) (wanted : Wanted)
    (limits : PollLimits) :
    (waitPlan client space app wanted limits).words
      = repeated (client.listEvent space app) limits.interval (Run.repeats limits.maxPolls)
        * {[.sleep limits.settle]} := by
  rw [waitPlan, Plan.words_of_bind]
  simp only [Plan.words_of_bind, Plan.words_pure, iSup_const, mul_one]

theorem words_awaitPlan (app : String) :
    (scenario.awaitPlan context booster app).words = scenario.awaitWords context booster app := by
  cases scenario with
  | deployOnce => exact (words_waitPlan _ _ _ _ _).trans (one_mul _).symm
  | redeploy =>
    have hwords := Plan.words_bind_of_const (changePlan context booster) fun _ =>
      words_waitPlan context.client context.space app (Scenario.wanted booster .redeploy)
        (pollLimits context.settings (Scenario.polls context.settings .redeploy))
    rw [words_changePlan] at hwords
    exact hwords

theorem words_locatePlan (app : String) :
    (locatePlan context app).words = context.locateWords app := by
  rw [locatePlan, applicationPlan]
  simp only [Plan.words_of_bind, Plan.words_of, iSup_const, singleton_mul_singleton]
  rfl

theorem words_checkPlan (host : String) (redeployed : Bool) :
    (checkPlan context booster host redeployed).words = context.checkWords booster host := by
  unfold checkPlan Context.checkWords
  cases booster.check with
  | route =>
    simp only [routePlan, Plan.words_of_bind, Plan.words_of, iSup_const, mul_one]
  | greeting =>
    cases booster.greeting with
    | none => exact Plan.words_of _ _ _
    | some greeting =>
      simp only [greetingPlan, Plan.words_of_bind, Plan.words_of, iSup_const, mul_one]
  | crud =>
    cases booster.crud with
    | none => exact Plan.words_of _ _ _
    | some crud =>
      simp only [crudPlan, Plan.words_of_bind, Plan.words_of, iSup_const, mul_one, one_mul]
  | health =>
    cases booster.greeting with
    | none => exact Plan.words_of _ _ _
    | some greeting =>
      simp only [healthPlan, Plan.words_of_bind, Plan.words_of, Plan.words_ite, Plan.words_pure,
        ite_self, iSup_const, mul_one, one_mul]
      simp only [← mul_assoc, singleton_mul_singleton]
      rfl

theorem words_annotatedPlan :
    (annotatedPlan context booster).words = context.annotatedWords booster := by
  unfold annotatedPlan Context.annotatedWords
  simp only [Plan.words_ite, Plan.words_of_bind, Plan.words_of, Plan.words_pure, ite_self,
    iSup_const, mul_one]

theorem words_verifyPlan (host : Json) :
    (scenario.verifyPlan context booster host).words
      = scenario.verifyWords context booster host.display := by
  unfold Scenario.verifyPlan Scenario.verifyWords
  rw [← words_checkPlan context booster _ scenario.again]
  refine Plan.words_bind_of_const _ fun _ => ?_
  cases scenario with
  | deployOnce => rfl
  | redeploy => exact words_annotatedPlan context booster

theorem words_deployPlan_le (app : String) :
    (scenario.deployPlan context booster project app).words
      ≤ scenario.deployWords context booster project app := by
  have hlocate : (do
      let host ← locatePlan context app
      scenario.verifyPlan context booster host : Plan Unit).words
        ≤ context.locateWords app * ⨆ host, scenario.verifyWords context booster host := by
    refine (Plan.words_bind_le _ _).trans ?_
    rw [words_locatePlan]
    refine mul_le_mul_right (iSup_le fun host => ?_) _
    rw [words_verifyPlan]
    exact le_iSup (scenario.verifyWords context booster) host.display
  have hawait : (do
      let _ ← scenario.awaitPlan context booster app
      let host ← locatePlan context app
      scenario.verifyPlan context booster host : Plan Unit).words
        ≤ scenario.awaitWords context booster app *
          (context.locateWords app * ⨆ host, scenario.verifyWords context booster host) := by
    refine (Plan.words_bind_le _ _).trans ?_
    rw [words_awaitPlan]
    exact mul_le_mul_right (iSup_le fun _ => hlocate) _
  refine (Plan.words_bind_le _ _).trans ?_
  rw [words_buildPlan]
  exact mul_le_mul_right (iSup_le fun _ => hawait) _

/-- **The words of a scenario's plan** are words of the scenario. -/
theorem words_plan_le :
    (scenario.plan context booster project).words ≤ scenario.words context booster project := by
  refine (Plan.words_bind_le _ _).trans ?_
  rw [words_preparePlan]
  exact mul_le_mul_right (iSup_mono (words_deployPlan_le scenario context booster project)) _

end Words

/-! ## Events that do not occur -/

/-- No event of a kind occurs in the words. -/
def Silent (kind : Event → Bool) (words : Language Event) : Prop :=
  ∀ word ∈ words, ∀ event ∈ word, kind event = false

theorem Course.silent {α : Type} {plan : Plan α} {world : World} {events : List Event}
    {result : EStateM.Result Failure World α} {kind : Event → Bool}
    (h : Course plan world events result) (hsilent : Silent kind plan.words) :
    ∀ event ∈ events, kind event = false := by
  obtain ⟨word, hword, hpart, -⟩ := h.word
  exact fun event hevent => hsilent word hword event (hpart.subset hevent)

/-- An event of a kind that does not occur in the first of two plans shows that the first one has
passed. -/
theorem Course.peel {α β : Type} {plan : Plan α} {f : α → Plan β} {start : World}
    {events : List Event} {result : EStateM.Result Failure World β} {kind : Event → Bool}
    (h : Course (plan >>= f) start events result) (hsilent : Silent kind plan.words)
    (hsome : ∃ event ∈ events, kind event = true) :
    ∃ a mid first rest, Course plan start first (.ok a mid) ∧ Course (f a) mid rest result ∧
      events = first ++ rest ∧ (∀ event ∈ first, kind event = false) ∧
      ∃ event ∈ rest, kind event = true := by
  obtain ⟨event, hevent, hkind⟩ := hsome
  rcases h.bind_inv with ⟨_, _, hplan, -⟩ | ⟨a, mid, first, rest, hplan, hrest, rfl⟩
  · rw [hplan.silent hsilent event hevent] at hkind
    cases hkind
  · refine ⟨a, mid, first, rest, hplan, hrest, rfl, hplan.silent hsilent, event, ?_, hkind⟩
    rcases List.mem_append.mp hevent with hmem | hmem
    · rw [hplan.silent hsilent event hmem] at hkind
      cases hkind
    · exact hmem

section Silent

variable {kind : Event → Bool} {first second : Language Event}

theorem silent_one : Silent kind 1 := by
  rintro _ rfl event hevent
  exact absurd hevent List.not_mem_nil

theorem silent_singleton {word : List Event} (h : ∀ event ∈ word, kind event = false) :
    Silent kind {word} := by
  rintro _ rfl
  exact h

theorem silent_event {event : Event} (h : kind event = false) : Silent kind {[event]} :=
  silent_singleton (List.forall_mem_singleton.mpr h)

theorem Silent.mul (hfirst : Silent kind first) (hsecond : Silent kind second) :
    Silent kind (first * second) := by
  rintro _ ⟨word, hword, more, hmore, rfl⟩ event hevent
  rcases List.mem_append.mp hevent with h | h
  · exact hfirst word hword event h
  · exact hsecond more hmore event h

theorem Silent.sup (hfirst : Silent kind first) (hsecond : Silent kind second) :
    Silent kind (first ⊔ second) := by
  rintro word (h | h)
  · exact hfirst word h
  · exact hsecond word h

theorem silent_iSup {ι : Type} {words : ι → Language Event} (h : ∀ i, Silent kind (words i)) :
    Silent kind (⨆ i, words i) := by
  intro word hword
  obtain ⟨i, hi⟩ := Language.mem_iSup.mp hword
  exact h i word hi

theorem silent_prod {words : List (Language Event)} (h : ∀ each ∈ words, Silent kind each) :
    Silent kind words.prod := by
  induction words with
  | nil => exact silent_one
  | cons each rest ih =>
    obtain ⟨heach, hrest⟩ := List.forall_mem_cons.mp h
    rw [List.prod_cons]
    exact heach.mul (ih hrest)

theorem silent_repeated {event : Event} (h : kind event = false)
    (hsleep : ∀ seconds, kind (.sleep seconds) = false) (pause : Binary64) (again : Nat) :
    Silent kind (repeated event pause again) := by
  rintro _ ⟨k, -, rfl⟩
  induction k with
  | zero => exact List.forall_mem_singleton.mpr h
  | succ k ih =>
    rw [pollEvents_succ]
    exact List.forall_mem_append.mpr ⟨List.forall_mem_cons.mpr
      ⟨h, List.forall_mem_singleton.mpr (hsleep pause)⟩, ih⟩

theorem silent_of {α : Type} [Nonempty α] {run : Run α} {logs : run.Logs first}
    (h : Silent kind first) : Silent kind (Plan.of run first logs).words := by
  rwa [Plan.words_of]

theorem Silent.mono (h : Silent kind second) (hle : first ≤ second) : Silent kind first :=
  fun word hword => h word (hle hword)

/-- Commands and builds do nothing else than what processes do. -/
structure Inert (kind : Event → Bool) : Prop where
  sleep : ∀ seconds, kind (.sleep seconds) = false
  process : ∀ argv directory, kind (.process argv directory) = false
  command : ∀ line, kind (.command line) = false
  build : ∀ project goals profile, kind (.build project goals profile) = false
  descriptor : ∀ content, kind (.descriptor content) = false

variable (context : Context) (booster : Booster)

theorem Inert.setUpWords (h : Inert kind) : Silent kind (context.setUpWords booster) := by
  refine silent_prod fun words hwords => ?_
  obtain ⟨command, -, rfl⟩ := List.mem_map.mp hwords
  unfold Context.commandWords
  cases context.runner with
  | handed => exact silent_event (h.command _)
  | binary name =>
    dsimp only
    split
    · exact silent_event (h.process _ _)
    · exact silent_one

theorem Inert.buildWords (h : Inert kind) (engine : Engine) (project : Path)
    (goals profile : String) : Silent kind (engine.buildWords project goals profile) := by
  unfold Engine.buildWords
  cases engine with
  | command binary =>
    dsimp only
    split
    · exact silent_event (h.process _ _)
    · exact silent_one
  | scripted space =>
    exact (silent_event (h.build _ _ _)).mul
      (silent_iSup fun content => silent_event (h.descriptor content))

theorem inert_listsPods : Inert Event.listsPods := ⟨fun _ => rfl, fun _ _ => rfl, fun _ => rfl,
  fun _ _ _ => rfl, fun _ => rfl⟩

theorem inert_creates : Inert Event.creates := ⟨fun _ => rfl, fun _ _ => rfl, fun _ => rfl,
  fun _ _ _ => rfl, fun _ => rfl⟩

theorem inert_deletes : Inert Event.deletes := ⟨fun _ => rfl, fun _ _ => rfl, fun _ => rfl,
  fun _ _ _ => rfl, fun _ => rfl⟩

theorem inert_isRequest : Inert Event.isRequest := ⟨fun _ => rfl, fun _ _ => rfl, fun _ => rfl,
  fun _ _ _ => rfl, fun _ => rfl⟩

end Silent

/-! ## Parts that make nothing, list no pods, or send no requests -/

section Parts

variable (scenario : Scenario) (context : Context) (booster : Booster) (project : Project)

/-- The config map is only read, made or patched. -/
theorem silent_configMapWords {kind : Event → Bool}
    (hget : ∀ name, kind (context.client.getEvent context.space configMapKind name) = false)
    (hcreate : ∀ manifest, kind (context.client.createEvent context.space configMapKind manifest)
      = false)
    (hedit : ∀ name patch, kind (context.client.editEvent context.space configMapKind name patch)
      = false) : Silent kind (context.configMapWords booster) := by
  unfold Context.configMapWords
  cases booster.configMap with
  | none => exact silent_one
  | some spec =>
    exact silent_iSup fun data => (silent_event (hget _)).mul
      ((silent_event (hcreate _)).sup (silent_event (hedit _ _)))

/-- Behind a build, the cluster is asked and one config map patched. -/
theorem silent_awaitWords {kind : Event → Bool} (app : String)
    (hedit : ∀ name patch, kind (context.client.editEvent context.space configMapKind name patch)
      = false)
    (hlist : kind (context.client.listEvent context.space app) = false)
    (hsleep : ∀ seconds, kind (.sleep seconds) = false) :
    Silent kind (scenario.awaitWords context booster app) := by
  refine Silent.mul ?_ ((silent_repeated hlist hsleep _ _).mul (silent_event (hsleep _)))
  cases scenario with
  | deployOnce => exact silent_one
  | redeploy =>
    show Silent kind (context.changeWords booster)
    unfold Context.changeWords
    cases booster.configMap with
    | none => exact silent_one
    | some spec => exact silent_iSup fun data => silent_event (hedit _ _)

theorem silent_locateWords {kind : Event → Bool} (app : String)
    (hsleep : ∀ seconds, kind (.sleep seconds) = false)
    (hget : ∀ each name, each ≠ podKind →
      kind (context.client.getEvent context.space each name) = false)
    (hlist : kind (context.client.listingEvent context.space routeKind none) = false) :
    Silent kind (context.locateWords app) :=
  silent_singleton (by
    simp only [List.forall_mem_cons]
    exact ⟨hsleep _, hget _ _ (by decide), hget _ _ (by decide), hlist,
      fun _ h => absurd h List.not_mem_nil⟩)

/-- A check sends requests and pauses. -/
theorem silent_checkWords {kind : Event → Bool} (host : String)
    (hsleep : ∀ seconds, kind (.sleep seconds) = false)
    (hrequest : ∀ sent, kind (.request sent) = false) :
    Silent kind (context.checkWords booster host) := by
  unfold Context.checkWords
  split
  · exact silent_event (hrequest _)
  · exact silent_repeated (hrequest _) hsleep _ _
  · exact (silent_event (hrequest _)).mul (silent_iSup fun id => silent_event (hrequest _))
  · refine (silent_singleton ?_).mul (silent_repeated (hrequest _) hsleep _ _)
    simp only [List.forall_mem_cons]
    exact ⟨hrequest _, hrequest _, hrequest _, hrequest _, fun _ h => absurd h List.not_mem_nil⟩
  · exact silent_one

/-- From the build on, a scenario pauses, reads and patches objects and sends requests. -/
theorem silent_deployWords {kind : Event → Bool} (h : Inert kind) (app : String)
    (hget : ∀ each name, kind (context.client.getEvent context.space each name) = false)
    (hedit : ∀ each name patch,
      kind (context.client.editEvent context.space each name patch) = false)
    (hlist : ∀ each selector,
      kind (context.client.listingEvent context.space each selector) = false)
    (hrequest : ∀ sent, kind (.request sent) = false) :
    Silent kind (scenario.deployWords context booster project app) := by
  have hpods : kind (context.client.listEvent context.space app) = false := by
    rw [Client.listEvent_eq]
    exact hlist _ _
  refine (h.buildWords _ _ _ _).mul
    ((silent_awaitWords scenario context booster app (hedit _) hpods h.sleep).mul
      ((silent_locateWords context app h.sleep (fun _ _ _ => hget _ _) (hlist _ _)).mul
        (silent_iSup fun host => ?_)))
  refine (silent_checkWords context booster host h.sleep hrequest).mul ?_
  cases scenario with
  | deployOnce => exact silent_one
  | redeploy =>
    show Silent kind (context.annotatedWords booster)
    unfold Context.annotatedWords
    split
    · exact silent_event (hlist _ _)
    · exact silent_one

theorem silent_creates_deployWords (app : String) :
    Silent Event.creates (scenario.deployWords context booster project app) :=
  silent_deployWords scenario context booster project inert_creates app
    (creates_getEvent _ _) (creates_editEvent _ _) (creates_listingEvent _ _) fun _ => rfl

/-- A scenario itself removes nothing. -/
theorem silent_deletes_words :
    Silent Event.deletes (scenario.words context booster project) := by
  refine ((inert_deletes.setUpWords context booster).mul ?_).mul (silent_iSup fun app => ?_)
  · exact silent_configMapWords context booster (deletes_getEvent _ _ _)
      (deletes_createEvent _ _ _) (deletes_editEvent _ _ _)
  · exact silent_deployWords scenario context booster project inert_deletes app
      (deletes_getEvent _ _) (deletes_editEvent _ _) (deletes_listingEvent _ _) fun _ => rfl

end Parts

end Rollout
