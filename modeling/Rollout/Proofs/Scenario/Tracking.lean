import Rollout.Proofs.Scenario.Plans
import Rollout.Proofs.Scenario.Teardown
import Rollout.Proofs.Text.Markup

/-!
# What is remembered is removed

The objects that a run remembers are removed at its end through the command line of the cluster. A
refusal of the cluster is told and passed over, so that the other objects are removed all the same.
But what the cluster complains of is printed with the markup it holds: a complaint that closes a
style which is not open cannot be printed, and ends the removals, as does a reply that is no text.

- `trackAll_run`: objects remembered one after the other, each of them once.
- `Context.removal`, `removal_eq_ok_iff`, `removal_eq_error_iff`: what **one removal** comes to.
- `Context.deleteAll_run`, `Context.deleteAll_run_of_error`: the removals one after the other.
- `Context.prints_refusalLine`, `Context.not_prints_refusalLine`: **a refusal without markup** is
  told, one that closes another style is not.
- `Context.teardown_trackAll_iff`: **when everything that was remembered is removed**, the last
  object first, and what happens otherwise.
-/

namespace Rollout

/-! ## Remembering -/

/-- Objects remembered one after the other. -/
def trackAll (objects : List (String × String)) : Run Unit :=
  objects.forM fun object => Context.track object.1 object.2

/-- What is remembered once objects were tracked. -/
def rememberingAll (objects tracked : List (String × String)) : List (String × String) :=
  objects.foldl (fun tracked object => remembering object.1 object.2 tracked) tracked

theorem trackAll_run (objects : List (String × String)) (world : World) :
    trackAll objects world
      = .ok () { world with tracked := rememberingAll objects world.tracked } := by
  induction objects generalizing world with
  | nil => rfl
  | cons object rest ih =>
    show (Context.track object.1 object.2 >>= fun _ => trackAll rest) world = _
    rw [Run.bind_of_ok (track_run object.1 object.2 world), ih]
    rfl

/-- No object is remembered twice. -/
theorem nodup_remembering (kind name : String) {tracked : List (String × String)}
    (h : tracked.Nodup) : (remembering kind name tracked).Nodup := by
  unfold remembering
  split
  · exact h
  · rename_i hnew
    rw [List.contains_iff_mem] at hnew
    exact List.nodup_append_comm.mp (List.nodup_cons.mpr ⟨hnew, h⟩)

theorem nodup_rememberingAll (objects : List (String × String)) {tracked : List (String × String)}
    (h : tracked.Nodup) : (rememberingAll objects tracked).Nodup := by
  induction objects generalizing tracked with
  | nil => exact h
  | cons object rest ih => exact ih (nodup_remembering object.1 object.2 h)

/-- **What is remembered** is every object once, in the place of the first time. -/
theorem rememberingAll_nil (objects : List (String × String)) :
    rememberingAll objects [] = objects.eraseDups := by
  induction objects using List.reverseRecOn with
  | nil => rfl
  | append_singleton objects object ih =>
    rw [rememberingAll, List.foldl_concat, ← rememberingAll, ih, List.eraseDups_append, remembering]
    by_cases hold : object ∈ objects
    · have hremoved : [object].removeAll objects = [] := by simp [List.removeAll, hold]
      rw [if_pos (List.contains_iff_mem.mpr (List.mem_eraseDups.mpr hold)), hremoved]
      exact (List.append_nil _).symm
    · have hkept : [object].removeAll objects = [object] := by simp [List.removeAll, hold]
      have hnew : ¬ objects.eraseDups.contains object = true := by
        rwa [List.contains_iff_mem, List.mem_eraseDups]
      rw [if_neg hnew, hkept]
      rfl

/-! ## Removals -/

/-- The world once objects were removed, the first one first: as many replies are taken. -/
def World.removed (events : List Event) (world : World) : World :=
  { world with
    replies := world.replies.drop events.length
    log := world.log ++ events }

theorem World.removed_nil (world : World) : world.removed [] = world := by
  unfold World.removed
  rw [List.length_nil, List.drop_zero, List.append_nil]

theorem World.removed_removed (first second : List Event) (world : World) :
    (world.removed first).removed second = world.removed (first ++ second) := by
  unfold World.removed
  rw [List.drop_drop, List.length_append, List.append_assoc]

theorem Console.standard_prints (line : String) :
    Console.standard.prints line = Text.Markup.isPrintable line := rfl

namespace Context

/-- The arguments of a removal. -/
def removalArgs (space : String) (object : String × String) : List String :=
  ["delete", object.1, object.2, "-n", space, "--ignore-not-found"]

section Removals

variable (context : Context) (binary : String) (timeout : Int)

/-- What the command line answers to the removal of an object that follows `k` other ones. -/
def answer (world : World) (k : Nat) (object : String × String) : Except Failure String :=
  (world.replies.getD k (.exited 1 "" "no reply")).said binary timeout
    (removalArgs context.space object)

/-- What that removal comes to. -/
def removal (world : World) (k : Nat) (object : String × String) : Except Failure Unit :=
  world.console.told .cluster (refusalLine object.1 object.2)
    ((context.answer binary timeout world k object).map fun _ => ())

variable {binary timeout} {world : World} {k : Nat} {object : String × String}

/-- The command line answers with an output, a complaint or something that is no text. -/
theorem answer_cases (binary : String) (timeout : Int) (world : World) (k : Nat)
    (object : String × String) :
    (∃ output, context.answer binary timeout world k object = .ok output) ∨
    (∃ complaint, context.answer binary timeout world k object
      = .error (.clusterCall binary (removalArgs context.space object) complaint)) ∨
    context.answer binary timeout world k object = .error .notText := by
  unfold answer
  cases world.replies.getD k (.exited 1 "" "no reply") with
  | exited status output errors =>
    rw [Reply.said]
    split
    · exact .inl ⟨output, rfl⟩
    · exact .inr (.inl ⟨errors, rfl⟩)
  | timedOut => exact .inr (.inl ⟨_, rfl⟩)
  | notStarted reason => exact .inr (.inl ⟨reason, rfl⟩)
  | undecodable => exact .inr (.inr rfl)

/-- **A removal that passes** is done, or refused with a complaint that can be told. -/
theorem removal_eq_ok_iff :
    context.removal binary timeout world k object = .ok () ↔
      (∃ output, context.answer binary timeout world k object = .ok output) ∨
      ∃ complaint,
        context.answer binary timeout world k object
          = .error (.clusterCall binary (removalArgs context.space object) complaint) ∧
        world.console.prints (refusalLine object.1 object.2
          (.clusterCall binary (removalArgs context.space object) complaint)) = true := by
  unfold removal
  obtain ⟨output, h⟩ | ⟨complaint, h⟩ | h := context.answer_cases binary timeout world k object
  · simp [h, Except.map, Console.told]
  · simp [h, Except.map, Console.told, Failure.category]
  · simp [h, Except.map, Console.told, Failure.category]

/-- **A removal that fails** was refused with a complaint that cannot be told, or answered with
something that is no text. -/
theorem removal_eq_error_iff {failure : Failure} :
    context.removal binary timeout world k object = .error failure ↔
      (context.answer binary timeout world k object = .error .notText ∧ failure = .notText) ∨
      ∃ complaint,
        context.answer binary timeout world k object
          = .error (.clusterCall binary (removalArgs context.space object) complaint) ∧
        world.console.prints (refusalLine object.1 object.2
          (.clusterCall binary (removalArgs context.space object) complaint)) = false ∧
        failure = .badMarkup := by
  unfold removal
  obtain ⟨output, h⟩ | ⟨complaint, h⟩ | h := context.answer_cases binary timeout world k object
  · simp [h, Except.map, Console.told]
  · cases hprints : world.console.prints (refusalLine object.1 object.2
      (.clusterCall binary (removalArgs context.space object) complaint)) <;>
      simp [h, hprints, Except.map, Console.told, Failure.category, @eq_comm _ failure]
  · simp [h, Except.map, Console.told, Failure.category, @eq_comm _ failure]

/-- The removals that were made leave the replies to the others. -/
theorem removal_removed (events : List Event) :
    context.removal binary timeout (world.removed events) k object
      = context.removal binary timeout world (events.length + k) object := by
  unfold removal answer World.removed
  simp only [List.getD_eq_getElem?_getD, List.getElem?_drop]

end Removals

section Teardown

variable {context : Context} {binary : String} {timeout : Int} {world : World}

/-- **One removal** through the command line. -/
theorem delete_run (hclient : context.client = .cli binary timeout) (object : String × String)
    (world : World) :
    Run.telling .cluster (refusalLine object.1 object.2)
        (context.client.delete context.space object.1 object.2) world
      = Run.ending (context.removal binary timeout world 0 object)
          (world.removed (context.deletions [object])) := by
  have hcall := call_run binary timeout (removalArgs context.space object) none world
  have hbehind : (Client.later (.cli binary timeout) world).logging
      [.cli (binary :: removalArgs context.space object) timeout none]
        = world.removed (context.deletions [object]) := by
    unfold World.removed deletions
    rw [List.length_map, List.length_singleton, List.drop_one, hclient]
    rfl
  have hhead : world.replies.headD (.exited 1 "" "no reply")
      = world.replies.getD 0 (.exited 1 "" "no reply") := by
    cases world.replies <;> rfl
  rw [hbehind, hhead] at hcall
  have hdelete : context.client.delete context.space object.1 object.2 world
      = Run.ending ((context.answer binary timeout world 0 object).map fun _ => ())
          (world.removed (context.deletions [object])) := by
    rw [hclient]
    unfold answer
    cases hsaid : (world.replies.getD 0 (.exited 1 "" "no reply")).said binary timeout
        (removalArgs context.space object) with
    | ok output =>
      rw [hsaid] at hcall
      exact Run.bind_of_ok hcall
    | error failure =>
      rw [hsaid] at hcall
      exact Run.bind_of_error hcall
  exact Run.telling_run hdelete

/-- **All removals**, when each of them passes. -/
theorem deleteAll_run (hclient : context.client = .cli binary timeout)
    {objects : List (String × String)}
    (h : ∀ k object, objects[k]? = some object →
      context.removal binary timeout world k object = .ok ()) :
    context.deleteAll objects world = .ok () (world.removed (context.deletions objects)) := by
  induction objects generalizing world with
  | nil => exact congrArg (EStateM.Result.ok ()) world.removed_nil.symm
  | cons object rest ih =>
    have hfirst := delete_run hclient object world
    rw [h 0 object rfl] at hfirst
    have hrest : context.deleteAll rest (world.removed (context.deletions [object]))
        = .ok () _ := ih fun k later hlater => by
      rw [removal_removed, Nat.add_comm]
      exact h (k + 1) later hlater
    rw [deleteAll, Run.bind_of_ok hfirst, hrest, World.removed_removed]
    rfl

/-- **The first removal that fails** is the last one. -/
theorem deleteAll_run_of_error (hclient : context.client = .cli binary timeout)
    {objects : List (String × String)} {k : Nat} {object : String × String} {failure : Failure}
    (hobject : objects[k]? = some object)
    (hfailed : context.removal binary timeout world k object = .error failure)
    (hbefore : ∀ i < k, ∀ earlier, objects[i]? = some earlier →
      context.removal binary timeout world i earlier = .ok ()) :
    context.deleteAll objects world
      = .error failure (world.removed (context.deletions (objects.take (k + 1)))) := by
  induction k generalizing objects world with
  | zero =>
    cases objects with
    | nil => cases hobject
    | cons first rest =>
      cases hobject
      have hfirst := delete_run hclient object world
      rw [hfailed] at hfirst
      exact Run.bind_of_error hfirst
  | succ k ih =>
    cases objects with
    | nil => cases hobject
    | cons first rest =>
      have hfirst := delete_run hclient first world
      rw [hbefore 0 (Nat.succ_pos k) first rfl] at hfirst
      have hlater : context.removal binary timeout (world.removed (context.deletions [first])) k
          object = .error failure := by
        rw [removal_removed, Nat.add_comm]
        exact hfailed
      have hrest : context.deleteAll rest (world.removed (context.deletions [first]))
          = .error failure _ := ih hobject hlater fun i hi earlier hearlier => by
        rw [removal_removed, Nat.add_comm]
        exact hbefore (i + 1) (Nat.succ_lt_succ hi) earlier hearlier
      rw [deleteAll, Run.bind_of_ok hfirst, hrest, World.removed_removed]
      rfl

/-- The end of a run whose removals all pass. -/
theorem teardown_run {removed : World}
    (h : context.deleteAll world.tracked.reverse world = .ok () removed) :
    context.teardown world
      = .ok () { removed with tracked := [], closed := removed.closed + 1 } := by
  have htracked : context.deleteTracked world
      = Run.ending (.ok ()) { removed with tracked := [] } := Run.bind_of_ok h
  exact Run.ensuring_run htracked rfl

/-- The end of a run one of whose removals fails: nothing is forgotten. -/
theorem teardown_run_of_error {removed : World} {failure : Failure}
    (h : context.deleteAll world.tracked.reverse world = .error failure removed) :
    context.teardown world
      = .error failure { removed with closed := removed.closed + 1 } := by
  have htracked : context.deleteTracked world = Run.ending (.error failure) removed := by
    show (context.deleteAll world.tracked.reverse >>= fun _ => _) world = _
    exact Run.bind_of_error h
  exact Run.ensuring_run htracked rfl

end Teardown

/-! ## Refusals -/

section Refusals

variable {kind name reason : String} {failure : Failure}

theorem refusalLine_eq (hreason : failure.message = some reason) :
    refusalLine kind name failure
      = Text.Markup.yellow
          ("⚠️  Could not delete " ++ kind ++ "/" ++ name ++ ": " ++ reason) := by
  simp only [refusalLine, hreason, Option.getD_some]
  rfl

/-- **A refusal without markup** is told by the console that reads its lines for markup. -/
theorem prints_refusalLine (hreason : failure.message = some reason)
    (h : Text.Markup.Unmarked
      ("⚠️  Could not delete " ++ kind ++ "/" ++ name ++ ": " ++ reason).toList) :
    Console.standard.prints (refusalLine kind name failure) = true := by
  rw [refusalLine_eq hreason, Console.standard_prints, Text.Markup.isPrintable_yellow h]

/-- **A refusal that closes another style** is not. -/
theorem not_prints_refusalLine {before style after : List Char}
    (hreason : failure.message = some reason)
    (h : Text.Markup.Stray
      ("⚠️  Could not delete " ++ kind ++ "/" ++ name ++ ": " ++ reason).toList
      before style after) :
    Console.standard.prints (refusalLine kind name failure) = false := by
  rw [refusalLine_eq hreason, Console.standard_prints, Text.Markup.isPrintable_yellow_of_stray h]

end Refusals

/-! ## Remembering and removing -/

section Remembered

variable {context : Context} {binary : String} {timeout : Int} {world : World}

/-- The events by which the command line removes objects. -/
theorem deletions_eq (hclient : context.client = .cli binary timeout)
    (objects : List (String × String)) :
    context.deletions objects
      = objects.map fun object =>
          .cli (binary :: removalArgs context.space object) timeout none := by
  unfold deletions
  rw [hclient]
  rfl

/-- Objects that are remembered and then removed, when each removal passes. -/
theorem trackAll_teardown_run (hclient : context.client = .cli binary timeout)
    {objects : List (String × String)} (hnew : world.tracked = [])
    (h : ∀ k object, objects.eraseDups.reverse[k]? = some object →
      context.removal binary timeout world k object = .ok ()) :
    (do
      trackAll objects
      context.teardown : Run Unit) world
      = .ok () { world.removed (context.deletions objects.eraseDups.reverse) with
          tracked := []
          closed := world.closed + 1 } := by
  have htracked := trackAll_run objects world
  rw [hnew, rememberingAll_nil] at htracked
  rw [Run.bind_of_ok htracked, teardown_run (deleteAll_run hclient h)]
  rfl

/-- Objects that are remembered and then removed, up to the first removal that fails. -/
theorem trackAll_teardown_run_of_error (hclient : context.client = .cli binary timeout)
    {objects : List (String × String)} (hnew : world.tracked = []) {k : Nat}
    {object : String × String} {failure : Failure}
    (hobject : objects.eraseDups.reverse[k]? = some object)
    (hfailed : context.removal binary timeout world k object = .error failure)
    (hbefore : ∀ i < k, ∀ earlier, objects.eraseDups.reverse[i]? = some earlier →
      context.removal binary timeout world i earlier = .ok ()) :
    (do
      trackAll objects
      context.teardown : Run Unit) world
      = .error failure
          { world.removed (context.deletions (objects.eraseDups.reverse.take (k + 1))) with
            tracked := objects.eraseDups
            closed := world.closed + 1 } := by
  have htracked := trackAll_run objects world
  rw [hnew, rememberingAll_nil] at htracked
  have hdeleted : context.deleteAll objects.eraseDups.reverse
      { world with tracked := objects.eraseDups } = .error failure _ :=
    deleteAll_run_of_error hclient hobject hfailed hbefore
  rw [Run.bind_of_ok htracked, teardown_run_of_error hdeleted]
  rfl

/-- Without an object that was remembered, the session is closed and that is all. -/
theorem teardown_run_of_nil (h : world.tracked = []) :
    context.teardown world = .ok () { world with closed := world.closed + 1 } := by
  have hnothing : context.deleteAll world.tracked.reverse world = .ok () world := by
    rw [h]
    rfl
  rw [teardown_run hnothing, ← h]

/-- **What is remembered is removed** at the end of a run that removes objects through the command
line of the cluster: each object once, in the namespace of the run, and the other way round than
they were first remembered. Nothing is remembered behind it, so that another end of the run removes
nothing. All this holds just when every removal is done or refused with a complaint that the console
can print. The first removal that is neither ends the run with a failure: the objects behind it are
not removed, and all of them stay remembered. -/
theorem teardown_trackAll_iff (hclient : context.client = .cli binary timeout)
    (objects : List (String × String)) (hnew : world.tracked = []) :
    -- the objects that are remembered
    (objects.eraseDups.Nodup ∧ ∀ object, object ∈ objects.eraseDups ↔ object ∈ objects) ∧
    -- everything is removed
    ((∃ torn,
      (do
        trackAll objects
        context.teardown : Run Unit) world = .ok () torn ∧
      torn.log = world.log ++ objects.eraseDups.reverse.map (fun object =>
        .cli (binary :: removalArgs context.space object) timeout none) ∧
      torn.tracked = [] ∧
      torn.closed = world.closed + 1 ∧
      context.teardown torn = .ok () { torn with closed := torn.closed + 1 }) ↔
      ∀ k object, objects.eraseDups.reverse[k]? = some object →
        (∃ output, context.answer binary timeout world k object = .ok output) ∨
        ∃ complaint,
          context.answer binary timeout world k object
            = .error (.clusterCall binary (removalArgs context.space object) complaint) ∧
          world.console.prints (refusalLine object.1 object.2
            (.clusterCall binary (removalArgs context.space object) complaint)) = true) ∧
    -- a removal fails
    ∀ k object failure, objects.eraseDups.reverse[k]? = some object →
      context.removal binary timeout world k object = .error failure →
      (∀ i < k, ∀ earlier, objects.eraseDups.reverse[i]? = some earlier →
        context.removal binary timeout world i earlier = .ok ()) →
      ∃ torn,
        (do
          trackAll objects
          context.teardown : Run Unit) world = .error failure torn ∧
        torn.log = world.log ++ (objects.eraseDups.reverse.take (k + 1)).map (fun object =>
          .cli (binary :: removalArgs context.space object) timeout none) ∧
        torn.tracked = objects.eraseDups ∧
        torn.closed = world.closed + 1 := by
  have hnodup : objects.eraseDups.Nodup := by
    rw [← rememberingAll_nil]
    exact nodup_rememberingAll objects List.nodup_nil
  refine ⟨⟨hnodup, fun _ => List.mem_eraseDups⟩, ?_, ?_⟩
  · simp only [← removal_eq_ok_iff]
    constructor
    · -- the first removal that fails would end the run
      rintro ⟨torn, htorn, -⟩ k object hobject
      obtain ⟨first, -, hbefore, hend⟩ := Run.exists_last_try
        (fun i => ∀ earlier, objects.eraseDups.reverse[i]? = some earlier →
          context.removal binary timeout world i earlier = .ok ()) (k + 1)
      rcases hend with rfl | hend
      · exact hbefore k (Nat.lt_succ_self k) object hobject
      · push Not at hend
        obtain ⟨failed, hfailed, hresult⟩ := hend
        cases hremoval : context.removal binary timeout world first failed with
        | ok => exact absurd hremoval hresult
        | error failure =>
          rw [trackAll_teardown_run_of_error hclient hnew hfailed hremoval hbefore] at htorn
          cases htorn
    · intro h
      refine ⟨_, trackAll_teardown_run hclient hnew h, ?_, rfl, rfl, teardown_run_of_nil rfl⟩
      rw [← deletions_eq hclient]
      rfl
  · intro k object failure hobject hfailed hbefore
    refine ⟨_, trackAll_teardown_run_of_error hclient hnew hobject hfailed hbefore, ?_, rfl, rfl⟩
    rw [← deletions_eq hclient]
    rfl

/-- A run in the namespace `shop` that remembers two objects. The removal of the second one is
refused with a complaint that closes a style which is not open: the first one is not removed. -/
theorem teardown_trackAll_iff_stray :
    ∃ torn,
      (do
        trackAll [("configmap", "app-config"), ("route", "demo"), ("configmap", "app-config")]
        (Overrides.none.contextOf Settings.standard "shop").teardown : Run Unit)
        { World.start Files.empty with
          replies := [.exited 1 "" "error: open [/tmp]", .exited 0 "" ""] }
        = .error .badMarkup torn ∧
      torn.log
        = [.cli ["oc", "delete", "route", "demo", "-n", "shop", "--ignore-not-found"] 60 none] ∧
      torn.tracked = [("configmap", "app-config"), ("route", "demo")] := by
  have hmessage : (Failure.clusterCall "oc" (removalArgs "shop" ("route", "demo"))
      "error: open [/tmp]").message
        = some "oc delete route demo -n shop --ignore-not-found failed: error: open [/tmp]" := by
    have hargs : " ".intercalate (removalArgs "shop" ("route", "demo"))
        = "delete route demo -n shop --ignore-not-found" := rfl
    have hkept : Text.truncate Failure.complaintLimit (Text.strip "error: open [/tmp]")
        = "error: open [/tmp]" := rfl
    simp only [Failure.message, hargs, hkept, toString]
    rfl
  have hname : Text.strip (String.ofList "tmp".toList) = "tmp" := by decide +kernel
  have hstyle : Text.Markup.normalStyle "tmp" = "tmp" :=
    Text.Markup.normalStyle_of_noStyle rfl (by decide +kernel) (by decide +kernel)
      (by decide +kernel) (by decide +kernel) (by cbv)
  have hcloses : Text.Markup.Stray
      ("⚠️  Could not delete " ++ "route" ++ "/" ++ "demo" ++ ": "
        ++ "oc delete route demo -n shop --ignore-not-found failed: error: open [/tmp]").toList
      ("⚠️  Could not delete route/demo: oc delete route demo -n shop "
        ++ "--ignore-not-found failed: error: open ").toList
      "tmp".toList [] :=
    { text_eq := by decide +kernel
      bracketless := by decide +kernel
      unescaped := by decide +kernel
      unopened := by decide +kernel
      unclosed := by decide +kernel
      bare := by decide +kernel
      named := by
        rw [hname]
        rfl
      other := by
        rw [hname, hstyle]
        decide }
  have hstray : Console.standard.prints (refusalLine "route" "demo"
      (.clusterCall "oc" (removalArgs "shop" ("route", "demo")) "error: open [/tmp]")) = false :=
    not_prints_refusalLine hmessage hcloses
  obtain ⟨-, -, hfails⟩ := teardown_trackAll_iff
    (rfl : (Overrides.none.contextOf Settings.standard "shop").client = _)
    [("configmap", "app-config"), ("route", "demo"), ("configmap", "app-config")]
    (rfl : World.tracked { World.start Files.empty with
      replies := [.exited 1 "" "error: open [/tmp]", .exited 0 "" ""] } = [])
  obtain ⟨torn, htorn, hlog, htracked, -⟩ := hfails 0 ("route", "demo") .badMarkup (by decide)
    ((removal_eq_error_iff _).mpr (.inr ⟨_, rfl, hstray, rfl⟩))
    fun i hi => absurd hi (Nat.not_lt_zero i)
  have honce :
      [("configmap", "app-config"), ("route", "demo"), ("configmap", "app-config")].eraseDups
        = [("configmap", "app-config"), ("route", "demo")] := by
    decide
  rw [honce] at hlog htracked
  exact ⟨torn, htorn, hlog, htracked⟩

end Remembered

end Context

end Rollout
