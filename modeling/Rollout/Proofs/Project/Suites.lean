import Mathlib.Logic.Function.Iterate
import Rollout.Project.Build
import Rollout.Proofs.Pom.FileEdits
import Rollout.Proofs.Project.Copies

/-!
# Tests on one template

Tests on one template work on copies of it and take turns in any order: a test gets its copy first,
then it makes its edits, and then it builds.

- `Trial`, `Suite`, `Bench`: a test, tests on a template, and a moment in a run of them.
- `Suite.advance`, `Suite.play`: a turn of one test, and turns in any order.
- `Suite.Ready`: what the files are like before the first turn.
- `Suite.Sound`: **the invariant** of a run. Outside the copies everything is as it was, and the
  copy of a test holds what the template holds, apart from a settled descriptor.
- `Suite.alone`: what a turn makes of a test, without looking at anything of the others.
- `Suite.turn`: **a turn** makes this of the test whose turn it is, and nothing of the others.
- `Suite.play_run`: **turns in any order**, by induction.
-/

namespace Rollout

open Pom

theorem pomName_ne : pomName ≠ ".." := by decide

/-! ## Tests -/

/-- A test: its names, and the edits that it makes of the descriptor of its copy. -/
structure Trial where
  testClass : String
  method : String
  edits : List FileEdit
  deriving DecidableEq, Repr

/-- How far a test is. -/
inductive Progress
  /-- The test has no copy of its own yet. -/
  | waiting
  /-- The test has its copy and some edits left; without any left it builds. -/
  | working (left : List FileEdit)
  | failed (failure : Failure)

namespace Progress

/-- Whether a test has a copy of its own. -/
def started : Progress → Bool
  | waiting => false
  | working _ => true
  | failed _ => true

/-- How far a test is, and what is at the place of its descriptor once it has a copy. -/
def seen (descriptor : Option Entry) : Progress → Progress × Option Entry
  | waiting => (waiting, none)
  | working left => (working left, descriptor)
  | failed failure => (failed failure, descriptor)

@[simp] theorem fst_seen (descriptor : Option Entry) (progress : Progress) :
    (progress.seen descriptor).1 = progress := by
  cases progress <;> rfl

theorem seen_of_started {progress : Progress} (h : progress.started = true)
    (descriptor : Option Entry) : progress.seen descriptor = (progress, descriptor) := by
  cases progress with
  | waiting => cases h
  | working left => rfl
  | failed failure => rfl

end Progress

/-- The copy of a template that a test works on. -/
def Trial.copy (template : Path) (trial : Trial) : Path :=
  copyPath template trial.testClass trial.method

/-- The next step of a test, when there is one, and how far the test is after it. -/
def Trial.step? (template : Path) (trial : Trial) :
    Progress → Option (Disk.Action Unit × Progress)
  | .waiting => some (provide template trial.testClass trial.method, .working trial.edits)
  | .working (edit :: left) =>
    some (edit.perform ((trial.copy template).below pomName), .working left)
  | .working [] => none
  | .failed _ => none

/-- A moment in a run of tests. -/
structure Bench (ι : Type) where
  disk : Disk
  progress : ι → Progress

/-- No test has done anything. -/
def Bench.start {ι : Type} (disk : Disk) : Bench ι := ⟨disk, fun _ => .waiting⟩

/-- Tests on one template. -/
structure Suite (ι : Type) where
  /-- The path of the directory that the template is in. -/
  parent : Path
  /-- Where that path leads. -/
  home : Path
  name : String
  tests : ι → Trial
  /-- The files before the first turn. -/
  files : Files
  /-- The namespace of the template's descriptor. -/
  space : String

namespace Suite

variable {ι : Type} (suite : Suite ι)

def template : Path := suite.parent.below suite.name

/-- Where the template is. -/
def source : Path := suite.home.below suite.name

/-- The path of a test's copy. -/
def copy (i : ι) : Path := (suite.tests i).copy suite.template

/-- Where a test's copy is. -/
def place (i : ι) : Path := (suite.tests i).copy suite.source

/-- The places of the copies, and those inside them. -/
def Copied (place : Path) : Prop := ∃ i, (suite.place i).contains place

section Turns

variable [DecidableEq ι]

/-- A turn of one test: its next step, when there is one. A test ends with the first failure. -/
def advance (bench : Bench ι) (i : ι) : Bench ι :=
  match (suite.tests i).step? suite.template (bench.progress i) with
  | none => bench
  | some (action, next) =>
    match action bench.disk with
    | .ok () disk => ⟨disk, Function.update bench.progress i next⟩
    | .error failure disk => ⟨disk, Function.update bench.progress i (.failed failure)⟩

/-- Turns of tests in some order. -/
def play (disk : Disk) (schedule : List ι) : Bench ι :=
  schedule.foldl suite.advance (.start disk)

end Turns

/-! ## Before and between turns -/

/-- What the files are like before the first turn. The descriptor declares no type: of a descriptor
that does, every edit may lose another piece of the text before the root, so that its namespaces
change from edit to edit, and with them the prefixes that all tests share. -/
structure Ready : Prop where
  down : suite.name ≠ ".."
  /-- The way to the template's directory does not go through a copy. -/
  ways : ∀ other, suite.files.SameOutside suite.Copied other →
    other.Leads suite.parent suite.home
  dir : suite.files.get? suite.source = some .dir
  linkless : ∀ names target, suite.files.get? (suite.source.descend names) ≠ some (.link target)
  /-- The template's descriptor declares no type. -/
  settled : SettledAt suite.space (suite.files.get? (suite.source.below pomName))
  /-- The copies of different tests have different paths. -/
  apart : Function.Injective suite.copy
  /-- What is left of earlier runs at the place of a copy is a directory, with anything in it. -/
  stale : ∀ i, suite.files.Replaceable (suite.place i)
  /-- The templates of configurations are not in a copy. -/
  fixed : ∀ i, ∀ edit ∈ (suite.tests i).edits, ∀ template ∈ edit.template?,
    ∀ other, suite.files.SameOutside suite.Copied other →
      other.readText template = suite.files.readText template

/-- The copy of a test holds what the template holds, apart from a settled descriptor. -/
structure Furnished (i : ι) (files : Files) : Prop where
  kept : ∀ names ≠ [pomName], files.get? ((suite.place i).descend names)
    = suite.files.get? (suite.source.descend names)
  plain : ∀ target, files.get? ((suite.place i).below pomName) ≠ some (.link target)
  settled : SettledAt suite.space (files.get? ((suite.place i).below pomName))

/-- What is at the place of a test's copy when the test is this far. -/
def Owns (i : ι) (files : Files) : Progress → Prop
  | .waiting => files.Replaceable (suite.place i)
  | .working left => suite.Furnished i files ∧ left ⊆ (suite.tests i).edits
  | .failed _ => suite.Furnished i files

/-- **The invariant** of a run. -/
structure Sound (bench : Bench ι) : Prop where
  outside : suite.files.SameOutside suite.Copied bench.disk.files
  register : KnownRegister suite.space bench.disk.register
  owns : ∀ i, suite.Owns i bench.disk.files (bench.progress i)

/-! ## One test -/

/-- What is seen of a test. -/
def view (i : ι) (bench : Bench ι) : Progress × Option Entry :=
  (bench.progress i).seen (bench.disk.files.get? ((suite.place i).below pomName))

/-- What a turn makes of a test, without looking at anything of the others. -/
def alone (i : ι) : Progress × Option Entry → Progress × Option Entry
  | (.waiting, _) =>
    (.working (suite.tests i).edits, suite.files.get? (suite.source.below pomName))
  | (.working (edit :: left), descriptor) =>
    match edit.outcome ((suite.copy i).below pomName) suite.files Xml.Prefixes.standard
        descriptor with
    | .ok written => (.working left, some (.file (.text written.1)))
    | .error failure => (.failed failure, descriptor)
  | (.working [], descriptor) => (.working [], descriptor)
  | (.failed failure, descriptor) => (.failed failure, descriptor)

/-- A turn gives a test its copy, or leaves it one. -/
theorem started_alone (i : ι) (before : Progress × Option Entry) :
    (suite.alone i before).1.started = true := by
  obtain ⟨progress, descriptor⟩ := before
  match progress with
  | .waiting => rfl
  | .working [] => rfl
  | .failed failure => rfl
  | .working (edit :: left) =>
    unfold alone
    dsimp only
    split <;> rfl

/-! ## Places -/

variable {suite} {bench before after : Bench ι} {files other : Files} {i j : ι}

theorem copy_eq (i : ι) : suite.copy i = suite.parent.below
    (copyName suite.name (suite.tests i).testClass (suite.tests i).method) :=
  copyPath_below ..

theorem place_eq (i : ι) : suite.place i = suite.home.below
    (copyName suite.name (suite.tests i).testClass (suite.tests i).method) :=
  copyPath_below ..

theorem not_isTop_place (suite : Suite ι) (i : ι) (names : List String) :
    Files.isTop ((suite.place i).descend names) = false := by
  rw [place_eq]
  exact Path.not_isTop_descend suite.home (copyName_ne ..).2 names

theorem not_contains_source (i : ι) (names : List String) :
    (suite.place i).contains (suite.source.descend names) = false := by
  rw [place_eq]
  exact Path.not_contains_sibling (copyName_ne ..).1 names

theorem not_copied_source (names : List String) : ¬ suite.Copied (suite.source.descend names) := by
  rintro ⟨i, hinside⟩
  rw [not_contains_source] at hinside
  cases hinside

/-- Nothing is in the copies of two tests. -/
theorem Ready.not_contains_copy (ready : suite.Ready) (hne : j ≠ i) (names : List String) :
    (suite.place i).contains ((suite.place j).descend names) = false := by
  rw [place_eq, place_eq]
  refine Path.not_contains_sibling (fun hname => hne (ready.apart ?_)) names
  rw [copy_eq, copy_eq, hname]

theorem Sound.source_eq (sound : suite.Sound bench) (names : List String) :
    bench.disk.files.get? (suite.source.descend names)
      = suite.files.get? (suite.source.descend names) :=
  sound.outside _ (not_copied_source names)

/-- What happens in the copy of one test leaves all else as it was. -/
theorem Sound.sameOutside (sound : suite.Sound bench)
    (h : bench.disk.files.SameOutside ((suite.place i).contains ·) other) :
    suite.files.SameOutside suite.Copied other := by
  intro place hplace
  rw [h place fun hinside => hplace ⟨i, hinside⟩]
  exact sound.outside place hplace

/-- Where the descriptor of a furnished copy is. -/
theorem Ready.resolve_pom (ready : suite.Ready)
    (houtside : suite.files.SameOutside suite.Copied files) (hfurnished : suite.Furnished i files) :
    files.resolve ((suite.copy i).below pomName) = .ok ((suite.place i).below pomName) := by
  have hdir := hfurnished.kept [] (List.cons_ne_nil _ _).symm
  rw [Path.descend_nil, Path.descend_nil, ready.dir] at hdir
  have hways := ready.ways files houtside
  have hplain := hfurnished.plain
  rw [place_eq] at hdir hplain ⊢
  rw [copy_eq]
  exact (hways.below (copyName_ne ..).2 hdir).resolve pomName_ne hplain

/-! ## What belongs to a test -/

theorem Furnished.congr (h : suite.Furnished i files)
    (hsame : ∀ names, other.get? ((suite.place i).descend names)
      = files.get? ((suite.place i).descend names)) : suite.Furnished i other := by
  have hpom : other.get? ((suite.place i).below pomName)
    = files.get? ((suite.place i).below pomName) := hsame [pomName]
  refine ⟨fun names hnames => (hsame names).trans (h.kept names hnames), ?_, ?_⟩
  · rw [hpom]
    exact h.plain
  · rw [hpom]
    exact h.settled

theorem Owns.congr {progress : Progress} (h : suite.Owns i files progress)
    (hsame : ∀ names, other.get? ((suite.place i).descend names)
      = files.get? ((suite.place i).descend names)) : suite.Owns i other progress := by
  cases progress with
  | waiting =>
    rcases h with hdir | hnone
    · refine .inl (Eq.trans ?_ hdir)
      simpa using hsame []
    · exact .inr fun names => (hsame names).trans (hnone names)
  | working left => exact ⟨h.1.congr hsame, h.2⟩
  | failed failure => exact Furnished.congr h hsame

theorem Owns.furnished {progress : Progress} (h : suite.Owns i files progress)
    (hstarted : progress.started = true) : suite.Furnished i files := by
  cases progress with
  | waiting => cases hstarted
  | working left => exact h.1
  | failed failure => exact h

/-- A fresh copy of the template is furnished. -/
theorem furnished_of_fresh (ready : suite.Ready)
    (hfresh : ∀ names, files.get? ((suite.place i).descend names)
      = suite.files.get? (suite.source.descend names)) : suite.Furnished i files := by
  have hpom : files.get? ((suite.place i).below pomName)
    = suite.files.get? (suite.source.below pomName) := hfresh [pomName]
  refine ⟨fun names _ => hfresh names, ?_, ?_⟩
  · rw [hpom]
    exact ready.linkless [pomName]
  · rw [hpom]
    exact ready.settled

/-- A copy is still furnished with another descriptor. -/
theorem Furnished.put (h : suite.Furnished i files) {text : String}
    (hsettled : SettledAt suite.space (some (.file (.text text)))) :
    suite.Furnished i (files.put ((suite.place i).below pomName) (.file (.text text))) := by
  have hself := Files.get?_put_self files (Path.not_isTop_below (suite.place i) pomName_ne)
    (.file (.text text))
  refine ⟨fun names hnames => ?_, ?_, ?_⟩
  · have hne : (suite.place i).descend names ≠ (suite.place i).below pomName := fun heq =>
      hnames (Path.descend_inj.mp heq)
    rw [Files.get?_put_of_ne hne]
    exact h.kept names hnames
  · rw [hself]
    exact fun _ => nofun
  · rw [hself]
    exact hsettled

/-- **The outcome of an edit** depends neither on the register nor on what is in other copies. -/
theorem Sound.outcome_eq (ready : suite.Ready) (sound : suite.Sound bench)
    (hfurnished : suite.Furnished i bench.disk.files) {edit : FileEdit}
    (hedit : edit ∈ (suite.tests i).edits) :
    edit.outcome ((suite.copy i).below pomName) bench.disk.files bench.disk.register
        (bench.disk.files.get? ((suite.place i).below pomName))
      = edit.outcome ((suite.copy i).below pomName) suite.files Xml.Prefixes.standard
        (bench.disk.files.get? ((suite.place i).below pomName)) := by
  rw [(FileEdit.outcome_settled _ _ hfurnished.settled sound.register edit).1]
  unfold FileEdit.outcome
  rw [FileEdit.change_congr fun template h => ready.fixed i edit hedit template h _ sound.outside]

/-! ## A turn -/

/-- What a turn of a test does. -/
structure Turn (suite : Suite ι) (i : ι) (before after : Bench ι) : Prop where
  register : KnownRegister suite.space after.disk.register
  frame : before.disk.files.SameOutside ((suite.place i).contains ·) after.disk.files
  others : ∀ j ≠ i, after.progress j = before.progress j
  owns : suite.Owns i after.disk.files (after.progress i)
  view : suite.view i after = suite.alone i (suite.view i before)

namespace Turn

theorem copy_eq_of_ne (ready : suite.Ready) (turn : suite.Turn i before after) (hne : j ≠ i)
    (names : List String) : after.disk.files.get? ((suite.place j).descend names)
      = before.disk.files.get? ((suite.place j).descend names) :=
  turn.frame _ (Bool.eq_false_iff.mp (ready.not_contains_copy hne names))

/-- **A turn keeps the invariant**. -/
theorem sound (ready : suite.Ready) (turn : suite.Turn i before after)
    (h : suite.Sound before) : suite.Sound after := by
  refine ⟨h.sameOutside turn.frame, turn.register, fun j => ?_⟩
  by_cases hj : j = i
  · subst hj
    exact turn.owns
  · rw [turn.others j hj]
    exact (h.owns j).congr (turn.copy_eq_of_ne ready hj)

/-- **A turn of one test** does nothing to the others. -/
theorem view_of_ne (ready : suite.Ready) (turn : suite.Turn i before after) (hne : j ≠ i) :
    suite.view j after = suite.view j before := by
  have hpom : after.disk.files.get? ((suite.place j).below pomName)
    = before.disk.files.get? ((suite.place j).below pomName) :=
    turn.copy_eq_of_ne ready hne [pomName]
  unfold Suite.view
  rw [turn.others j hne, hpom]

end Turn

section Turns

variable [DecidableEq ι]

/-- A turn after which the test is this far. -/
theorem turn_update {disk : Disk} {progress : Progress}
    (hregister : KnownRegister suite.space disk.register)
    (hframe : before.disk.files.SameOutside ((suite.place i).contains ·) disk.files)
    (howns : suite.Owns i disk.files progress) (hstarted : progress.started = true)
    (hview : suite.alone i (suite.view i before)
      = (progress, disk.files.get? ((suite.place i).below pomName))) :
    suite.Turn i before ⟨disk, Function.update before.progress i progress⟩ where
  register := hregister
  frame := hframe
  others j hj := Function.update_of_ne hj ..
  owns := by
    dsimp only
    rwa [Function.update_self]
  view := by
    rw [hview]
    unfold Suite.view
    dsimp only
    rw [Function.update_self, Progress.seen_of_started hstarted]

theorem advance_of_ok {action : Disk.Action Unit} {next : Progress} {disk : Disk}
    (hstep : (suite.tests i).step? suite.template (bench.progress i) = some (action, next))
    (hrun : action bench.disk = .ok () disk) :
    suite.advance bench i = ⟨disk, Function.update bench.progress i next⟩ := by
  unfold advance
  rw [hstep]
  dsimp only
  rw [hrun]

theorem advance_of_error {action : Disk.Action Unit} {next : Progress} {failure : Failure}
    {disk : Disk}
    (hstep : (suite.tests i).step? suite.template (bench.progress i) = some (action, next))
    (hrun : action bench.disk = .error failure disk) :
    suite.advance bench i = ⟨disk, Function.update bench.progress i (.failed failure)⟩ := by
  unfold advance
  rw [hstep]
  dsimp only
  rw [hrun]

/-- The turn in which a test gets its copy. -/
theorem turn_waiting (ready : suite.Ready) (sound : suite.Sound bench)
    (hprogress : bench.progress i = .waiting) : suite.Turn i bench (suite.advance bench i) := by
  have howns := sound.owns i
  rw [hprogress] at howns
  have hdir : bench.disk.files.get? suite.source = some .dir := by
    simpa [ready.dir] using sound.source_eq []
  obtain ⟨files, hrun, hframe, hfresh⟩ := provide_run
    (fun other h => ready.ways other (sound.sameOutside h)) ready.down hdir howns
  have hcopied : ∀ names, files.get? ((suite.place i).descend names)
      = suite.files.get? (suite.source.descend names) := fun names =>
    (hfresh names).trans (sound.source_eq names)
  have hpom : files.get? ((suite.place i).below pomName)
    = suite.files.get? (suite.source.below pomName) := hcopied [pomName]
  rw [advance_of_ok (by rw [hprogress]; rfl) hrun]
  refine turn_update sound.register hframe
    ⟨furnished_of_fresh ready hcopied, List.Subset.refl _⟩ rfl ?_
  unfold view
  rw [hprogress, hpom]
  rfl

/-- The turn in which a test makes an edit. -/
theorem turn_edit (ready : suite.Ready) (sound : suite.Sound bench) {edit : FileEdit}
    {left : List FileEdit} (hprogress : bench.progress i = .working (edit :: left)) :
    suite.Turn i bench (suite.advance bench i) := by
  have howns := sound.owns i
  rw [hprogress] at howns
  obtain ⟨hfurnished, hleft⟩ := howns
  obtain ⟨hedit, hleft⟩ := List.cons_subset.mp hleft
  have hview : suite.view i bench = (.working (edit :: left),
      bench.disk.files.get? ((suite.place i).below pomName)) := by
    unfold view
    rw [hprogress]
    rfl
  have hstep : (suite.tests i).step? suite.template (bench.progress i)
      = some (edit.perform ((suite.copy i).below pomName), .working left) := by
    rw [hprogress]
    rfl
  have hrun := FileEdit.perform_eq (ready.resolve_pom sound.outside hfurnished) edit
  have hwritten := (FileEdit.outcome_settled ((suite.copy i).below pomName) bench.disk.files
    hfurnished.settled sound.register edit).2
  rw [sound.outcome_eq ready hfurnished hedit] at hrun hwritten
  cases hresult : edit.outcome ((suite.copy i).below pomName) suite.files Xml.Prefixes.standard
      (bench.disk.files.get? ((suite.place i).below pomName)) with
  | error failure =>
    rw [hresult] at hrun
    rw [advance_of_error hstep hrun]
    refine turn_update sound.register (Files.SameOutside.refl _) hfurnished rfl ?_
    rw [hview]
    unfold alone
    dsimp only
    rw [hresult]
  | ok written =>
    rw [hresult] at hrun
    rw [advance_of_ok hstep hrun]
    obtain ⟨hheld, hsettled⟩ := hwritten written hresult
    have hinside := Path.contains_descend (suite.place i) [pomName]
    have hself := Files.get?_put_self bench.disk.files
      (Path.not_isTop_below (suite.place i) pomName_ne) (.file (.text written.1))
    refine turn_update (.inr hheld) (Files.sameOutside_put hinside _ _)
      ⟨hfurnished.put hsettled, hleft⟩ rfl ?_
    rw [hview]
    unfold alone Disk.holding
    dsimp only
    rw [hresult, hself]

/-- A turn of a test that has nothing left to do. -/
theorem turn_idle (sound : suite.Sound bench)
    (hstep : (suite.tests i).step? suite.template (bench.progress i) = none)
    (hview : suite.alone i (suite.view i bench) = suite.view i bench) :
    suite.Turn i bench (suite.advance bench i) := by
  unfold advance
  rw [hstep]
  exact ⟨sound.register, Files.SameOutside.refl _, fun _ _ => rfl, sound.owns i, hview.symm⟩

/-- **A turn** does its own to the test whose turn it is. -/
theorem turn (ready : suite.Ready) (sound : suite.Sound bench) (i : ι) :
    suite.Turn i bench (suite.advance bench i) := by
  cases hprogress : bench.progress i with
  | waiting => exact turn_waiting ready sound hprogress
  | working left =>
    cases left with
    | cons edit left => exact turn_edit ready sound hprogress
    | nil =>
      refine turn_idle sound (by rw [hprogress]; rfl) ?_
      unfold view
      rw [hprogress]
      rfl
  | failed failure =>
    refine turn_idle sound (by rw [hprogress]; rfl) ?_
    unfold view
    rw [hprogress]
    rfl

/-! ## Turns in any order -/

/-- **Turns in any order** keep the invariant, and every test is as if it had taken its turns
alone. -/
theorem play_run (ready : suite.Ready) (sound : suite.Sound bench) (schedule : List ι) :
    suite.Sound (schedule.foldl suite.advance bench) ∧
      ∀ i, suite.view i (schedule.foldl suite.advance bench)
        = (suite.alone i)^[schedule.count i] (suite.view i bench) := by
  induction schedule generalizing bench with
  | nil => exact ⟨sound, fun _ => rfl⟩
  | cons j schedule ih =>
    have hturn := turn ready sound j
    obtain ⟨hsound, hview⟩ := ih (hturn.sound ready sound)
    refine ⟨hsound, fun i => (hview i).trans ?_⟩
    -- the turn of a test is one more step of it alone, and the turn of another test is none
    by_cases hi : i = j
    · subst hi
      rw [List.count_cons_self, hturn.view]
      rfl
    · rw [List.count_cons_of_ne (Ne.symm hi), hturn.view_of_ne ready hi]

/-- **A run** from files that are as they were outside the copies. -/
theorem play_start (ready : suite.Ready) (disk : Disk)
    (houtside : suite.files.SameOutside suite.Copied disk.files)
    (hstale : ∀ i, disk.files.Replaceable (suite.place i))
    (hregister : KnownRegister suite.space disk.register) (schedule : List ι) :
    suite.Sound (suite.play disk schedule) ∧ ∀ i, suite.view i (suite.play disk schedule)
      = (suite.alone i)^[schedule.count i] (.waiting, none) := by
  have hsound : suite.Sound (.start disk) := ⟨houtside, hregister, hstale⟩
  exact play_run ready hsound schedule

end Turns

end Suite

end Rollout
