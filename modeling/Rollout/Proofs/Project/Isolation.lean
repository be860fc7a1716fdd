import Rollout.Proofs.Project.Suites

/-!
# Tests do not disturb each other

- `Suite.play_isolated`: **a test among others** hands the same descriptor to its build as alone.
- `play_isolated_demo`: two tests that take turns, one of them with an old copy.
-/

namespace Rollout

open Pom

namespace Suite

variable {ι : Type} {suite : Suite ι} {bench other : Bench ι} {i : ι}

/-- Tests of which the same is seen, with a copy each, hand the same descriptor to their builds. -/
theorem descriptorContent_congr (ready : suite.Ready) (hbench : suite.Sound bench)
    (hother : suite.Sound other) (h : suite.view i bench = suite.view i other)
    (hstarted : (bench.progress i).started = true) :
    Engine.descriptorContent bench.disk.files (suite.copy i)
      = Engine.descriptorContent other.disk.files (suite.copy i) := by
  unfold view at h
  have hprogress : bench.progress i = other.progress i := by simpa using congrArg Prod.fst h
  have hstarted' := hprogress ▸ hstarted
  rw [Progress.seen_of_started hstarted, Progress.seen_of_started hstarted'] at h
  have hpom := ready.resolve_pom hbench.outside ((hbench.owns i).furnished hstarted)
  have hpom' := ready.resolve_pom hother.outside ((hother.owns i).furnished hstarted')
  unfold Engine.descriptorContent
  rw [Files.content_of_resolve hpom, Files.content_of_resolve hpom', (Prod.mk.inj h).2]

/-- A test that had a turn has its copy. -/
theorem started_iterate [BEq ι] [LawfulBEq ι] (suite : Suite ι) {schedule : List ι}
    (h : i ∈ schedule) (before : Progress × Option Entry) :
    ((suite.alone i)^[schedule.count i] before).1.started = true := by
  obtain ⟨turns, hturns⟩ := Nat.exists_eq_add_one.mpr (List.count_pos_iff.mpr h)
  rw [hturns, Function.iterate_succ_apply']
  exact suite.started_alone i _

variable [DecidableEq ι]

/-- **A test among others** is as far, and hands the same descriptor to its build, as alone where
nothing is left of earlier runs. Its copy holds what the template holds apart from the descriptor,
and the template stays as it is. -/
theorem play_isolated (ready : suite.Ready) {clean : Files}
    (hclean : suite.files.SameOutside suite.Copied clean)
    (hempty : ∀ i names, clean.get? ((suite.place i).descend names) = none)
    {register fresh : Xml.Prefixes} (hregister : KnownRegister suite.space register)
    (hfresh : KnownRegister suite.space fresh) (schedule : List ι) (i : ι) :
    let shared := suite.play ⟨suite.files, register⟩ schedule
    let alone := suite.play ⟨clean, fresh⟩ (schedule.filter (· = i))
    shared.progress i = alone.progress i ∧
      (i ∈ schedule →
        Engine.descriptorContent shared.disk.files (suite.copy i)
          = Engine.descriptorContent alone.disk.files (suite.copy i) ∧
        ∀ names ≠ [pomName], shared.disk.files.get? ((suite.place i).descend names)
          = suite.files.get? (suite.source.descend names)) ∧
      ∀ names, shared.disk.files.get? (suite.source.descend names)
        = suite.files.get? (suite.source.descend names) := by
  obtain ⟨hshared, hview⟩ := play_start ready ⟨suite.files, register⟩
    (Files.SameOutside.refl _) ready.stale hregister schedule
  obtain ⟨halone, hview'⟩ := play_start ready ⟨clean, fresh⟩ hclean
    (fun i => .inr (hempty i)) hfresh (schedule.filter (· = i))
  have hsame : suite.view i (suite.play ⟨suite.files, register⟩ schedule)
      = suite.view i (suite.play ⟨clean, fresh⟩ (schedule.filter (· = i))) := by
    rw [hview, hview', List.count_filter (by simp)]
  refine ⟨?_, fun hmem => ?_, hshared.source_eq⟩
  · simpa [view] using congrArg Prod.fst hsame
  · have hstarted := started_iterate suite hmem (.waiting, none)
    rw [← hview, view, Progress.fst_seen] at hstarted
    exact ⟨descriptorContent_congr ready hshared halone hsame hstarted,
      ((hshared.owns i).furnished hstarted).kept⟩

end Suite

/-! ## Two tests -/

/-- A descriptor in a namespace. -/
def demoText : String := "<project xmlns=\"m\"><name>demo</name></project>"

/-- The packaged files, and a template next to an old copy with files of its own. -/
def demoFiles : Files :=
  ⟨[(⟨.working, ["work"]⟩, .dir), (⟨.working, ["work", "demo"]⟩, .dir),
    (⟨.working, ["work", "demo", "pom.xml"]⟩, .file (.text demoText)),
    (⟨.working, ["work", "demo", "src"]⟩, .dir),
    (⟨.working, ["work", "demo_A_m"]⟩, .dir),
    (⟨.working, ["work", "demo_A_m", "pom.xml"]⟩, .file (.text "<old/>")),
    (⟨.working, ["work", "demo_A_m", "target"]⟩, .dir)] ++ Files.packaged.entries⟩

/-- Two tests that edit the descriptors of their copies. -/
def demoSuite : Suite Bool where
  parent := ⟨.working, ["work"]⟩
  home := ⟨.working, ["work"]⟩
  name := "demo"
  tests
    | true =>
      ⟨"A", "m", [.dependency "g" "a" "1", .configuration "k" "v" configurationTemplatePath]⟩
    | false => ⟨"B", "m", [.configuration "k" "w" configurationTemplatePath]⟩
  files := demoFiles
  space := "m"

theorem settled_demoText : Settled "m" demoText := by
  have hread : (Xml.readDocument? demoText).map spaceOf = some "m" := by decide +kernel
  obtain ⟨root, hroot, hspace⟩ := Option.map_eq_some_iff.mp hread
  obtain ⟨r⟩ := Xml.nonempty_reading_iff.mpr hroot
  have hmark : Xml.withoutMark demoText.toList = demoText.toList := by decide +kernel
  have hdeclaration : Xml.scanDeclaration demoText.toList = some (false, demoText.toList) := by
    decide +kernel
  have hstart : Xml.atStartTag demoText.toList = true := by decide +kernel
  rw [← hspace]
  exact settled_of_untyped r (r.untyped_of_atStartTag hmark hdeclaration hstart)

/-- Where the copies are. -/
theorem place_demo : demoSuite.place true = ⟨.working, ["work", "demo_A_m"]⟩ ∧
    demoSuite.place false = ⟨.working, ["work", "demo_B_m"]⟩ := by
  decide +kernel

theorem not_copied_demo {place : Path}
    (hfirst : Path.contains ⟨.working, ["work", "demo_A_m"]⟩ place = false)
    (hsecond : Path.contains ⟨.working, ["work", "demo_B_m"]⟩ place = false) :
    ¬ demoSuite.Copied place := by
  rintro ⟨i, hinside⟩
  cases i with
  | true => rw [place_demo.1, hfirst] at hinside; cases hinside
  | false => rw [place_demo.2, hsecond] at hinside; cases hinside

theorem linkless_demo {place : Path} (h : Files.isTop place = false) (target : String) :
    demoFiles.get? place ≠ some (.link target) := by
  have hlinks : ∀ entry ∈ demoFiles.entries, ∀ target, entry.2 ≠ .link target := by
    simp [demoFiles, Files.packaged]
  exact fun hlink => hlinks _ (Files.mem_of_get? h hlink) target rfl

/-- The packaged template of configurations is in none of the copies. -/
theorem readText_template_demo {other : Files}
    (h : demoFiles.SameOutside demoSuite.Copied other) :
    other.readText configurationTemplatePath = demoFiles.readText configurationTemplatePath := by
  have hresources : ¬ demoSuite.Copied resourceDir := not_copied_demo (by decide) (by decide)
  have htemplate : ¬ demoSuite.Copied configurationTemplatePath :=
    not_copied_demo (by decide) (by decide)
  have hdir : demoFiles.get? resourceDir = some .dir := by decide +kernel
  refine h.readText_eq ((Files.leads_start _ .package).below (by decide) hdir)
    ((Files.leads_start _ .package).below (by decide) ((h _ hresources).trans hdir)) (by decide)
    htemplate (linkless_demo (by decide))

theorem ready_demoSuite : demoSuite.Ready where
  down := by decide
  ways other h := by
    refine (Files.leads_start other .working).below (by decide) ?_
    exact h _ (not_copied_demo (by decide) (by decide))
  dir := rfl
  linkless names target :=
    linkless_demo (Path.not_isTop_descend ⟨.working, ["work"]⟩ (by decide) names) target
  settled := by
    have hentry : demoSuite.files.get? (demoSuite.source.below pomName)
      = some (.file (.text demoText)) := by decide +kernel
    rw [hentry]
    exact settledAt_text settled_demoText (by decide +kernel)
  apart := by
    have hne : ∀ i j, demoSuite.copy i = demoSuite.copy j → i = j := by decide +kernel
    exact fun i j => hne i j
  stale
    | true => .inl (by rw [place_demo.1]; decide)
    | false => .inr fun names =>
      Files.get?_descend_eq_none (by rw [place_demo.2]; decide) names
        (demoSuite.not_isTop_place false names)
  fixed i edit hedit template htemplate other h := by
    have htemplates : ∀ i, ∀ edit ∈ (demoSuite.tests i).edits, ∀ template ∈ edit.template?,
      template = configurationTemplatePath := by decide +kernel
    rw [htemplates i edit hedit template htemplate]
    exact readText_template_demo h

/-- The files without the old copy. -/
def demoClean : Files :=
  ⟨demoFiles.entries.filter fun entry => !(demoSuite.place true).contains entry.1⟩

/-- The tests take turns, and the first one begins. -/
def demoSchedule : List Bool := [true, false, true, false, true]

/-- Two tests that take turns, one of them where an old copy was left, are as if each were alone. -/
theorem play_isolated_demo :
    demoSuite.Ready ∧ demoSuite.files.SameOutside demoSuite.Copied demoClean ∧
    (∀ i names, demoClean.get? ((demoSuite.place i).descend names) = none) ∧
    KnownRegister demoSuite.space (Xml.Prefixes.held "m") ∧
    KnownRegister demoSuite.space Xml.Prefixes.standard ∧ true ∈ demoSchedule ∧
    let shared := demoSuite.play ⟨demoSuite.files, Xml.Prefixes.held "m"⟩ demoSchedule
    let alone := demoSuite.play ⟨demoClean, Xml.Prefixes.standard⟩ (demoSchedule.filter (· = true))
    shared.progress true = alone.progress true ∧
      Engine.descriptorContent shared.disk.files (demoSuite.copy true)
        = Engine.descriptorContent alone.disk.files (demoSuite.copy true) := by
  have hclean : demoSuite.files.SameOutside demoSuite.Copied demoClean := fun place hplace =>
    Files.sameOutside_without demoFiles _ place fun hinside => hplace ⟨true, hinside⟩
  have hempty : ∀ i names, demoClean.get? ((demoSuite.place i).descend names) = none := by
    intro i names
    have htop := demoSuite.not_isTop_place i names
    cases i with
    | true =>
      refine (Files.get?_without demoFiles htop).trans (if_pos ?_)
      exact Path.contains_descend ..
    | false =>
      refine Files.get?_descend_eq_none ?_ names htop
      rw [place_demo.2]
      decide +kernel
  have hheld : KnownRegister demoSuite.space (Xml.Prefixes.held "m") := .inr rfl
  have hstandard : KnownRegister demoSuite.space Xml.Prefixes.standard := .inl rfl
  have hturn : true ∈ demoSchedule := by decide
  obtain ⟨hprogress, hbuilt, -⟩ :=
    Suite.play_isolated ready_demoSuite hclean hempty hheld hstandard demoSchedule true
  exact ⟨ready_demoSuite, hclean, hempty, hheld, hstandard, hturn, hprogress, (hbuilt hturn).1⟩

end Rollout
