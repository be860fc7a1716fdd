import Rollout.Proofs.Project.Reach

/-!
# Calls that fail

A call that edits a descriptor reads everything it needs before it writes, and writes once. So a
call that fails has written nothing, wherever it failed.

- `ReadsOnly`: actions that leave the disk as it is, however they end.
- `FailsClean`: actions that leave the disk as it is when they fail; reading may come before one
  (`ReadsOnly.bind_failsClean`).
- `failsClean_editFile`: an edit that was read can be written, so writing does not fail.
- `configureFile_eq_noHost`: when a configuration fails for want of a profile to put it in.
- `perform_atomic`: **a call** fails without a trace, or rewrites the descriptor and nothing else.
-/

namespace Rollout

open Pom

variable {α β : Type}

/-! ## Actions that only read -/

/-- An action that leaves the disk as it is. -/
def ReadsOnly (action : Disk.Action α) : Prop :=
  ∀ disk, diskOf (action disk) = disk

/-- An action that leaves the disk as it is when it fails. -/
def FailsClean (action : Disk.Action α) : Prop :=
  ∀ disk failure after, action disk = .error failure after → after = disk

namespace ReadsOnly

theorem pure (a : α) : ReadsOnly (pure a : Disk.Action α) := fun _ => rfl

theorem throw (failure : Failure) : ReadsOnly (throw failure : Disk.Action α) := fun _ => rfl

theorem reading (f : Files → Except Failure α) : ReadsOnly (Disk.reading f) := by
  intro disk
  unfold Disk.reading
  cases f disk.files with
  | ok a => rfl
  | error failure => rfl

theorem bind {first : Disk.Action α} {next : α → Disk.Action β} (h : ReadsOnly first)
    (hnext : ∀ a, ReadsOnly (next a)) : ReadsOnly (first >>= next) := by
  intro disk
  have hfirst := h disk
  show diskOf (EStateM.bind first next disk) = disk
  unfold EStateM.bind
  cases hrun : first disk with
  | ok a after =>
    rw [hrun] at hfirst
    obtain rfl : after = disk := hfirst
    exact hnext a after
  | error failure after =>
    rw [hrun] at hfirst
    exact hfirst

theorem failsClean {action : Disk.Action α} (h : ReadsOnly action) : FailsClean action := by
  intro disk failure after hrun
  have hdisk := h disk
  rw [hrun] at hdisk
  exact hdisk

/-- Where reading comes first, a failure is one of reading or of what is done with what was read. -/
theorem bind_eq_error {first : Disk.Action α} {next : α → Disk.Action β} (h : ReadsOnly first)
    {disk after : Disk} {failure : Failure} :
    (first >>= next) disk = .error failure after ↔
      (after = disk ∧ first disk = .error failure disk) ∨
        ∃ a, first disk = .ok a disk ∧ next a disk = .error failure after := by
  have hfirst := h disk
  change EStateM.bind first next disk = _ ↔ _
  unfold EStateM.bind
  cases hrun : first disk with
  | ok a read =>
    rw [hrun] at hfirst
    obtain rfl : read = disk := hfirst
    simp
  | error problem read =>
    rw [hrun] at hfirst
    obtain rfl : read = disk := hfirst
    simp [and_comm, eq_comm]

theorem bind_failsClean {first : Disk.Action α} {next : α → Disk.Action β} (h : ReadsOnly first)
    (hnext : ∀ a, FailsClean (next a)) : FailsClean (first >>= next) := by
  intro disk failure after hrun
  obtain ⟨rfl, -⟩ | ⟨a, -, hfailed⟩ := h.bind_eq_error.mp hrun
  · rfl
  · exact hnext a disk failure after hfailed

end ReadsOnly

/-- A result given at the end does not fail. -/
theorem FailsClean.bind_pure {action : Disk.Action α} (h : FailsClean action) (b : β) :
    FailsClean (action >>= fun _ => (pure b : Disk.Action β)) := by
  intro disk failure after hrun
  change EStateM.bind action _ disk = _ at hrun
  unfold EStateM.bind at hrun
  cases hstep : action disk with
  | ok a done =>
    rw [hstep] at hrun
    cases hrun
  | error problem failed =>
    rw [hstep] at hrun
    obtain ⟨-, rfl⟩ := EStateM.Result.error.inj hrun
    exact h disk problem failed hstep

/-! ## Calls -/

theorem readsOnly_readDescriptor (pom : Path) : ReadsOnly (readDescriptor pom) :=
  ReadsOnly.reading _

theorem readsOnly_readVersion (source : Path) : ReadsOnly (readVersion source) := by
  refine (readsOnly_readDescriptor source).bind fun descriptor => ?_
  split
  · exact .pure _
  · exact .throw _

/-- **An edit of a file** fails before it writes: what was read can be written. -/
theorem editFile_eq_error {pom : Path} {edit : Style → Xml.Node → Except Failure Xml.Node}
    {disk after : Disk} {failure : Failure} :
    editFile pom edit disk = .error failure after ↔
      after = disk ∧ (readDescriptor pom disk = .error failure disk ∨
        ∃ descriptor, readDescriptor pom disk = .ok descriptor disk ∧
          edit descriptor.style descriptor.root = .error failure) := by
  refine (readsOnly_readDescriptor pom).bind_eq_error.trans ?_
  rw [and_or_left]
  refine or_congr_right ⟨?_, ?_⟩
  · rintro ⟨descriptor, hread, hfailed⟩
    cases hroot : edit descriptor.style descriptor.root with
    | error problem =>
      rw [hroot] at hfailed
      obtain ⟨rfl, rfl⟩ := EStateM.Result.error.inj hfailed
      exact ⟨rfl, descriptor, hread, hroot⟩
    | ok root =>
      obtain ⟨place, hwritten⟩ := editFile_run hread hroot
      have hrun : editFile pom edit disk = .error failure after :=
        (readsOnly_readDescriptor pom).bind_eq_error.mpr (.inr ⟨descriptor, hread, hfailed⟩)
      rw [hwritten] at hrun
      cases hrun
  · rintro ⟨rfl, descriptor, hread, hroot⟩
    refine ⟨descriptor, hread, ?_⟩
    rw [hroot]
    rfl

theorem failsClean_editFile (pom : Path) (edit : Style → Xml.Node → Except Failure Xml.Node) :
    FailsClean (editFile pom edit) := fun _ _ _ hrun => (editFile_eq_error.mp hrun).1

/-- **A call** fails before it writes. -/
theorem Mutation.failsClean (pom : Path) (mutation : Mutation) :
    FailsClean (mutation.perform pom) := by
  cases mutation with
  | pin source =>
    refine FailsClean.bind_pure ?_ ()
    exact (readsOnly_readVersion source).bind_failsClean fun version =>
      (failsClean_editFile pom _).bind_pure version
  | edit fileEdit =>
    cases fileEdit with
    | dependency group artifact version =>
      exact failsClean_editFile pom fun style root =>
        .ok (insertDependency group artifact version style root)
    | configuration key value template =>
      exact (ReadsOnly.reading (stampedFragment key value template)).bind_failsClean fun fragment =>
        failsClean_editFile pom (configureRoot pom fragment)

/-! ## No profile for the configuration -/

/-- The failure of a configuration that finds no profile to go to. -/
def Failure.IsNoHost (failure : Failure) : Prop :=
  ∃ named, failure = .noHost named

theorem not_isNoHost_of_readText {files : Files} {path : Path} {failure : Failure}
    (h : files.readText path = .error failure) : ¬ failure.IsNoHost := by
  rintro ⟨named, rfl⟩
  unfold Files.readText at h
  split at h <;> cases h

theorem not_isNoHost_of_readFragment {text : String} {failure : Failure}
    (h : readFragment text = .error failure) : ¬ failure.IsNoHost := by
  rintro ⟨named, rfl⟩
  unfold readFragment at h
  generalize Xml.readDocument? (Text.strip text) = root? at h
  cases root? with
  | none => cases h
  | some root =>
    dsimp only at h
    split at h <;> cases h

theorem stampedFragment_eq_ok {key value : String} {template : Path} {files : Files}
    {fragment : Xml.Node} :
    stampedFragment key value template files = .ok fragment ↔
      ∃ text, files.readText template = .ok text ∧
        readFragment (filledTemplate text key value) = .ok fragment := by
  unfold stampedFragment
  cases files.readText template with
  | ok text => simp [bind, Except.bind]
  | error failure => simp [bind, Except.bind]

theorem not_isNoHost_of_stampedFragment {key value : String} {template : Path} {files : Files}
    {failure : Failure} (h : stampedFragment key value template files = .error failure) :
    ¬ failure.IsNoHost := by
  unfold stampedFragment at h
  cases htext : files.readText template with
  | ok text =>
    rw [htext] at h
    dsimp only [bind, Except.bind] at h
    exact not_isNoHost_of_readFragment h
  | error problem =>
    rw [htext] at h
    obtain rfl := Except.error.inj h
    exact not_isNoHost_of_readText htext

theorem not_isNoHost_of_readDescriptor {pom : Path} {disk after : Disk} {failure : Failure}
    (h : readDescriptor pom disk = .error failure after) : ¬ failure.IsNoHost := by
  unfold readDescriptor Disk.reading at h
  dsimp only at h
  cases htext : disk.files.readText pom with
  | error problem =>
    rw [htext] at h
    obtain ⟨rfl, -⟩ := EStateM.Result.error.inj h
    exact not_isNoHost_of_readText htext
  | ok text =>
    rw [htext] at h
    rintro ⟨named, rfl⟩
    dsimp only [bind, Except.bind] at h
    cases hparse : Descriptor.parse? text with
    | none =>
      rw [hparse] at h
      cases h
    | some descriptor =>
      rw [hparse] at h
      cases h

/-- A configuration is refused just when no profile hosts the deployment plugin. -/
theorem configureRoot_eq_error {pom : Path} {fragment : Xml.Node} {style : Style}
    {project : Xml.Node} {failure : Failure} :
    configureRoot pom fragment style project = .error failure ↔
      failure = .noHost pom.text ∧ ∀ profile ∈ profiles project,
        hostsPlugin deployPlugin profile = false := by
  have hempty : (hosting deployPlugin project).isEmpty = true ↔
      ∀ profile ∈ profiles project, hostsPlugin deployPlugin profile = false := by
    simp [hosting, List.isEmpty_iff]
  unfold configureRoot configure?
  rw [← hempty]
  cases (hosting deployPlugin project).isEmpty with
  | true => simp [eq_comm]
  | false => simp

theorem reading_eq_ok {f : Files → Except Failure α} {disk : Disk} {a : α} :
    Disk.reading f disk = .ok a disk ↔ f disk.files = .ok a := by
  unfold Disk.reading
  cases f disk.files with
  | ok b => simp
  | error failure => simp

theorem reading_eq_error {f : Files → Except Failure α} {disk : Disk} {failure : Failure} :
    Disk.reading f disk = .error failure disk ↔ f disk.files = .error failure := by
  unfold Disk.reading
  cases f disk.files with
  | ok b => simp
  | error failure => simp

/-- **A configuration has nowhere to go** just when its template and the descriptor can be read and
no profile hosts the deployment plugin. -/
theorem configureFile_eq_noHost {pom template : Path} {key value named : String}
    {disk after : Disk} :
    configureFile pom key value template disk = .error (.noHost named) after ↔
      (named = pom.text ∧ after = disk) ∧
      (∃ text fragment, disk.files.readText template = .ok text ∧
        readFragment (filledTemplate text key value) = .ok fragment) ∧
      ∃ text descriptor, disk.files.readText pom = .ok text ∧
        Descriptor.parse? text = some descriptor ∧
        ∀ profile ∈ profiles descriptor.root, hostsPlugin deployPlugin profile = false := by
  have hno : (Failure.noHost named).IsNoHost := ⟨named, rfl⟩
  have hrun : configureFile pom key value template disk = .error (.noHost named) after ↔ _ :=
    (ReadsOnly.reading (stampedFragment key value template)).bind_eq_error
  rw [hrun]
  constructor
  · rintro (⟨-, hfailed⟩ | ⟨fragment, hfragment, hfailed⟩)
    · exact absurd hno (not_isNoHost_of_stampedFragment (reading_eq_error.mp hfailed))
    · obtain ⟨text, htext, hread⟩ := stampedFragment_eq_ok.mp (reading_eq_ok.mp hfragment)
      obtain ⟨rfl, hfailed | ⟨descriptor, hdescriptor, hroot⟩⟩ := editFile_eq_error.mp hfailed
      · exact absurd hno (not_isNoHost_of_readDescriptor hfailed)
      · obtain ⟨-, content, hcontent, hparse⟩ := readDescriptor_eq_ok.mp hdescriptor
        obtain ⟨hnamed, hhosts⟩ := configureRoot_eq_error.mp hroot
        exact ⟨⟨Failure.noHost.inj hnamed, rfl⟩, ⟨text, fragment, htext, hread⟩,
          content, descriptor, hcontent, hparse, hhosts⟩
  · rintro ⟨⟨rfl, rfl⟩, ⟨text, fragment, htext, hread⟩, content, descriptor, hcontent, hparse,
      hhosts⟩
    refine .inr ⟨fragment, reading_eq_ok.mpr (stampedFragment_eq_ok.mpr ⟨text, htext, hread⟩), ?_⟩
    exact editFile_eq_error.mpr ⟨rfl, .inr ⟨descriptor,
      readDescriptor_eq_ok.mpr ⟨rfl, content, hcontent, hparse⟩,
      configureRoot_eq_error.mpr ⟨rfl, hhosts⟩⟩⟩

/-! ## Either nothing or the descriptor -/

/-- **A call that edits a descriptor** leaves everything as it is when it fails; when it does not
fail, nothing has changed but the content of the file the descriptor leads to. A configuration
fails for want of a host just when its template and the descriptor can be read and no profile hosts
the deployment plugin. -/
theorem perform_atomic (pom : Path) (mutation : Mutation) (disk : Disk) :
    (∀ failure after, mutation.perform pom disk = .error failure after → after = disk) ∧
    (∀ after, mutation.perform pom disk = .ok () after →
      disk.files.Rewrites pom after.files ∧
        ∀ path, disk.files.resolve path ≠ disk.files.resolve pom →
          after.files.content path = disk.files.content path) ∧
    ∀ key value template,
      (∃ named after, configureFile pom key value template disk = .error (.noHost named) after) ↔
        (∃ text fragment, disk.files.readText template = .ok text ∧
          readFragment (filledTemplate text key value) = .ok fragment) ∧
        ∃ text descriptor, disk.files.readText pom = .ok text ∧
          Descriptor.parse? text = some descriptor ∧
          ∀ profile ∈ profiles descriptor.root, hostsPlugin deployPlugin profile = false := by
  refine ⟨mutation.failsClean pom disk, ?_, ?_⟩
  · intro after hrun
    have hrewrites := mutation.rewritesOnly pom disk
    rw [hrun] at hrewrites
    exact ⟨hrewrites, fun path hpath => (hrewrites.content_eq_iff path).mpr (.inr hpath)⟩
  · intro key value template
    constructor
    · rintro ⟨named, after, hrun⟩
      exact (configureFile_eq_noHost.mp hrun).2
    · intro hread
      exact ⟨pom.text, disk, configureFile_eq_noHost.mpr ⟨⟨rfl, rfl⟩, hread⟩⟩

/-- A descriptor without profiles next to a template. -/
def bareDisk : Disk where
  files :=
    ⟨[(⟨.working, ["pom.xml"]⟩, .file (.text "<project/>")),
      (⟨.working, ["template.xml"]⟩, .file (.text "<configuration/>"))]⟩
  register := Xml.Prefixes.standard

/-- A configuration finds no host in it and leaves it as it is; a dependency goes to the descriptor
and leaves the template. -/
theorem perform_atomic_bareDisk :
    (∃ named after, configureFile ⟨.working, ["pom.xml"]⟩ "key" "value"
        ⟨.working, ["template.xml"]⟩ bareDisk = .error (.noHost named) after ∧ after = bareDisk) ∧
    ∃ after, (Mutation.edit (.dependency "g" "a" "1")).perform ⟨.working, ["pom.xml"]⟩ bareDisk
        = .ok () after ∧
      after.files.content ⟨.working, ["template.xml"]⟩ = .ok (.text "<configuration/>") := by
  have htemplate : bareDisk.files.readText ⟨.working, ["template.xml"]⟩ = .ok "<configuration/>" :=
    rfl
  have hpom : bareDisk.files.readText ⟨.working, ["pom.xml"]⟩ = .ok "<project/>" := rfl
  have hfragment : ∃ fragment, readFragment (filledTemplate "<configuration/>" "key" "value")
      = .ok fragment := by
    have hok : (readFragment (filledTemplate "<configuration/>" "key" "value")).isOk = true := by
      decide +kernel
    cases hread : readFragment (filledTemplate "<configuration/>" "key" "value") with
    | ok fragment => exact ⟨fragment, rfl⟩
    | error failure =>
      rw [hread] at hok
      cases hok
  have hdescriptor : ∃ descriptor, Descriptor.parse? "<project/>" = some descriptor ∧
      (profiles descriptor.root).isEmpty = true := by
    have hnone : (Descriptor.parse? "<project/>").map (fun descriptor =>
        (profiles descriptor.root).isEmpty) = some true := by decide +kernel
    exact Option.map_eq_some_iff.mp hnone
  obtain ⟨fragment, hfragment⟩ := hfragment
  obtain ⟨descriptor, hparse, hprofiles⟩ := hdescriptor
  constructor
  · obtain ⟨hclean, -, hhost⟩ := perform_atomic ⟨.working, ["pom.xml"]⟩
      (.edit (.configuration "key" "value" ⟨.working, ["template.xml"]⟩)) bareDisk
    obtain ⟨named, after, hrun⟩ := (hhost "key" "value" ⟨.working, ["template.xml"]⟩).mpr
      ⟨⟨"<configuration/>", fragment, htemplate, hfragment⟩, "<project/>", descriptor, hpom, hparse,
        by simp [List.isEmpty_iff.mp hprofiles]⟩
    exact ⟨named, after, hrun, hclean _ after hrun⟩
  · have hread : readDescriptor ⟨.working, ["pom.xml"]⟩ bareDisk = .ok descriptor bareDisk :=
      readDescriptor_eq_ok.mpr ⟨rfl, "<project/>", hpom, hparse⟩
    obtain ⟨place, hrun⟩ := @editFile_run ⟨.working, ["pom.xml"]⟩ bareDisk descriptor _
      (fun style root => .ok (insertDependency "g" "a" "1" style root)) hread rfl
    obtain ⟨after, hperform⟩ : ∃ after, (Mutation.edit (.dependency "g" "a" "1")).perform
        ⟨.working, ["pom.xml"]⟩ bareDisk = .ok () after := ⟨_, hrun⟩
    obtain ⟨-, hdone, -⟩ := perform_atomic ⟨.working, ["pom.xml"]⟩
      (.edit (.dependency "g" "a" "1")) bareDisk
    have htemplate := (hdone after hperform).2 ⟨.working, ["template.xml"]⟩ (by decide +kernel)
    exact ⟨after, hperform, htemplate.trans rfl⟩

end Rollout
