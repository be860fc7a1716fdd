import Mathlib.Data.List.Forall2
import Rollout.Project.Copy
import Rollout.Proofs.Files.Planting
import Rollout.Proofs.Text.Pieces
import Rollout.Proofs.World.Runs

/-!
# Clones

The clones of repositories are kept in one directory, each under the last name of its address. Of
the repositories whose addresses end in one name only the first one is cloned; whoever asks for
another one is given that clone.

- `cloneName_address`, `child_cloneName`: the name of a clone and its place.
- `cloneAll`, `firstNamed`: repositories cloned one after the other, and the first one of a name.
- `attempt_ensureClone_of_there`, `exists_attempt_ensureClone`: what one call does where there is a
  clone, and where there is nothing.
- `Cloned`: what is in the directory after some calls; `Cloned.step` is one call more.
- `clone_holds_iff`: **whose files a call gives**.
-/

namespace Rollout

/-! ## Names -/

/-- **Addresses that end in one name** give it to their clones, whatever stands before it and
however many slashes behind it. -/
theorem cloneName_address (front name : String) (count : Nat) (h : '/' ∉ name.toList) :
    cloneName (front ++ "/" ++ name ++ ".git" ++ String.ofList (List.replicate count '/'))
      = name := by
  have haddress : front ++ "/" ++ name ++ ".git" ++ String.ofList (List.replicate count '/')
      = String.ofList ((front.toList ++ '/' :: (name.toList ++ ".gi".toList))
        ++ 't' :: List.replicate count '/') := by
    apply String.toList_inj.mp
    simp
  have hkept : String.ofList ((front.toList ++ '/' :: (name.toList ++ ".gi".toList)) ++ ['t'])
      = String.ofList (front.toList ++ '/' :: (name.toList ++ ".git".toList)) := by
    simp
  unfold cloneName
  rw [haddress, Text.dropTrailing_append (by decide), hkept,
    Text.afterLast_append _ (by simpa using h)]
  simpa using Text.dropEnding_append ".git" name

theorem not_mem_cloneName (url : String) : '/' ∉ (cloneName url).toList := fun h =>
  Text.not_mem_afterLast '/' _ (Text.mem_of_mem_dropEnding h)

/-- A name that a directory can have. -/
def ProperName (name : String) : Prop :=
  name ≠ "" ∧ name ≠ "." ∧ name ≠ ".."

/-- A clone is in the directory of clones, under its name. -/
theorem child_cloneName {url : String} (h : ProperName (cloneName url)) (workdir : Path) :
    workdir.child (cloneName url) = workdir.below (cloneName url) := by
  have hname := not_mem_cloneName url
  obtain ⟨hempty, hdot, -⟩ := h
  have hparts : Path.partsOf (cloneName url) = [cloneName url] := by
    unfold Path.partsOf Text.splitOn
    rw [Text.splitChars_eq_splitOn, List.splitOn_eq_singleton hname]
    simp [hempty, hdot]
  have hanchor : Path.anchorOf (cloneName url).toList = .working := by
    unfold Path.anchorOf
    split
    case h_4 => rfl
    all_goals
      rename_i heq
      rw [heq] at hname
      simp at hname
  rw [Path.child, Path.read, hparts, hanchor]
  rfl

/-! ## One call -/

theorem Run.get_bind {β : Type} (next : World → Run β) (world : World) :
    (get >>= next) world = next world world := rfl

theorem Run.onDisk_changing {change : Files → Except FileProblem Files} {world : World}
    {files : Files} (h : change world.disk.files = .ok files) :
    Run.onDisk (Disk.changing change) world
      = .ok () { world with disk := { world.disk with files := files } } := by
  unfold Run.onDisk Disk.changing
  rw [h]

/-- The files of the repository at an address. -/
def World.filesOf (world : World) (url : String) : List (Path × Entry) :=
  (world.remotes.lookup url).getD []

/-- The files of a repository, with the directory that shows that they are a clone. -/
structure IsRepository (planted : List (Path × Entry)) : Prop extends Files.Plantable planted where
  marked : Files.held planted ⟨.working, [".git"]⟩ = some .dir

theorem IsRepository.held_top {planted : List (Path × Entry)} (h : IsRepository planted) :
    Files.held planted ⟨.working, []⟩ = some .dir := by
  have hmarked := h.marked
  cases planted with
  | nil => cases hmarked
  | cons item rest =>
    have hworking := h.working item (List.mem_cons_self ..)
    have hnamed := h.named item (List.mem_cons_self ..)
    have hinside : (⟨.working, []⟩ : Path).contains item.1 = true :=
      Path.contains_iff.mpr ⟨hworking.symm, List.nil_prefix⟩
    have hne : item.1 ≠ ⟨.working, []⟩ := fun heq => hnamed (by rw [heq])
    unfold Files.held
    rw [if_pos]
    simp [hinside, hne]

section Call

variable {files : Files} {workdir : Path} {name url : String} {planted : List (Path × Entry)}
  {world : World}

/-- A clone is seen where one is. -/
theorem exists_git_of_holds (hstanding : files.Standing workdir) (hname : name ≠ "..")
    (hplanted : IsRepository planted) (h : files.Holds (workdir.below name) planted) :
    files.exists? ((workdir.below name).below ".git") = true := by
  have htop : files.get? (workdir.below name) = some .dir := by
    rw [← Path.descend_nil (workdir.below name), h]
    exact hplanted.held_top
  have hmark : files.get? ((workdir.below name).below ".git") = some .dir := by
    rw [Path.below_eq_descend (workdir.below name), h]
    exact hplanted.marked
  have hleads := (Files.standing_below_iff.mpr ⟨hstanding, hname, htop⟩).leads
  have hresolve := hleads.resolve (by decide : ".git" ≠ "..")
    (Files.ne_link_of_free (.inr hmark))
  rw [Files.exists?, Files.find_of_resolve hresolve, hmark]
  rfl

/-- No clone is seen where nothing is. -/
theorem not_exists_git_of_holds (hclear : files.Clear workdir) (hname : name ≠ "..")
    (h : files.Holds (workdir.below name) []) :
    files.exists? ((workdir.below name).below ".git") = false := by
  have hnone : files.get? (workdir.below name) = none := by
    rw [← Path.descend_nil (workdir.below name), h, Files.held_nil]
  have hbelow := Files.clear_below_iff.mpr ⟨hclear, hname, .inl hnone⟩
  have hresolve : files.resolve ((workdir.below name).below ".git") = .error .missing :=
    hbelow.walk_missing (Path.contains_self _) hnone (List.cons_ne_nil ".git" []) true
  rw [Files.exists?, Files.find, hresolve]
  rfl

/-- What looks like a clone is given as it is. -/
theorem attempt_ensureClone_of_there
    (h : world.disk.files.exists? ((workdir.child (cloneName url)).below ".git") = true) :
    Run.attempt (ensureClone url workdir) world
      = .ok (.ok (workdir.child (cloneName url))) world := by
  have hrun : ensureClone url workdir world = .ok (workdir.child (cloneName url)) world := by
    unfold ensureClone
    refine (Run.get_bind ..).trans ?_
    rw [if_pos h]
    rfl
  rw [Run.attempt, hrun]

/-- What a clone leaves: other files, the repositories as they were, and some results of processes
taken. -/
structure World.Fetched (world : World) (grown : Files) (final : World) : Prop where
  files : final.disk.files = grown
  remotes : final.remotes = world.remotes
  processes : final.processes <:+ world.processes

/-- A call gives this, or a process failed. -/
def Gives {α : Type} (world : World) (a : α) (result : Except Failure α) : Prop :=
  result = .ok a ∨
    ∃ process ∈ world.processes, process.status ≠ 0 ∧ result = .error (.exitStatus process.status)

variable {grown : Files} {target : Path}

theorem fetchRemote_run (h : Files.plant target (world.filesOf url) world.disk.files = .ok grown) :
    fetchRemote url target world
      = .ok () { world with disk := { world.disk with files := grown } } := by
  unfold fetchRemote
  refine (Run.get_bind ..).trans ?_
  unfold World.filesOf at h
  cases hremote : world.remotes.lookup url with
  | none =>
    rw [hremote] at h
    cases h
    rfl
  | some planted =>
    rw [hremote] at h
    exact Run.onDisk_changing h

/-- The next result of a process is taken, if there is one. -/
theorem exists_nextProcess (world : World) :
    ∃ process final, Run.nextProcess world = .ok process final ∧
      world.Fetched world.disk.files final ∧
      (process.status ≠ 0 → process ∈ world.processes) := by
  unfold Run.nextProcess
  cases hprocesses : world.processes with
  | nil =>
    refine ⟨⟨0, ""⟩, world, ?_, ⟨rfl, rfl, List.suffix_rfl⟩, fun h => absurd rfl h⟩
    refine (Run.get_bind ..).trans ?_
    rw [hprocesses]
    rfl
  | cons process rest =>
    refine ⟨process, { world with processes := rest }, ?_,
      ⟨rfl, rfl, by rw [hprocesses]; exact List.suffix_cons ..⟩, fun _ => List.mem_cons_self ..⟩
    refine (Run.get_bind ..).trans ?_
    rw [hprocesses]
    rfl

/-- The files of a repository are fetched, whether the process fails or not. -/
theorem exists_gitClone
    (h : Files.plant target (world.filesOf url) world.disk.files = .ok grown) :
    ∃ result final, gitClone url target world = Run.ending result final ∧
      world.Fetched grown final ∧ Gives world () result := by
  let noted : World :=
    { world with log := world.log ++ [.git ["clone", "--depth", "1", url, target.text]] }
  let fetched : World := { noted with disk := { world.disk with files := grown } }
  have hfetch : fetchRemote url target noted = .ok () fetched := fetchRemote_run h
  obtain ⟨process, final, hprocess, hfinal, hmem⟩ := exists_nextProcess fetched
  have hstep : gitClone url target world
      = (if process.status ≠ 0 then throw (.exitStatus process.status) else pure () : Run Unit)
          final := by
    unfold gitClone
    have hnoted : Run.emit (.git ["clone", "--depth", "1", url, target.text]) world
        = .ok () noted := rfl
    refine (Run.bind_of_ok hnoted).trans ?_
    exact (Run.bind_of_ok hfetch).trans (Run.bind_of_ok hprocess)
  have hleft : world.Fetched grown final := ⟨hfinal.files, hfinal.remotes, hfinal.processes⟩
  rw [hstep]
  by_cases hstatus : process.status ≠ 0
  · refine ⟨.error (.exitStatus process.status), final, ?_, hleft,
      .inr ⟨process, hmem hstatus, hstatus, rfl⟩⟩
    rw [if_pos hstatus]
    rfl
  · refine ⟨.ok (), final, ?_, hleft, .inl rfl⟩
    rw [if_neg hstatus]
    rfl

/-- Where nothing is, a clone is made. -/
theorem exists_attempt_ensureClone {made : Files} (htarget : workdir.child (cloneName url) = target)
    (hmissing : world.disk.files.exists? (target.below ".git") = false)
    (hmade : Files.makeDirs target.parent world.disk.files = .ok made)
    (hgrown : Files.plant target (world.filesOf url) made = .ok grown) :
    ∃ result final, Run.attempt (ensureClone url workdir) world = .ok result final ∧
      world.Fetched grown final ∧ Gives world target result := by
  let ready : World := { world with disk := { world.disk with files := made } }
  have hready : Files.plant target (ready.filesOf url) ready.disk.files = .ok grown := hgrown
  obtain ⟨result, final, hclone, hfinal, hresult⟩ := exists_gitClone hready
  have hdirs : Run.onDisk (Disk.changing (Files.makeDirs target.parent)) world = .ok () ready :=
    Run.onDisk_changing hmade
  have hstep : ensureClone url workdir world
      = (gitClone url target >>= fun _ => pure target) ready := by
    unfold ensureClone
    rw [htarget]
    refine (Run.get_bind ..).trans ?_
    rw [hmissing, if_neg Bool.false_ne_true]
    exact Run.bind_of_ok hdirs
  have hleft : world.Fetched grown final := ⟨hfinal.files, hfinal.remotes, hfinal.processes⟩
  unfold Run.attempt
  rw [hstep]
  rcases hresult with rfl | ⟨process, hmem, hstatus, rfl⟩
  · refine ⟨.ok target, final, ?_, hleft, .inl rfl⟩
    rw [Run.bind_of_ok hclone]
    rfl
  · refine ⟨.error (.exitStatus process.status), final, ?_, hleft,
      .inr ⟨process, hmem, hstatus, rfl⟩⟩
    rw [Run.bind_of_error hclone]

end Call

/-! ## Call after call -/

/-- Repositories cloned one after the other into a directory. A call that fails does not keep the
others from being made. -/
def cloneAll (workdir : Path) (urls : List String) : Run (List (Except Failure Path)) :=
  urls.mapM fun url => Run.attempt (ensureClone url workdir)

/-- The first of some repositories that has a name. -/
def firstNamed (urls : List String) (name : String) : Option String :=
  urls.find? fun url => cloneName url == name

/-- Repositories that can be cloned into a directory: nothing is at the places of the clones, and
the ways to them have no links. -/
structure Cloneable (workdir : Path) (start : World) (urls : List String) : Prop where
  clear : start.disk.files.Clear workdir
  free : ∀ url ∈ urls, start.disk.files.Holds (workdir.below (cloneName url)) []
  proper : ∀ url ∈ urls, ProperName (cloneName url)
  repositories : ∀ url ∈ urls, IsRepository (start.filesOf url)

/-- What some calls leave: at the place of each clone there are the files of the first repository
that was asked for under its name. -/
structure Cloned (workdir : Path) (start : World) (urls asked : List String) (world : World) :
    Prop where
  remotes : world.remotes = start.remotes
  processes : world.processes <:+ start.processes
  clear : world.disk.files.Clear workdir
  standing : asked ≠ [] → world.disk.files.Standing workdir
  holds : ∀ url ∈ urls, world.disk.files.Holds (workdir.below (cloneName url))
    (((firstNamed asked (cloneName url)).map start.filesOf).getD [])

theorem firstNamed_concat (asked : List String) (url name : String) :
    firstNamed (asked ++ [url]) name
      = (firstNamed asked name).or (if cloneName url = name then some url else none) := by
  unfold firstNamed
  rw [List.find?_append, List.find?_singleton]
  simp

theorem Gives.of_suffix {world start : World} {place : Path} {result : Except Failure Path}
    (h : Gives world place result) (hprocesses : world.processes <:+ start.processes) :
    Gives start place result := by
  refine h.imp_right ?_
  rintro ⟨process, hmem, hstatus, hresult⟩
  exact ⟨process, hprocesses.subset hmem, hstatus, hresult⟩

section Calls

variable {workdir : Path} {start world : World} {urls asked : List String} {url : String}

/-- Whoever asks for a name again is given what is there. -/
theorem Cloned.step_again (ready : Cloneable workdir start urls)
    (h : Cloned workdir start urls asked world) (hasked : asked ⊆ urls) (hurl : url ∈ urls)
    {owner : String} (hfirst : firstNamed asked (cloneName url) = some owner) :
    Run.attempt (ensureClone url workdir) world
        = .ok (.ok (workdir.below (cloneName url))) world ∧
      Cloned workdir start urls (asked ++ [url]) world := by
  have hproper := ready.proper url hurl
  have howner := List.mem_of_find?_eq_some hfirst
  have hstanding := h.standing (List.ne_nil_of_mem howner)
  have hholds := h.holds url hurl
  rw [hfirst] at hholds
  have hthere := exists_git_of_holds hstanding hproper.2.2
    (ready.repositories owner (hasked howner)) hholds
  rw [← child_cloneName hproper] at hthere ⊢
  refine ⟨attempt_ensureClone_of_there hthere, h.remotes, h.processes, h.clear,
    fun _ => hstanding, fun other hother => ?_⟩
  have hkept : firstNamed (asked ++ [url]) (cloneName other)
      = firstNamed asked (cloneName other) := by
    rw [firstNamed_concat]
    by_cases hsame : cloneName url = cloneName other
    · rw [← hsame, hfirst, Option.some_or]
    · rw [if_neg hsame, Option.or_none]
  rw [hkept]
  exact h.holds other hother

/-- Whoever asks for a name first is given their own files. -/
theorem Cloned.step_first (ready : Cloneable workdir start urls)
    (h : Cloned workdir start urls asked world) (hurl : url ∈ urls)
    (hfirst : firstNamed asked (cloneName url) = none) :
    ∃ result final, Run.attempt (ensureClone url workdir) world = .ok result final ∧
      Gives start (workdir.below (cloneName url)) result ∧
      Cloned workdir start urls (asked ++ [url]) final := by
  have hproper := ready.proper url hurl
  have hholds := h.holds url hurl
  rw [hfirst] at hholds
  obtain ⟨made, grown, hmade, hgrown, hstanding, hfiles, hothers⟩ := Files.exists_filled
    (ready.repositories url hurl).toPlantable h.clear hproper.2.2 hholds
  have hremote : world.filesOf url = start.filesOf url := by
    rw [World.filesOf, h.remotes, World.filesOf]
  rw [← hremote] at hgrown
  obtain ⟨result, final, hrun, hfinal, hgives⟩ :=
    exists_attempt_ensureClone (child_cloneName hproper workdir)
      (not_exists_git_of_holds h.clear hproper.2.2 hholds)
      (by rw [Path.below_parent]; exact hmade) hgrown
  rw [← hfinal.files] at hstanding hfiles hothers
  refine ⟨result, final, hrun, hgives.of_suffix h.processes, hfinal.remotes.trans h.remotes,
    hfinal.processes.trans h.processes, hstanding.clear, fun _ => hstanding,
    fun other hother => ?_⟩
  rw [firstNamed_concat]
  by_cases hshared : cloneName url = cloneName other
  · rw [← hshared, hfirst, if_pos rfl]
    exact hfiles
  · rw [if_neg hshared, Option.or_none]
    exact fun names => (hothers _ (Ne.symm hshared) names).trans (h.holds other hother names)

/-- **One call more.** -/
theorem Cloned.step (ready : Cloneable workdir start urls)
    (h : Cloned workdir start urls asked world) (hasked : asked ⊆ urls) (hurl : url ∈ urls) :
    ∃ result final, Run.attempt (ensureClone url workdir) world = .ok result final ∧
      Gives start (workdir.below (cloneName url)) result ∧
      Cloned workdir start urls (asked ++ [url]) final := by
  cases hfirst : firstNamed asked (cloneName url) with
  | some owner =>
    obtain ⟨hrun, hcloned⟩ := h.step_again ready hasked hurl hfirst
    exact ⟨_, world, hrun, .inl rfl, hcloned⟩
  | none => exact h.step_first ready hurl hfirst

/-- **Any number of calls.** -/
theorem Cloned.run (ready : Cloneable workdir start urls) :
    ∀ {more asked : List String} {world : World}, Cloned workdir start urls asked world →
      asked ⊆ urls → more ⊆ urls →
      ∃ results final, cloneAll workdir more world = .ok results final ∧
        List.Forall₂ (fun url => Gives start (workdir.below (cloneName url))) more results ∧
        Cloned workdir start urls (asked ++ more) final
  | [], asked, world, h, _, _ => ⟨[], world, rfl, .nil, by rwa [List.append_nil]⟩
  | url :: more, asked, world, h, hasked, hmore => by
    have hurl := hmore (List.mem_cons_self ..)
    obtain ⟨result, next, hrun, hgives, hnext⟩ := h.step ready hasked hurl
    obtain ⟨results, final, hrest, hall, hfinal⟩ := Cloned.run ready hnext
      (List.append_subset.mpr ⟨hasked, by simpa using hurl⟩)
      (List.subset_of_cons_subset hmore)
    refine ⟨result :: results, final, ?_, .cons hgives hall, by simpa using hfinal⟩
    unfold cloneAll at hrest ⊢
    rw [List.mapM_cons]
    exact (Run.bind_of_ok hrun).trans (Run.bind_of_ok hrest)

end Calls

end Rollout
