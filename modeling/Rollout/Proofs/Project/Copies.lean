import Rollout.Proofs.Files.Ways
import Rollout.Proofs.Project.Paths

/-!
# Fresh copies

A fresh copy holds what the template holds, whatever was left at its place before, and nothing else
changes.

- `provide`: a fresh copy as a change of the disk; `freshCopy_eq` says that it is all that
  `freshCopy` does.
- `exists_cleared`: the copy left from before is removed.
- `exists_copied`: the template is copied to a place where nothing is.
- `provide_run`: **a fresh copy**.
-/

namespace Rollout

/-- A fresh copy of a template for a test, as a change of the disk. -/
def provide (template : Path) (testClass method : String) : Disk.Action Unit := do
  Disk.changing (clearTarget (copyPath template testClass method))
  Disk.changing (Files.copyTree template (copyPath template testClass method))

theorem freshCopy_eq (template : Path) (testClass method : String) :
    freshCopy template testClass method = do
      Run.onDisk (provide template testClass method)
      return ⟨copyPath template testClass method, template⟩ := by
  funext world
  show EStateM.bind _ _ world = EStateM.bind _ _ world
  unfold EStateM.bind provide Run.onDisk Disk.changing
  simp only [bind, EStateM.bind]
  cases clearTarget (copyPath template testClass method) world.disk.files with
  | error problem => rfl
  | ok cleared => cases Files.copyTree template (copyPath template testClass method) cleared <;> rfl

namespace Files

variable {files : Files} {place : Path}

/-- There is a directory at the place, or there is nothing at it and nothing inside it. -/
def Replaceable (files : Files) (place : Path) : Prop :=
  files.get? place = some .dir ∨ ∀ names, files.get? (place.descend names) = none

theorem sameOutside_without (files : Files) (place : Path) :
    files.SameOutside (place.contains ·)
      ⟨files.entries.filter fun entry => !place.contains entry.1⟩ := by
  intro other hother
  cases htop : isTop other with
  | true => rw [get?, get?, if_pos htop, if_pos htop]
  | false => rw [get?_without _ htop, if_neg hother]

/-- A path leads somewhere, whatever there is inside the place. -/
def Apart (files : Files) (place path home : Path) : Prop :=
  ∀ other, files.SameOutside (place.contains ·) other → other.Leads path home

section Copies

variable {parent home : Path} {name name' : String}

/-- **The copy left from before** is removed, with all that is in it. -/
theorem exists_cleared (hways : files.Leads parent home) (hname : name' ≠ "..")
    (hstale : files.Replaceable (home.below name')) :
    ∃ cleared, clearTarget (parent.below name') files = .ok cleared ∧
      files.SameOutside ((home.below name').contains ·) cleared ∧
      ∀ names, cleared.get? ((home.below name').descend names) = none := by
  have hlink : ∀ target, files.get? (home.below name') ≠ some (.link target) := by
    intro target heq
    rcases hstale with hdir | hnone
    · rw [hdir] at heq
      cases heq
    · have hroot := hnone []
      rw [Path.descend_nil, heq] at hroot
      cases hroot
  have hfind := find_of_resolve (hways.resolve hname hlink)
  unfold clearTarget exists?
  rw [hfind]
  rcases hstale with hdir | hnone
  · refine ⟨_, ?_, sameOutside_without files _, fun names => ?_⟩
    · rw [hdir]
      show removeTree _ files = _
      unfold removeTree
      rw [hways.resolveEntry hname hlink]
      simp only [bind, Except.bind, hdir]
    · rw [get?_without _ (Path.not_isTop_descend home hname names),
        if_pos (Path.contains_descend ..)]
  · have hroot := hnone []
    rw [Path.descend_nil] at hroot
    refine ⟨files, ?_, SameOutside.refl files, hnone⟩
    rw [hroot]
    rfl

/-- **The template is copied** to a place where nothing is. -/
theorem exists_copied (hways : files.Apart (home.below name') parent home)
    (hname : name ≠ "..") (hname' : name' ≠ "..")
    (hdir : files.get? (home.below name) = some .dir)
    (hnone : ∀ names, files.get? ((home.below name').descend names) = none) :
    ∃ copied, copyTree (parent.below name) (parent.below name') files = .ok copied ∧
      files.SameOutside ((home.below name').contains ·) copied ∧
      ∀ names, copied.get? ((home.below name').descend names)
        = files.get? ((home.below name).descend names) := by
  have hroot : files.get? (home.below name') = none := by simpa using hnone []
  have hput : files.SameOutside ((home.below name').contains ·)
      (files.put (home.below name') .dir) := sameOutside_put (Path.contains_self _) files .dir
  have hself := get?_put_self files (Path.not_isTop_below home hname') .dir
  -- the way to the template's directory is the same before and after the new directory is made
  have hsource := (hways files (SameOutside.refl files)).resolve hname (fun target heq => by
    rw [hdir] at heq
    cases heq)
  have hfresh := (hways files (SameOutside.refl files)).resolveEntry hname' (fun target heq => by
    rw [hroot] at heq
    cases heq)
  have hmade := (hways _ hput).resolveEntry hname' (fun target heq => by
    rw [hself] at heq
    cases heq)
  refine ⟨⟨(files.put (home.below name') .dir).entries
    ++ files.copies (home.below name) (home.below name')⟩, ?_, fun other hother => ?_,
    fun names => ?_⟩
  · unfold copyTree makeDir
    simp only [hsource, hfresh, hmade, hdir, hroot, bind, Except.bind]
  · have hkept := hput other hother
    cases htop : isTop other with
    | true => rw [get?, get?, if_pos htop, if_pos htop]
    | false =>
      rw [get?_of_not_top _ htop] at hkept ⊢
      rw [List.lookup_append, hkept,
        lookup_copies_of_not_contains _ (Bool.eq_false_iff.mpr hother), Option.or_none]
  · have htop := Path.not_isTop_descend home hname' names
    rw [get?_of_not_top _ htop, List.lookup_append, lookup_copies,
      ← get?_of_not_top (files.put _ _) htop]
    by_cases hnames : names = []
    · subst hnames
      rw [Path.descend_nil, Path.descend_nil, hself, hdir, Option.some_or]
    · have hinside : (home.below name').descend names ≠ home.below name' := fun heq =>
        hnames (by simpa [Path.descend] using congrArg Path.parts heq)
      rw [get?_put_of_ne hinside, hnone, Option.none_or, if_neg hnames,
        get?_of_not_top _ (Path.not_isTop_descend home hname names)]

end Copies

end Files

/-! ## The whole copy -/

/-- The name of a test's copy. -/
def copyName (name testClass method : String) : String :=
  name ++ "_" ++ Text.fileSafe testClass ++ "_" ++ Text.fileSafe method

theorem copyPath_below (parent : Path) (name testClass method : String) :
    copyPath (parent.below name) testClass method
      = parent.below (copyName name testClass method) := by
  unfold copyPath
  rw [Path.below_parent, Path.below_name]
  rfl

/-- The name of a copy is longer than that of the template, and no way up. -/
theorem copyName_ne (name testClass method : String) :
    copyName name testClass method ≠ name ∧ copyName name testClass method ≠ ".." := by
  have hlist := toList_copyName (Path.below default name) testClass method
  rw [copyPath_below, Path.below_name, Path.below_name] at hlist
  constructor
  · intro heq
    rw [heq] at hlist
    have hlength := congrArg List.length hlist
    simp only [List.length_append, List.length_cons] at hlength
    omega
  · intro heq
    have hmem : '_' ∈ (copyName name testClass method).toList := by
      rw [hlist]
      simp
    rw [heq] at hmem
    exact absurd hmem (by decide)

/-- **A fresh copy** holds what the template holds, whatever was left at its place, and nothing else
changes. -/
theorem provide_run {disk : Disk} {parent home : Path} {name testClass method : String}
    (hways : disk.files.Apart (copyPath (home.below name) testClass method) parent home)
    (hname : name ≠ "..") (hdir : disk.files.get? (home.below name) = some .dir)
    (hstale : disk.files.Replaceable (copyPath (home.below name) testClass method)) :
    ∃ files, provide (parent.below name) testClass method disk
        = .ok () { disk with files := files } ∧
      disk.files.SameOutside ((copyPath (home.below name) testClass method).contains ·) files ∧
      ∀ names, files.get? ((copyPath (home.below name) testClass method).descend names)
        = disk.files.get? ((home.below name).descend names) := by
  obtain ⟨hne, hup⟩ := copyName_ne name testClass method
  rw [copyPath_below] at hways hstale ⊢
  obtain ⟨cleared, hclear, hsame, hnone⟩ :=
    Files.exists_cleared (hways _ (Files.SameOutside.refl _)) hup hstale
  have htemplate : ∀ names, cleared.get? ((home.below name).descend names)
      = disk.files.get? ((home.below name).descend names) := hsame.sibling hne
  have hdir' : cleared.get? (home.below name) = some .dir := by
    have hroot := htemplate []
    rw [Path.descend_nil, hdir] at hroot
    exact hroot
  obtain ⟨files, hcopy, hsame', hfiles⟩ := Files.exists_copied
    (fun other hother => hways other (hsame.trans hother)) hname hup hdir' hnone
  refine ⟨files, ?_, hsame.trans hsame', fun names => (hfiles names).trans (htemplate names)⟩
  unfold provide Disk.changing
  rw [copyPath_below]
  simp only [bind, EStateM.bind, hclear, hcopy]

end Rollout
