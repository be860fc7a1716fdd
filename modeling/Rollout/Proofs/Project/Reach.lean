import Rollout.Proofs.Files.Shapes
import Rollout.Proofs.Pom.FileEdits
import Rollout.Proofs.Project.Copies

/-!
# What edits of a copy reach

A copy has the links of its template as links, and an edit of a descriptor is written through them.
So what an edit reaches depends on where the descriptor of the copy leads: to a file of the copy
itself, or to one that the template and its other copies share.

- `RewritesOnly`: actions that change nothing but the content of the file a path leads to.
- `Mutation`, `mutated`: calls that edit a descriptor, one after the other; `mutated_rewrites` says
  that they are such actions.
- `resolve_copy_of_file`, `resolve_copy_of_outward`: where the descriptor of a copy leads when it is
  a file, and when it is a link out of the directory.
- `provided_reads_iff`: **what edits of a copy reach**.
- `provided_reads_of_linkless`: what they do not reach when the template has no links.
-/

namespace Rollout

open Pom

/-! ## Actions that rewrite one file -/

/-- The disk that an action leaves. -/
def diskOf {α : Type} : EStateM.Result Failure Disk α → Disk
  | .ok _ disk => disk
  | .error _ disk => disk

/-- An action that changes nothing but the content of the file a path leads to. -/
def RewritesOnly {α : Type} (path : Path) (action : Disk.Action α) : Prop :=
  ∀ disk, Files.Rewrites path disk.files (diskOf (action disk)).files

namespace RewritesOnly

variable {α β : Type} {path : Path}

theorem pure (path : Path) (a : α) : RewritesOnly path (pure a : Disk.Action α) := fun disk =>
  Files.Rewrites.refl path disk.files

theorem throw (path : Path) (failure : Failure) :
    RewritesOnly path (throw failure : Disk.Action α) := fun disk =>
  Files.Rewrites.refl path disk.files

theorem reading (path : Path) (f : Files → Except Failure α) :
    RewritesOnly path (Disk.reading f) := by
  intro disk
  unfold Disk.reading
  cases f disk.files with
  | ok a => exact Files.Rewrites.refl path disk.files
  | error failure => exact Files.Rewrites.refl path disk.files

theorem bind {first : Disk.Action α} {next : α → Disk.Action β} (h : RewritesOnly path first)
    (hnext : ∀ a, RewritesOnly path (next a)) : RewritesOnly path (first >>= next) := by
  intro disk
  have hfirst := h disk
  show Files.Rewrites path disk.files (diskOf (EStateM.bind first next disk)).files
  unfold EStateM.bind
  cases hrun : first disk with
  | ok a after =>
    rw [hrun] at hfirst
    exact hfirst.trans (hnext a after)
  | error failure after =>
    rw [hrun] at hfirst
    exact hfirst

end RewritesOnly

/-- **An edit of a descriptor** goes to the file that was read. -/
theorem rewritesOnly_editFile (pom : Path) (edit : Style → Xml.Node → Except Failure Xml.Node) :
    RewritesOnly pom (editFile pom edit) := by
  intro disk
  cases hplace : disk.files.resolve pom with
  | error problem =>
    have htext : disk.files.readText pom = .error (.file problem) := by
      rw [Files.readText, Files.content_of_unresolved hplace]
    have hread : readDescriptor pom disk = .error (.file problem) disk := by
      unfold readDescriptor Disk.reading
      dsimp only
      rw [htext]
      rfl
    show Files.Rewrites pom disk.files (diskOf (EStateM.bind (readDescriptor pom) _ disk)).files
    unfold EStateM.bind
    rw [hread]
    exact Files.Rewrites.refl pom disk.files
  | ok place =>
    rw [editFile_eq hplace]
    cases htext : Files.textAt (disk.files.get? place) with
    | error failure => exact Files.Rewrites.refl pom disk.files
    | ok text =>
      obtain ⟨old, hold⟩ := Files.exists_file_of_textAt htext
      unfold Except.bind
      dsimp only
      cases rewritten edit disk.register text with
      | error failure => exact Files.Rewrites.refl pom disk.files
      | ok written => exact Files.rewrites_put hplace hold _

/-! ## Calls -/

/-- A call that edits a descriptor. -/
inductive Mutation
  | pin (source : Path)
  | edit (fileEdit : FileEdit)
  deriving DecidableEq, Repr

/-- The call made for the descriptor at a path. -/
def Mutation.perform (pom : Path) : Mutation → Disk.Action Unit
  | pin source => do
    let _ ← pinFile pom source
  | edit fileEdit => fileEdit.perform pom

/-- The disk after calls for the descriptor at a path, whether they fail or not. -/
def mutated (pom : Path) (mutations : List Mutation) (disk : Disk) : Disk :=
  mutations.foldl (fun disk mutation => diskOf (mutation.perform pom disk)) disk

theorem rewritesOnly_readVersion (pom source : Path) : RewritesOnly pom (readVersion source) := by
  refine (RewritesOnly.reading pom _).bind fun descriptor => ?_
  split
  · exact .pure pom _
  · exact .throw pom _

/-- **One call.** -/
theorem Mutation.rewritesOnly (pom : Path) (mutation : Mutation) :
    RewritesOnly pom (mutation.perform pom) := by
  cases mutation with
  | pin source =>
    refine RewritesOnly.bind ?_ fun _ => .pure pom ()
    exact (rewritesOnly_readVersion pom source).bind fun version =>
      (rewritesOnly_editFile pom _).bind fun _ => .pure pom version
  | edit fileEdit =>
    cases fileEdit with
    | dependency group artifact version =>
      exact rewritesOnly_editFile pom fun style root =>
        .ok (insertDependency group artifact version style root)
    | configuration key value template =>
      exact (RewritesOnly.reading pom (stampedFragment key value template)).bind fun fragment =>
        rewritesOnly_editFile pom (configureRoot pom fragment)

/-- **Any number of calls** change nothing but the content of the file the descriptor leads to. -/
theorem mutated_rewrites (pom : Path) (mutations : List Mutation) :
    ∀ disk, Files.Rewrites pom disk.files (mutated pom mutations disk).files := by
  induction mutations with
  | nil => exact fun disk => Files.Rewrites.refl pom disk.files
  | cons mutation rest ih => exact fun disk => (mutation.rewritesOnly pom disk).trans (ih _)

/-! ## Where links lead -/

/-- The target of a link leads out of the directory that the link is in. -/
def Outward (target : String) : Prop :=
  (Path.read target).anchor ≠ .working ∨ ∃ names, (Path.read target).parts = ".." :: names

namespace Files

variable {files : Files} {parent home place : Path} {name name' file target : String}

/-- Two dots lead to the directory above. -/
theorem walk_up (h : isTop place = false) (followLast : Bool) (links : Nat) (names : List String) :
    files.walk followLast links place (".." :: names)
      = files.walk followLast links place.parent names := by
  obtain ⟨onLink, hwalk⟩ := exists_walkNames files followLast links
  rw [hwalk, walkNames, if_pos (by decide), above, h]
  rfl

/-- A link at the end is followed, from the directory it is in or from where its target starts. -/
theorem walk_link (hname : name ≠ "..") (h : files.get? (place.below name) = some (.link target))
    (links : Nat) :
    files.walk true links place [name] =
      match links with
      | 0 => .error .other
      | links + 1 =>
        files.walk true links
          (if (Path.read target).anchor = .working then place else ⟨(Path.read target).anchor, []⟩)
          (Path.read target).parts := by
  have hdown : ¬ (name == "..") = true := by simpa using hname
  cases links with
  | zero =>
    rw [walk, walkNames, if_neg hdown]
    dsimp only
    rw [h]
    rfl
  | succ links =>
    rw [walk, walkNames, if_neg hdown]
    dsimp only
    rw [h]
    dsimp only
    rw [List.append_nil]
    rfl

/-- **A link out of its directory** leads to the same place from every directory next to it. -/
theorem resolve_of_outward (hways : files.Leads parent home)
    (hname : name ≠ "..") (hdir : files.get? (home.below name) = some .dir)
    (hname' : name' ≠ "..") (hdir' : files.get? (home.below name') = some .dir)
    (hfile : file ≠ "..") (hout : Outward target)
    (hlink : files.get? ((home.below name).below file) = some (.link target))
    (hlink' : files.get? ((home.below name').below file) = some (.link target)) :
    files.resolve ((parent.below name).below file)
      = files.resolve ((parent.below name').below file) := by
  obtain ⟨links, hlinks⟩ := hways
  have hway : ∀ name, name ≠ ".." → files.get? (home.below name) = some .dir →
      files.resolve ((parent.below name).below file)
        = files.walk true links (home.below name) [file] := by
    intro name hname hdir
    rw [← walk_of_dir hname hdir, ← hlinks true [name, file] (List.cons_ne_nil _ _), resolve]
    simp [Path.below]
  rw [hway name hname hdir, hway name' hname' hdir', walk_link hfile hlink, walk_link hfile hlink']
  cases links with
  | zero => rfl
  | succ links =>
    dsimp only
    by_cases hanchor : (Path.read target).anchor = .working
    · obtain ⟨names, hnames⟩ := hout.resolve_left (not_not.mpr hanchor)
      rw [if_pos hanchor, if_pos hanchor, hnames, walk_up (Path.not_isTop_below home hname),
        walk_up (Path.not_isTop_below home hname'), Path.below_parent, Path.below_parent]
    · rw [if_neg hanchor, if_neg hanchor]

end Files

/-! ## Copies -/

section Copies

variable {disk : Disk} {parent home : Path} {name testClass method : String}
  (hways : disk.files.Apart (copyPath (home.below name) testClass method) parent home)
  (hname : name ≠ "..") (hdir : disk.files.get? (home.below name) = some .dir)
  (hstale : disk.files.Replaceable (copyPath (home.below name) testClass method))

section Leads

variable {files : Files}
  (hsame : disk.files.SameOutside ((copyPath (home.below name) testClass method).contains ·) files)
  (hcopy : ∀ names, files.get? ((copyPath (home.below name) testClass method).descend names)
    = disk.files.get? ((home.below name).descend names))

include hways hdir hsame hcopy

/-- A descriptor that is no link leads to the copy's own file. -/
theorem resolve_copy_of_file
    (hlink : ∀ target, disk.files.get? ((home.below name).below pomName) ≠ some (.link target)) :
    files.resolve ((copyPath (parent.below name) testClass method).below pomName)
      = .ok ((copyPath (home.below name) testClass method).below pomName) := by
  have htop := hcopy []
  have hpom : files.get? ((copyPath (home.below name) testClass method).below pomName) = _ :=
    hcopy [pomName]
  rw [Path.descend_nil, Path.descend_nil, hdir] at htop
  rw [copyPath_below] at htop hpom ⊢
  rw [copyPath_below]
  exact ((hways files hsame).below (copyName_ne ..).2 htop).resolve (by decide) (hpom ▸ hlink)

include hname

/-- A descriptor that is a link out of the template leads where the template's leads. -/
theorem resolve_copy_of_outward {target : String}
    (hlink : disk.files.get? ((home.below name).below pomName) = some (.link target))
    (hout : Outward target) :
    files.resolve ((copyPath (parent.below name) testClass method).below pomName)
      = files.resolve ((parent.below name).below pomName) := by
  have hne := (copyName_ne name testClass method).1
  have htop := hcopy []
  have hpom : files.get? ((copyPath (home.below name) testClass method).below pomName) = _ :=
    hcopy [pomName]
  rw [copyPath_below] at hsame htop hpom ⊢
  have hsource := hsame.sibling hne []
  have hpom' : files.get? ((home.below name).below pomName) = _ := hsame.sibling hne [pomName]
  rw [Path.descend_nil, Path.descend_nil, hdir] at htop
  rw [Path.descend_nil, hdir] at hsource
  have hleads := hways files (by rwa [copyPath_below])
  exact Files.resolve_of_outward hleads (copyName_ne ..).2 htop hname hsource (by decide) hout
    (hpom.trans hlink) (hpom'.trans hlink)

end Leads

include hways hname hdir hstale

/-- **Without links** in the template and in another directory next to the copy, be it the template
itself or the copy of another test, nothing that is read through that directory changes. -/
theorem provided_reads_of_linkless
    (hlinkless : ∀ names target,
      disk.files.get? ((home.below name).descend names) ≠ some (.link target)) :
    ∃ files,
      provide (parent.below name) testClass method disk = .ok () { disk with files := files } ∧
      ∀ mutations, ∀ other ≠ copyName name testClass method, other ≠ ".." →
        disk.files.get? (home.below other) = some .dir →
        (∀ names target,
          disk.files.get? ((home.below other).descend names) ≠ some (.link target)) →
        ∀ names ≠ [], ".." ∉ names →
          (mutated ((copyPath (parent.below name) testClass method).below pomName) mutations
              { disk with files := files }).files.content ((parent.below other).descend names)
            = files.content ((parent.below other).descend names) := by
  obtain ⟨files, hrun, hsame, hcopy⟩ := provide_run hways hname hdir hstale
  refine ⟨files, hrun, fun mutations other hne hup hother hlinks names hnames hdown => ?_⟩
  have hrewrites := mutated_rewrites ((copyPath (parent.below name) testClass method).below pomName)
    mutations { disk with files := files }
  refine (hrewrites.content_eq_iff _).mpr (.inr fun hshared => ?_)
  rw [show ({ disk with files := files } : Disk).files = files from rfl,
    resolve_copy_of_file hways hdir hsame hcopy (hlinkless [pomName])] at hshared
  rw [copyPath_below] at hsame hshared
  have hkept := fun names => hsame.sibling (Ne.symm hne) names
  -- a path through the other directory stays in it
  have htop := hkept []
  rw [Path.descend_nil, hother] at htop
  have hleads := (hways files (by rwa [copyPath_below])).below hup htop
  have hplace := hleads.eq_descend (fun names => by rw [hkept]; exact hlinks names) hnames hdown
    hshared
  have hinside : (home.below other).contains
      ((home.below (copyName name testClass method)).below pomName) = false :=
    Path.not_contains_sibling hne [pomName]
  rw [hplace, Path.contains_descend] at hinside
  cases hinside

/-- **What edits of a copy reach.** A fresh copy has what its template has, links as links. Whatever
links there are, a file that is read through any path stays as it is under calls for the descriptor
of the copy just when the descriptor does, or when the path leads elsewhere than the descriptor. A
descriptor that is no link leads to the copy's own file; one that is a link out of the template
leads where the template's leads. -/
theorem provided_reads_iff : ∃ files,
    provide (parent.below name) testClass method disk = .ok () { disk with files := files } ∧
      (∀ names, files.get? ((copyPath (home.below name) testClass method).descend names)
        = disk.files.get? ((home.below name).descend names)) ∧
      let pom := (copyPath (parent.below name) testClass method).below pomName
      (∀ mutations path,
        let after := (mutated pom mutations { disk with files := files }).files
        after.content path = files.content path ↔
          after.content pom = files.content pom ∨ files.resolve path ≠ files.resolve pom) ∧
      ((∀ target, disk.files.get? ((home.below name).below pomName) ≠ some (.link target)) →
        files.resolve pom
          = .ok ((copyPath (home.below name) testClass method).below pomName)) ∧
      ∀ target, disk.files.get? ((home.below name).below pomName) = some (.link target) →
        Outward target →
        files.resolve pom = files.resolve ((parent.below name).below pomName) := by
  obtain ⟨files, hrun, hsame, hcopy⟩ := provide_run hways hname hdir hstale
  exact ⟨files, hrun, hcopy,
    fun mutations => (mutated_rewrites _ mutations { disk with files := files }).content_eq_iff,
    resolve_copy_of_file hways hdir hsame hcopy,
    fun target => resolve_copy_of_outward hways hname hdir hsame hcopy⟩

end Copies

/-- A template whose descriptor is a link to a file next to the template. -/
def sharedDisk : Disk where
  files :=
    ⟨[(⟨.working, ["work"]⟩, .dir), (⟨.working, ["work", "demo"]⟩, .dir),
      (⟨.working, ["work", "demo", "pom.xml"]⟩, .link "../shared.xml"),
      (⟨.working, ["work", "shared.xml"]⟩, .file (.text "<project/>"))]⟩
  register := Xml.Prefixes.standard

/-- A dependency added to the copy is read through the template. -/
theorem provided_reads_iff_sharedDisk : ∃ files,
    provide ⟨.working, ["work", "demo"]⟩ "A" "m" sharedDisk
      = .ok () { sharedDisk with files := files } ∧
    (mutated ⟨.working, ["work", "demo_A_m", "pom.xml"]⟩ [.edit (.dependency "g" "a" "1")]
        { sharedDisk with files := files }).files.content ⟨.working, ["work", "demo", "pom.xml"]⟩
      ≠ files.content ⟨.working, ["work", "demo", "pom.xml"]⟩ := by
  have hplace : copyPath (Path.below ⟨.working, ["work"]⟩ "demo") "A" "m"
      = ⟨.working, ["work", "demo_A_m"]⟩ := by
    decide +kernel
  have hways : sharedDisk.files.Apart (copyPath (Path.below ⟨.working, ["work"]⟩ "demo") "A" "m")
      ⟨.working, ["work"]⟩ ⟨.working, ["work"]⟩ := by
    intro other hother
    rw [hplace] at hother
    have hwork : other.get? ⟨.working, ["work"]⟩ = some .dir :=
      (hother _ (by decide)).trans (by decide)
    exact (Files.leads_start other .working).below (by decide) hwork
  have hstale : sharedDisk.files.Replaceable
      (copyPath (Path.below ⟨.working, ["work"]⟩ "demo") "A" "m") := by
    rw [hplace]
    exact .inr fun names => Files.get?_descend_eq_none (by decide) names
      (Path.not_isTop_descend ⟨.working, ["work"]⟩ (by decide) names)
  obtain ⟨files, hrun, -, hreads, -, hout⟩ :=
    provided_reads_iff hways (by decide) (by decide +kernel) hstale
  have hshared := hout "../shared.xml" (by decide +kernel)
    (.inr ⟨["shared.xml"], by decide +kernel⟩)
  have hprovided :
      (diskOf (provide ⟨.working, ["work", "demo"]⟩ "A" "m" sharedDisk)).files = files :=
    congrArg (fun result => (diskOf result).files) hrun
  -- the copy's descriptor changes, and the template's leads to the same file
  have hchanged : (mutated ⟨.working, ["work", "demo_A_m", "pom.xml"]⟩
        [.edit (.dependency "g" "a" "1")] { sharedDisk with files := files }).files.content
          ⟨.working, ["work", "demo_A_m", "pom.xml"]⟩
      ≠ files.content ⟨.working, ["work", "demo_A_m", "pom.xml"]⟩ := by
    rw [← hprovided]
    decide +kernel
  rw [hplace] at hreads hshared
  refine ⟨files, hrun, fun hsame => ?_⟩
  exact ((hreads _ _).mp hsame).elim hchanged fun hne => hne hshared.symm

end Rollout
