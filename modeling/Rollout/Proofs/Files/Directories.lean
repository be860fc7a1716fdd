import Mathlib.Data.List.Induction
import Rollout.Proofs.Files.Ways

/-!
# Directories on the way

A path in whose way there are no links and no files leads to its own place. Its directories can be
made where they are missing, and nothing else changes.

- `Files.Clear`, `Files.Standing`: a path whose directories may be missing, or are all there.
- `Files.Standing.leads`: such a path leads to its own place.
- `Files.walk_of_none`: no way goes on behind a place where nothing is.
- `Files.makeDirs_run`: **the directories of a path are made**.
-/

namespace Rollout

namespace Path

/-- What holds of the paths where paths start, and of a name behind any path it holds of, holds of
every path. -/
@[elab_as_elim] theorem induction_below {motive : Path → Prop}
    (top : ∀ anchor, motive ⟨anchor, []⟩)
    (below : ∀ path name, motive path → motive (path.below name)) : ∀ path, motive path := by
  rintro ⟨anchor, parts⟩
  induction parts using List.reverseRecOn with
  | nil => exact top anchor
  | append_singleton parts name ih => exact below ⟨anchor, parts⟩ name ih

@[simp] theorem descend_descend (place : Path) (names names' : List String) :
    (place.descend names).descend names' = place.descend (names ++ names') := by
  simp [descend]

theorem below_eq_descend (place : Path) (name : String) :
    place.below name = place.descend [name] := rfl

/-- What contains a place is that place or contains the directory it is in. -/
theorem contains_below_iff {place path : Path} {name : String} :
    place.contains (path.below name) = true ↔
      place.contains path = true ∨ place = path.below name := by
  rw [contains_iff, contains_iff, below, List.prefix_concat_iff]
  constructor
  · rintro ⟨hanchor, hparts | hparts⟩
    · exact .inr (Path.mk.injEq .. ▸ ⟨hanchor, hparts⟩)
    · exact .inl ⟨hanchor, hparts⟩
  · rintro (⟨hanchor, hparts⟩ | rfl)
    · exact ⟨hanchor, .inr hparts⟩
    · exact ⟨rfl, .inl rfl⟩

theorem not_contains_of_below (path : Path) (name : String) :
    ¬ (path.below name).contains path = true := by
  rw [contains_iff]
  rintro ⟨-, hparts⟩
  have hlength := hparts.length_le
  rw [below, List.length_append, List.length_singleton] at hlength
  omega

end Path

namespace Files

variable {files other : Files} {path place : Path} {name : String}

/-- What changes nothing but on the way to a path changes nothing but on the way to a name behind
it. -/
theorem SameOutside.below (h : files.SameOutside (·.contains path = true) other) (name : String) :
    files.SameOutside (·.contains (path.below name) = true) other :=
  fun place hplace => h place fun hin => hplace (Path.contains_below_iff.mpr (.inl hin))

theorem ne_link_of_free (h : files.get? place = none ∨ files.get? place = some .dir)
    (target : String) : files.get? place ≠ some (.link target) := by
  intro heq
  rw [heq] at h
  rcases h with h | h <;> cases h

/-! ## Directories that are there or missing -/

/-- What is on the way to a path, and at its place, is a directory or not there yet. -/
structure Clear (files : Files) (path : Path) : Prop where
  down : ".." ∉ path.parts
  free : ∀ place, place.contains path = true →
    files.get? place = none ∨ files.get? place = some .dir

/-- There are directories all the way to the place of a path. -/
structure Standing (files : Files) (path : Path) : Prop where
  down : ".." ∉ path.parts
  dirs : ∀ place, place.contains path = true → files.get? place = some .dir

theorem Standing.clear (h : files.Standing path) : files.Clear path :=
  ⟨h.down, fun place hplace => .inr (h.dirs place hplace)⟩

theorem down_below : ".." ∉ (path.below name).parts ↔ ".." ∉ path.parts ∧ name ≠ ".." := by
  simp [Path.below, eq_comm]

theorem standing_top (files : Files) (anchor : Anchor) : files.Standing ⟨anchor, []⟩ := by
  refine ⟨List.not_mem_nil, fun place hplace => ?_⟩
  have htop : place.parts = [] := List.prefix_nil.mp (Path.contains_iff.mp hplace).2
  simp [get?, isTop, htop]

theorem standing_below_iff : files.Standing (path.below name) ↔
    files.Standing path ∧ name ≠ ".." ∧ files.get? (path.below name) = some .dir := by
  constructor
  · rintro ⟨hdown, hdirs⟩
    obtain ⟨hpath, hname⟩ := down_below.mp hdown
    exact ⟨⟨hpath, fun place hplace => hdirs place (Path.contains_below_iff.mpr (.inl hplace))⟩,
      hname, hdirs _ (Path.contains_self _)⟩
  · rintro ⟨⟨hdown, hdirs⟩, hname, hdir⟩
    refine ⟨down_below.mpr ⟨hdown, hname⟩, fun place hplace => ?_⟩
    rcases Path.contains_below_iff.mp hplace with hplace | rfl
    · exact hdirs place hplace
    · exact hdir

theorem clear_below_iff : files.Clear (path.below name) ↔
    files.Clear path ∧ name ≠ ".." ∧
      (files.get? (path.below name) = none ∨ files.get? (path.below name) = some .dir) := by
  constructor
  · rintro ⟨hdown, hfree⟩
    obtain ⟨hpath, hname⟩ := down_below.mp hdown
    exact ⟨⟨hpath, fun place hplace => hfree place (Path.contains_below_iff.mpr (.inl hplace))⟩,
      hname, hfree _ (Path.contains_self _)⟩
  · rintro ⟨⟨hdown, hfree⟩, hname, hlast⟩
    refine ⟨down_below.mpr ⟨hdown, hname⟩, fun place hplace => ?_⟩
    rcases Path.contains_below_iff.mp hplace with hplace | rfl
    · exact hfree place hplace
    · exact hlast

theorem Standing.put_below (h : files.Standing path) (name : String) (entry : Entry) :
    (files.put (path.below name) entry).Standing path := by
  refine ⟨h.down, fun place hplace => ?_⟩
  have hne : place ≠ path.below name := by
    rintro rfl
    exact Path.not_contains_of_below path name hplace
  rw [get?_put_of_ne hne]
  exact h.dirs place hplace

/-- **A path whose directories are all there** leads to its own place. -/
theorem Standing.leads (h : files.Standing path) : files.Leads path path := by
  induction path using Path.induction_below with
  | top anchor => exact leads_start files anchor
  | below path name ih =>
    obtain ⟨hpath, hname, hdir⟩ := standing_below_iff.mp h
    exact (ih hpath).below hname hdir

/-- A way that passes a place where nothing is ends there. -/
theorem walk_of_none {front back : List String} (hdown : ".." ∉ front) (hback : back ≠ [])
    (hnone : files.get? (place.descend front) = none)
    (hfree : ∀ names, names <+: front → files.get? (place.descend names) = none ∨
      files.get? (place.descend names) = some .dir ∨ names = []) (hfront : front ≠ [])
    (followLast : Bool) (links : Nat) :
    files.walk followLast links place (front ++ back) = .error .missing := by
  induction front generalizing place with
  | nil => exact absurd rfl hfront
  | cons name front ih =>
    obtain ⟨hname, hdown⟩ := not_or.mp fun h => hdown (List.mem_cons.mpr h)
    have hfirst := hfree [name] ⟨front, rfl⟩
    rw [← Path.below_eq_descend] at hfirst
    rcases hfirst with hfirst | hfirst | hfirst
    · have hdown : ¬ (name == "..") = true := by simpa using Ne.symm hname
      obtain ⟨onLink, hwalk⟩ := exists_walkNames files followLast links
      rw [List.cons_append, hwalk, walkNames, if_neg hdown]
      dsimp only
      rw [hfirst]
      cases front with
      | nil => simp [hback]
      | cons next front => rfl
    · have hbelow : ∀ names, place.descend (name :: names) = (place.below name).descend names :=
        fun names => by rw [Path.below_eq_descend, Path.descend_descend]; rfl
      rw [List.cons_append, walk_of_dir (Ne.symm hname) hfirst]
      rw [hbelow] at hnone
      refine ih hdown hnone (fun names hnames => ?_) ?_
      · rcases hfree (name :: names) (List.cons_prefix_cons.mpr ⟨rfl, hnames⟩) with h | h | h
        · exact .inl (hbelow names ▸ h)
        · exact .inr (.inl (hbelow names ▸ h))
        · cases h
      · rintro rfl
        rw [Path.descend_nil, hfirst] at hnone
        cases hnone
    · cases hfirst

/-- **A missing directory** on the way, and nothing but directories before it: no name behind it is
found. -/
theorem Clear.walk_missing (h : files.Clear path) (hplace : place.contains path = true)
    (hnone : files.get? place = none) {names : List String} (hnames : names ≠ [])
    (followLast : Bool) :
    files.walk followLast linkBudget ⟨path.anchor, []⟩ (path.parts ++ names)
      = .error .missing := by
  obtain ⟨hanchor, rest, hparts⟩ := Path.contains_iff.mp hplace
  have hdescend : ∀ front, (⟨path.anchor, []⟩ : Path).descend front = ⟨path.anchor, front⟩ :=
    fun _ => rfl
  have hhere : (⟨path.anchor, place.parts⟩ : Path) = place := by
    rw [← hanchor]
  rw [← hparts, List.append_assoc]
  refine walk_of_none (fun hup => h.down ?_) (by simp [hnames]) ?_ (fun front hfront => ?_) ?_ _ _
  · rw [← hparts]
    exact List.mem_append_left _ hup
  · rw [hdescend, hhere, hnone]
  · rw [hdescend]
    rcases h.free ⟨path.anchor, front⟩
      (Path.contains_iff.mpr ⟨rfl, hfront.trans ⟨rest, hparts⟩⟩) with hfree | hfree
    · exact .inl hfree
    · exact .inr (.inl hfree)
  · intro htop
    simp [get?, isTop, htop] at hnone

/-! ## Directories made -/

theorem makeDirs_below (path : Path) (name : String) (files : Files) :
    makeDirs (path.below name) files
      = match ensureDir (path.below name) files with
        | .error .missing => do ensureDir (path.below name) (← makeDirs path files)
        | result => result := by
  have hpath : (⟨path.anchor, (name :: path.parts.reverse).reverse⟩ : Path) = path.below name := by
    simp [Path.below]
  have hparts : (path.below name).parts.reverse = name :: path.parts.reverse := by
    simp [Path.below]
  rw [makeDirs, hparts]
  show makeDirsFrom path.anchor _ files = _
  rw [makeDirsFrom, hpath]
  rfl

theorem ensureDir_of_missing (h : files.resolveEntry path = .error .missing) :
    ensureDir path files = .error .missing := by
  have hmake : makeDir path files = .error .missing := by
    rw [makeDir, h]
    rfl
  rw [ensureDir, hmake]

/-- A directory that is there is used as it is. -/
theorem ensureDir_of_dir (hentry : files.resolveEntry path = .ok place)
    (hplace : files.resolve path = .ok place) (hdir : files.get? place = some .dir) :
    ensureDir path files = .ok files := by
  have hmake : makeDir path files = .error .exists := by
    simp only [makeDir, hentry, hdir, bind, Except.bind]
  have hthere : files.isDir path = true := by
    rw [isDir, find_of_resolve hplace, hdir]
  rw [ensureDir, hmake]
  dsimp only
  rw [if_pos hthere]

/-- A directory in one that is there. -/
theorem exists_ensureDir (hpath : files.Standing path) (hname : name ≠ "..")
    (hfree : files.get? (path.below name) = none ∨ files.get? (path.below name) = some .dir) :
    ∃ made, ensureDir (path.below name) files = .ok made ∧ made.Standing (path.below name) ∧
      files.SameOutside (·.contains (path.below name) = true) made := by
  have hlink := ne_link_of_free hfree
  have hentry := hpath.leads.resolveEntry hname hlink
  rcases hfree with hnone | hdir
  · have hself := get?_put_self files (Path.not_isTop_below path hname) .dir
    refine ⟨files.put (path.below name) .dir, ?_,
      standing_below_iff.mpr ⟨hpath.put_below name .dir, hname, hself⟩,
      sameOutside_put (Path.contains_self _) files .dir⟩
    simp only [ensureDir, makeDir, hentry, hnone, bind, Except.bind]
  · exact ⟨files, ensureDir_of_dir hentry (hpath.leads.resolve hname hlink) hdir,
      standing_below_iff.mpr ⟨hpath, hname, hdir⟩, SameOutside.refl files⟩

/-- **The directories of a path are made** where they are missing, and nothing else changes. -/
theorem makeDirs_run (h : files.Clear path) :
    ∃ made, makeDirs path files = .ok made ∧ made.Standing path ∧
      files.SameOutside (·.contains path = true) made := by
  induction path using Path.induction_below with
  | top anchor =>
    have hstanding := standing_top files anchor
    have hdir : files.get? ⟨anchor, []⟩ = some .dir := hstanding.dirs _ (Path.contains_self _)
    have hmade : ensureDir ⟨anchor, []⟩ files = .ok files := ensureDir_of_dir rfl rfl hdir
    exact ⟨files, hmade, hstanding, SameOutside.refl files⟩
  | below path name ih =>
    obtain ⟨hpath, hname, hfree⟩ := clear_below_iff.mp h
    rw [makeDirs_below]
    by_cases hstanding : files.Standing path
    · obtain ⟨made, hmade, hmore⟩ := exists_ensureDir hstanding hname hfree
      exact ⟨made, by rw [hmade], hmore⟩
    · -- the first attempt fails at a missing directory; the second one is made behind all of them
      have hmissing : ∃ place, place.contains path = true ∧ files.get? place = none := by
        by_contra hnone
        refine hstanding ⟨hpath.down, fun place hplace => ?_⟩
        exact (hpath.free place hplace).resolve_left fun h => hnone ⟨place, hplace, h⟩
      obtain ⟨place, hplace, hnone⟩ := hmissing
      have hfirst : ensureDir (path.below name) files = .error .missing :=
        ensureDir_of_missing (hpath.walk_missing hplace hnone (List.cons_ne_nil name []) false)
      obtain ⟨made, hmade, hthere, hsame⟩ := ih hpath
      have hkept := hsame _ (Path.not_contains_of_below path name)
      obtain ⟨made', hmade', hthere', hsame'⟩ := exists_ensureDir hthere hname (hkept ▸ hfree)
      refine ⟨made', ?_, hthere', (hsame.below name).trans hsame'⟩
      rw [hfirst]
      dsimp only
      rw [hmade]
      exact hmade'

end Files

end Rollout
