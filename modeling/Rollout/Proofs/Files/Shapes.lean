import Rollout.Proofs.Files.Ways

/-!
# Ways past changed files

Where paths lead depends on directories and links, and not on what files contain.

- `Files.SameShape`: two trees of files that differ in the contents of files only.
- `Files.SameShape.resolve_eq`: **paths lead to the same places** in both.
- `Files.Rewrites`: one file rewritten; `Files.Rewrites.content_eq_iff` says **what paths give**
  then.
- `Files.Leads.eq_descend`: where a path through a directory without links leads.
-/

namespace Rollout

/-- What is at a place, without the content of a file. -/
def Entry.shape : Entry → Entry
  | .file _ => .file (.text "")
  | .link target => .link target
  | .dir => .dir

namespace Files

variable {files other third : Files} {path place : Path}

/-- Two trees of files that differ in the contents of files only. -/
def SameShape (files other : Files) : Prop :=
  ∀ place, (other.get? place).map Entry.shape = (files.get? place).map Entry.shape

theorem SameShape.refl (files : Files) : files.SameShape files := fun _ => rfl

theorem SameShape.trans (h : files.SameShape other) (h' : other.SameShape third) :
    files.SameShape third := fun place => (h' place).trans (h place)

theorem not_isTop_of_get? {entry : Entry} (h : files.get? place = some entry)
    (hdir : entry ≠ .dir) : isTop place = false := by
  rw [get?] at h
  split at h
  · exact absurd (Option.some.inj h).symm hdir
  · exact Bool.eq_false_iff.mpr ‹_›

/-- A file is given another content. -/
theorem sameShape_put {old : Content} (h : files.get? place = some (.file old))
    (content : Content) : files.SameShape (files.put place (.file content)) := by
  intro other
  by_cases hother : other = place
  · subst hother
    rw [get?_put_self files (not_isTop_of_get? h nofun), h]
    rfl
  · rw [get?_put_of_ne hother]

theorem SameShape.walkNames_eq (h : files.SameShape other) (followLast : Bool)
    (onLink : Path → String → List String → Except FileProblem Path) (names : List String) :
    ∀ place, other.walkNames followLast onLink place names
      = files.walkNames followLast onLink place names := by
  induction names with
  | nil => exact fun _ => rfl
  | cons name rest ih =>
    intro place
    have hnext := h (place.below name)
    rw [walkNames, walkNames]
    split
    · exact ih _
    · dsimp only
      cases hother : other.get? (place.below name) with
      | none =>
        rw [hother] at hnext
        rw [Option.map_eq_none_iff.mp hnext.symm]
      | some entry =>
        rw [hother] at hnext
        obtain ⟨entry', hfiles, hshape⟩ := Option.map_eq_some_iff.mp hnext.symm
        rw [hfiles]
        cases entry <;> cases entry' <;> cases hshape
        · rfl
        · rfl
        · exact ih _

theorem SameShape.walk_eq (h : files.SameShape other) (followLast : Bool) (links : Nat) :
    other.walk followLast links = files.walk followLast links := by
  induction links with
  | zero => exact funext fun place => funext fun names => h.walkNames_eq _ _ names place
  | succ links ih =>
    funext place names
    rw [walk, walk, ih]
    exact h.walkNames_eq _ _ names place

/-- **Paths lead to the same places** whatever files contain. -/
theorem SameShape.resolve_eq (h : files.SameShape other) (path : Path) :
    other.resolve path = files.resolve path := by
  rw [resolve, resolve, h.walk_eq]

/-! ## One file rewritten -/

/-- Two trees of files that are the same but for the content of the file that a path leads to. -/
structure Rewrites (path : Path) (files other : Files) : Prop where
  shape : files.SameShape other
  elsewhere : ∀ place, files.resolve path ≠ .ok place → other.get? place = files.get? place

theorem Rewrites.refl (path : Path) (files : Files) : files.Rewrites path files :=
  ⟨SameShape.refl files, fun _ _ => rfl⟩

theorem Rewrites.trans (h : Rewrites path files other) (h' : Rewrites path other third) :
    Rewrites path files third := by
  refine ⟨h.shape.trans h'.shape, fun place hplace => ?_⟩
  rw [h'.elsewhere place (by rwa [h.shape.resolve_eq]), h.elsewhere place hplace]

theorem rewrites_put (hplace : files.resolve path = .ok place) {old : Content}
    (hold : files.get? place = some (.file old)) (content : Content) :
    Rewrites path files (files.put place (.file content)) := by
  refine ⟨sameShape_put hold content, fun other hother => get?_put_of_ne ?_ _⟩
  rintro rfl
  exact hother hplace

/-- **Where one file was rewritten,** a path gives the same as before just when that file is the
same after all, or the path does not lead to it. -/
theorem Rewrites.content_eq_iff (h : Rewrites path files other) (read : Path) :
    other.content read = files.content read ↔
      other.content path = files.content path ∨ files.resolve read ≠ files.resolve path := by
  have hleads := h.shape.resolve_eq
  by_cases hread : files.resolve read = files.resolve path
  · rw [or_iff_left (not_not.mpr hread)]
    have hread' : other.resolve read = other.resolve path := by rw [hleads, hleads, hread]
    unfold content find
    rw [hread, hread']
  · refine iff_of_true ?_ (.inr hread)
    cases hplace : files.resolve read with
    | error problem =>
      rw [content_of_unresolved hplace, content_of_unresolved ((hleads read).trans hplace)]
    | ok place =>
      rw [content_of_resolve hplace, content_of_resolve ((hleads read).trans hplace),
        h.elsewhere place fun hpath => hread (hplace.trans hpath.symm)]

/-! ## Directories without links -/

/-- Below a directory without links, names that go down lead to their own place or nowhere. -/
theorem walk_linkless {names : List String} (hdown : ".." ∉ names)
    (hlinks : ∀ names target, files.get? (place.descend names) ≠ some (.link target))
    (followLast : Bool) (links : Nat) :
    (∃ problem, files.walk followLast links place names = .error problem) ∨
      files.walk followLast links place names = .ok (place.descend names) := by
  induction names generalizing place with
  | nil =>
    obtain ⟨onLink, hwalk⟩ := exists_walkNames files followLast links
    rw [hwalk, Path.descend_nil]
    exact .inr rfl
  | cons name rest ih =>
    obtain ⟨hname, hdown⟩ := not_or.mp fun h => hdown (List.mem_cons.mpr h)
    have hbelow : ∀ names, (place.below name).descend names = place.descend (name :: names) :=
      fun names => by simp [Path.below, Path.descend]
    have hstop : ¬ (name == "..") = true := by simpa using Ne.symm hname
    obtain ⟨onLink, hwalk⟩ := exists_walkNames files followLast links
    cases hentry : files.get? (place.below name) with
    | none =>
      rw [hwalk, walkNames, if_neg hstop]
      dsimp only
      rw [hentry]
      cases rest with
      | nil => exact .inr rfl
      | cons next rest => exact .inl ⟨.missing, rfl⟩
    | some entry =>
      cases entry with
      | dir =>
        rw [walk_of_dir (Ne.symm hname) hentry, ← hbelow]
        exact ih hdown fun names target => by
          rw [hbelow]
          exact hlinks (name :: names) target
      | link target => exact absurd hentry (hlinks [name] target)
      | file content =>
        rw [hwalk, walkNames, if_neg hstop]
        dsimp only
        rw [hentry]
        cases rest with
        | nil => exact .inr rfl
        | cons next rest => exact .inl ⟨.notDirectory, rfl⟩

/-- A path through a directory without links leads to the place of its names. -/
theorem Leads.eq_descend (h : files.Leads path place)
    (hlinks : ∀ names target, files.get? (place.descend names) ≠ some (.link target))
    {names : List String} (hnames : names ≠ []) (hdown : ".." ∉ names) {found : Path}
    (hfound : files.resolve (path.descend names) = .ok found) : found = place.descend names := by
  obtain ⟨links, hleads⟩ := h
  have hway : files.resolve (path.descend names) = files.walk true links place names :=
    hleads true names hnames
  rw [hway] at hfound
  rcases walk_linkless hdown hlinks true links with ⟨problem, hwalk⟩ | hwalk
  · rw [hwalk] at hfound
    cases hfound
  · exact Except.ok.inj (hfound.symm.trans hwalk)

end Files

end Rollout
