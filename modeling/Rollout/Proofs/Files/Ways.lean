import Rollout.Proofs.Files.Entries

/-!
# Where paths lead

A path leads to a place over directories and links. As long as nothing on the way changes, it goes
on leading there, whatever happens elsewhere.

- `Files.SameOutside`: two trees of files that are the same outside some places.
- `Files.Leads`: names behind a path are looked for from a place on.
- `Files.Leads.resolve`: where a name behind such a path leads.
-/

namespace Rollout

namespace Files

variable {files other third : Files} {inside : Path → Prop}

/-! ## The same outside -/

/-- Two trees of files that are the same outside some places. -/
def SameOutside (inside : Path → Prop) (files other : Files) : Prop :=
  ∀ place, ¬ inside place → other.get? place = files.get? place

theorem SameOutside.refl (files : Files) : files.SameOutside inside files := fun _ _ => rfl

theorem SameOutside.trans (h : files.SameOutside inside other)
    (h' : other.SameOutside inside third) : files.SameOutside inside third :=
  fun place hplace => (h' place hplace).trans (h place hplace)

theorem sameOutside_put {place : Path} (h : inside place) (files : Files) (entry : Entry) :
    files.SameOutside inside (files.put place entry) := by
  intro other hother
  refine get?_put_of_ne ?_ entry
  rintro rfl
  exact hother h

/-- Nothing changes in another directory next to the place. -/
theorem SameOutside.sibling {home : Path} {name name' : String}
    (h : files.SameOutside ((home.below name).contains ·) other) (hne : name ≠ name')
    (names : List String) :
    other.get? ((home.below name').descend names) = files.get? ((home.below name').descend names) :=
  h _ (Bool.eq_false_iff.mp (Path.not_contains_sibling hne names))

/-! ## Ways -/

/-- What follows a path is looked for from the place on, with some of the links that may be followed
left. -/
def Leads (files : Files) (path place : Path) : Prop :=
  ∃ links, ∀ followLast, ∀ names ≠ [],
    files.walk followLast linkBudget ⟨path.anchor, []⟩ (path.parts ++ names)
      = files.walk followLast links place names

theorem leads_start (files : Files) (anchor : Anchor) : files.Leads ⟨anchor, []⟩ ⟨anchor, []⟩ :=
  ⟨linkBudget, fun _ _ _ => rfl⟩

section Ways

variable {path place : Path} {name : String}

theorem exists_walkNames (files : Files) (followLast : Bool) (links : Nat) :
    ∃ onLink, files.walk followLast links = files.walkNames followLast onLink := by
  cases links <;> exact ⟨_, rfl⟩

/-- A directory is gone into. -/
theorem walk_of_dir (hname : name ≠ "..") (h : files.get? (place.below name) = some .dir)
    (followLast : Bool) (links : Nat) (names : List String) :
    files.walk followLast links place (name :: names)
      = files.walk followLast links (place.below name) names := by
  have hdown : ¬ (name == "..") = true := by simpa using hname
  obtain ⟨onLink, hwalk⟩ := exists_walkNames files followLast links
  rw [hwalk, walkNames, if_neg hdown]
  dsimp only
  rw [h]

/-- The last name leads to where it is, unless there is a link. -/
theorem walk_last (hname : name ≠ "..")
    (h : ∀ target, files.get? (place.below name) ≠ some (.link target)) (followLast : Bool)
    (links : Nat) : files.walk followLast links place [name] = .ok (place.below name) := by
  have hdown : ¬ (name == "..") = true := by simpa using hname
  obtain ⟨onLink, hwalk⟩ := exists_walkNames files followLast links
  rw [hwalk, walkNames, if_neg hdown]
  dsimp only
  cases hentry : files.get? (place.below name) with
  | none => rfl
  | some entry =>
    cases entry with
    | link target => exact absurd hentry (h target)
    | _ => rfl

theorem Leads.below (h : files.Leads path place) (hname : name ≠ "..")
    (hdir : files.get? (place.below name) = some .dir) :
    files.Leads (path.below name) (place.below name) := by
  obtain ⟨links, hlinks⟩ := h
  refine ⟨links, fun followLast names _ => ?_⟩
  have hparts : (path.below name).parts ++ names = path.parts ++ (name :: names) :=
    List.append_assoc ..
  rw [hparts, ← walk_of_dir hname hdir]
  exact hlinks followLast (name :: names) (List.cons_ne_nil _ _)

/-- **A name behind a path** leads to where it is, unless there is a link. -/
theorem Leads.resolve (h : files.Leads path place) (hname : name ≠ "..")
    (hlink : ∀ target, files.get? (place.below name) ≠ some (.link target)) :
    files.resolve (path.below name) = .ok (place.below name) := by
  obtain ⟨links, hlinks⟩ := h
  exact (hlinks true [name] (List.cons_ne_nil _ _)).trans (walk_last hname hlink true links)

theorem Leads.resolveEntry (h : files.Leads path place) (hname : name ≠ "..")
    (hlink : ∀ target, files.get? (place.below name) ≠ some (.link target)) :
    files.resolveEntry (path.below name) = .ok (place.below name) := by
  obtain ⟨links, hlinks⟩ := h
  exact (hlinks false [name] (List.cons_ne_nil _ _)).trans (walk_last hname hlink false links)

/-- **A text elsewhere** is read as before. -/
theorem SameOutside.readText_eq (h : files.SameOutside inside other)
    (hfiles : files.Leads path place) (hother : other.Leads path place) (hname : name ≠ "..")
    (houtside : ¬ inside (place.below name))
    (hlink : ∀ target, files.get? (place.below name) ≠ some (.link target)) :
    other.readText (path.below name) = files.readText (path.below name) := by
  have hsame := h _ houtside
  rw [readText_of_resolve (hfiles.resolve hname hlink),
    readText_of_resolve (hother.resolve hname (hsame ▸ hlink)), hsame]

end Ways

end Files

end Rollout
