import Mathlib.Data.List.Basic
import Rollout.Files.Tree

/-!
# Places

- `Path.eq_below`: a place that has a name is in the directory above it.
- `Path.contains_sibling_iff`: of the places in one directory, none is inside another one.
- `Path.descend`: the place that names lead to without links; `Path.contains_iff_descend`: what is
  inside a place is below it.
-/

namespace Rollout

namespace Path

/-! ## Names and directories -/

@[simp] theorem below_parent (place : Path) (name : String) :
    (place.below name).parent = place := by
  simp [below, parent]

@[simp] theorem below_name (place : Path) (name : String) : (place.below name).name = name := by
  simp [below, Path.name]

/-- A place that has a name is in the directory above it. -/
theorem eq_below {place : Path} (h : place.parts ≠ []) : place = place.parent.below place.name := by
  have hname : place.name = place.parts.getLast h := by
    rw [Path.name, List.getLast?_eq_some_getLast h, Option.getD_some]
  rw [below, parent, hname]
  dsimp only
  rw [List.dropLast_append_getLast h]

theorem below_inj {place other : Path} {name name' : String} :
    place.below name = other.below name' ↔ place = other ∧ name = name' := by
  constructor
  · intro h
    have hparent := congrArg parent h
    have hname := congrArg Path.name h
    rw [below_parent, below_parent] at hparent
    rw [below_name, below_name] at hname
    exact ⟨hparent, hname⟩
  · rintro ⟨rfl, rfl⟩
    rfl

/-! ## Inside -/

theorem contains_iff {place other : Path} :
    place.contains other = true ↔ place.anchor = other.anchor ∧ place.parts <+: other.parts := by
  rw [contains, Bool.and_eq_true, List.isPrefixOf_iff_prefix, beq_iff_eq]

theorem contains_self (place : Path) : place.contains place = true :=
  contains_iff.mpr ⟨rfl, List.prefix_rfl⟩

/-- Of the places in one directory, none is inside another one. -/
theorem contains_sibling_iff {place : Path} {name name' : String} :
    (place.below name).contains (place.below name') = true ↔ name = name' := by
  rw [contains_iff]
  constructor
  · rintro ⟨-, hpart⟩
    have hlast := (List.prefix_append_right_inj _).mp hpart
    exact List.singleton_inj.mp (hlast.eq_of_length rfl)
  · rintro rfl
    exact ⟨rfl, List.prefix_rfl⟩

/-! ## Below -/

/-- The place that names lead to from the directory at this place, without links. -/
def descend (place : Path) (names : List String) : Path :=
  ⟨place.anchor, place.parts ++ names⟩

@[simp] theorem descend_nil (place : Path) : place.descend [] = place := by
  simp [descend]

@[simp] theorem descend_inj {place : Path} {names names' : List String} :
    place.descend names = place.descend names' ↔ names = names' := by
  simp [descend]

/-- What is inside a place is below it. -/
theorem contains_iff_descend {place other : Path} :
    place.contains other = true ↔ ∃ names, other = place.descend names := by
  rw [contains_iff]
  constructor
  · rintro ⟨hanchor, names, hnames⟩
    obtain ⟨anchor, parts⟩ := other
    dsimp only at hanchor hnames
    exact ⟨names, by rw [descend, hanchor, hnames]⟩
  · rintro ⟨names, rfl⟩
    exact ⟨rfl, List.prefix_append ..⟩

theorem contains_descend (place : Path) (names : List String) :
    place.contains (place.descend names) = true :=
  contains_iff_descend.mpr ⟨names, rfl⟩

@[simp] theorem moved_descend (source target : Path) (names : List String) :
    source.moved target (source.descend names) = target.descend names := by
  simp [moved, descend]

/-- Nothing is inside two places in one directory. -/
theorem not_contains_sibling {place : Path} {name name' : String} (hne : name ≠ name')
    (names : List String) :
    (place.below name).contains ((place.below name').descend names) = false := by
  rw [Bool.eq_false_iff]
  intro hinside
  obtain ⟨names', hnames⟩ := contains_iff_descend.mp hinside
  have hparts : place.parts ++ ([name'] ++ names) = place.parts ++ ([name] ++ names') := by
    rw [← List.append_assoc, ← List.append_assoc]
    exact congrArg Path.parts hnames
  exact hne (List.cons.inj (List.append_cancel_left hparts)).1.symm

end Path

end Rollout
