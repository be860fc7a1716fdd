import Mathlib.Data.List.Nodup

/-!
# Entries looked up by their keys

The outcomes of requests, the members of objects and the data of config maps are lists of entries,
of which the first one with a key counts.

- `lookup_cons_eq_ite`, `lookup_eq_none_iff_notMem`: a lookup by equality of keys.
- `lookup_of_mem_nodup`: every entry is found where no key comes twice.
- `lookup_or_eq_iff`: when nothing shows of the entries behind others.
-/

namespace Rollout

variable {β : Type}

theorem lookup_cons_eq_ite (entry : String × β) (entries : List (String × β)) (key : String) :
    (entry :: entries).lookup key = if key = entry.1 then some entry.2 else entries.lookup key := by
  rw [List.lookup_cons]
  by_cases h : key = entry.1
  · rw [if_pos h, beq_iff_eq.mpr h]
  · rw [if_neg h, beq_eq_false_iff_ne.mpr h]

theorem lookup_eq_none_iff_notMem (entries : List (String × β)) (key : String) :
    entries.lookup key = none ↔ key ∉ entries.map Prod.fst := by
  rw [List.lookup_eq_none_iff, List.mem_map]
  constructor
  · rintro h ⟨entry, hentry, rfl⟩
    exact absurd (h entry hentry) (by simp)
  · intro h entry hentry
    exact bne_iff_ne.mpr fun hkey => h ⟨entry, hentry, hkey.symm⟩

/-- Every entry is found where no key comes twice. -/
theorem lookup_of_mem_nodup {entries : List (String × β)} {entry : String × β}
    (hkeys : (entries.map Prod.fst).Nodup) (h : entry ∈ entries) :
    entries.lookup entry.1 = some entry.2 := by
  induction entries with
  | nil => cases h
  | cons head rest ih =>
    obtain ⟨hnew, hrest⟩ := List.nodup_cons.mp hkeys
    rw [lookup_cons_eq_ite]
    rcases List.mem_cons.mp h with rfl | hlater
    · rw [if_pos rfl]
    · have hne : entry.1 ≠ head.1 := fun h => hnew (h ▸ List.mem_map_of_mem hlater)
      rw [if_neg hne, ih hrest hlater]

/-- Nothing shows of the entries behind others just when none of their keys is new. -/
theorem lookup_or_eq_iff (first second : List (String × β)) :
    (∀ key, (first.lookup key).or (second.lookup key) = first.lookup key) ↔
      ∀ entry ∈ second, entry.1 ∈ first.map Prod.fst := by
  constructor
  · intro h entry hentry
    refine Decidable.byContradiction fun hnew => ?_
    have hshown := h entry.1
    rw [(lookup_eq_none_iff_notMem first entry.1).mpr hnew, Option.none_or] at hshown
    exact (lookup_eq_none_iff_notMem second entry.1).mp hshown (List.mem_map_of_mem hentry)
  · intro h key
    cases hfirst : first.lookup key with
    | some value => rfl
    | none =>
      rw [Option.none_or, lookup_eq_none_iff_notMem]
      intro hsecond
      obtain ⟨entry, hentry, rfl⟩ := List.mem_map.mp hsecond
      exact (lookup_eq_none_iff_notMem first entry.1).mp hfirst (h entry hentry)

end Rollout
