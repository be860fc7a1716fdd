import Mathlib.Data.List.Sort
import Mathlib.Data.Prod.Lex
import Mathlib.Data.String.Basic
import Rollout.Proofs.Cluster.Listing

/-!
# Pods newest first

The pods of a listing are sorted by the time of their creation and their names, which are compared
as texts.

- `Pod.key`, `Pod.NotOlder`: what pods are ordered by, and the order.
- `Pod.newestFirst_eq`: sorting pods is a **stable sort** by their keys.
- `Client.shown_newest`: **the pods of a listing** are those of its manifests, newest first.
- `observed_of_perm`: the order of the manifests does not matter where the keys differ.
-/

namespace Rollout

namespace Pod

/-- Time of creation and name are texts. -/
def Textual (pod : Pod) : Prop :=
  ∃ created name, pod.created = .str created ∧ pod.name = .str name

/-- What pods are ordered by: the time of creation, then the name. -/
def key (pod : Pod) : String ×ₗ String :=
  toLex (pod.created.text?.getD "", pod.name.text?.getD "")

/-- The first pod does not come behind the second: its key is not the smaller one. -/
def NotOlder (a b : Pod) : Prop :=
  b.key ≤ a.key

instance : DecidableRel NotOlder := fun a b => inferInstanceAs (Decidable (b.key ≤ a.key))

instance : Std.Total NotOlder := ⟨fun a b => le_total b.key a.key⟩

instance : IsTrans Pod NotOlder := ⟨fun _ _ _ hab hbc => le_trans hbc hab⟩

/-! ## The sort -/

/-- Pods are compared by their keys. -/
theorem less?_rank {a b : Pod} (ha : a.Textual) (hb : b.Textual) :
    a.rank.less? b.rank = some (decide (a.key < b.key)) := by
  obtain ⟨created, name, hcreated, hname⟩ := ha
  obtain ⟨created', name', hcreated', hname'⟩ := hb
  have hkey : a.key = toLex (created, name) := by
    unfold key
    rw [hcreated, hname]
    rfl
  have hkey' : b.key = toLex (created', name') := by
    unfold key
    rw [hcreated', hname']
    rfl
  have hprecedes : ∀ x y : String, Text.precedes x y = decide (x < y) := fun _ _ => rfl
  unfold rank
  rw [hkey, hkey', hcreated, hname, hcreated', hname']
  simp only [Json.less?, lessItems?, Json.same, hprecedes, beq_iff_eq, Prod.Lex.toLex_lt_toLex]
  by_cases heq : created = created'
  · rw [if_pos heq]
    by_cases heq' : name = name'
    · rw [if_pos heq']
      simp [heq, heq']
    · rw [if_neg heq']
      simp [heq]
  · rw [if_neg heq]
    simp [heq]

theorem insertByRank_eq {pod : Pod} {pods : List Pod} (hpod : pod.Textual)
    (hpods : ∀ other ∈ pods, other.Textual) :
    insertByRank pod pods = .ok (pods.orderedInsert NotOlder pod) := by
  induction pods with
  | nil => rfl
  | cons head rest ih =>
    obtain ⟨hhead, hrest⟩ := List.forall_mem_cons.mp hpods
    rw [insertByRank, less?_rank hpod hhead, List.orderedInsert_cons]
    by_cases hlt : pod.key < head.key
    · have hle : ¬ NotOlder pod head := not_le_of_gt hlt
      rw [decide_eq_true hlt, if_neg hle, ih hrest]
      rfl
    · have hle : NotOlder pod head := le_of_not_gt hlt
      rw [decide_eq_false hlt, if_pos hle]

/-- **Sorting pods** is a stable sort by their keys, the greatest first. -/
theorem newestFirst_eq {pods : List Pod} (h : ∀ pod ∈ pods, pod.Textual) :
    newestFirst pods = .ok (pods.insertionSort NotOlder) := by
  induction pods with
  | nil => rfl
  | cons pod rest ih =>
    obtain ⟨hpod, hrest⟩ := List.forall_mem_cons.mp h
    have hsorted : ∀ other ∈ rest.insertionSort NotOlder, other.Textual := fun other hother =>
      hrest other ((List.perm_insertionSort NotOlder rest).mem_iff.mp hother)
    rw [newestFirst, ih hrest]
    exact insertByRank_eq hpod hsorted

theorem perm_of_insertByRank {pod : Pod} {pods sorted : List Pod}
    (h : insertByRank pod pods = .ok sorted) : sorted.Perm (pod :: pods) := by
  induction pods generalizing sorted with
  | nil =>
    cases h
    exact List.Perm.refl _
  | cons head rest ih =>
    rw [insertByRank] at h
    cases hless : pod.rank.less? head.rank with
    | none =>
      rw [hless] at h
      cases h
    | some less =>
      rw [hless] at h
      cases less with
      | false =>
        cases h
        exact List.Perm.refl _
      | true =>
        cases hinserted : insertByRank pod rest with
        | error failure =>
          rw [hinserted] at h
          cases h
        | ok inserted =>
          rw [hinserted] at h
          cases h
          exact ((ih hinserted).cons head).trans (List.Perm.swap pod head rest)

/-- Sorting loses no pods and adds none. -/
theorem perm_of_newestFirst {pods sorted : List Pod} (h : newestFirst pods = .ok sorted) :
    sorted.Perm pods := by
  induction pods generalizing sorted with
  | nil =>
    cases h
    exact List.Perm.refl []
  | cons pod rest ih =>
    rw [newestFirst] at h
    cases hrest : newestFirst rest with
    | error failure =>
      rw [hrest] at h
      cases h
    | ok sortedRest =>
      rw [hrest] at h
      exact (perm_of_insertByRank h).trans ((ih hrest).cons pod)

variable {pods pods' : List Pod}

/-- Pods with one key keep their order. -/
theorem filter_insertionSort (pods : List Pod) (key : String ×ₗ String) :
    (pods.insertionSort NotOlder).filter (·.key = key) = pods.filter (·.key = key) := by
  have hpairwise : (pods.filter (·.key = key)).Pairwise NotOlder := by
    refine List.pairwise_of_forall_mem_list ?_
    intro a ha b hb
    have ha' : a.key = key := by simpa using List.of_mem_filter ha
    have hb' : b.key = key := by simpa using List.of_mem_filter hb
    exact le_of_eq (hb'.trans ha'.symm)
  have hsublist := List.sublist_insertionSort hpairwise List.filter_sublist
  have hlength := ((List.perm_insertionSort NotOlder pods).filter (·.key = key)).length_eq
  have hfilter := hsublist.filter (·.key = key)
  rw [List.filter_filter] at hfilter
  simp only [Bool.and_self] at hfilter
  exact (hfilter.eq_of_length hlength.symm).symm

/-- Where the keys differ, the order is strict. -/
theorem pairwise_gt_insertionSort (h : (pods.map key).Nodup) :
    (pods.insertionSort NotOlder).Pairwise fun a b => b.key < a.key := by
  have hperm := List.perm_insertionSort NotOlder pods
  have hne : (pods.insertionSort NotOlder).Pairwise fun a b => a.key ≠ b.key :=
    List.pairwise_map.mp ((hperm.map key).nodup_iff.mpr h)
  exact (List.pairwise_insertionSort NotOlder pods).imp₂
    (fun _ _ hle hne => lt_of_le_of_ne hle (Ne.symm hne)) hne

/-- Where the keys differ, the order before the sort does not matter. -/
theorem insertionSort_eq_of_perm (hperm : pods'.Perm pods) (h : (pods.map key).Nodup) :
    pods'.insertionSort NotOlder = pods.insertionSort NotOlder := by
  have hsorted := List.perm_insertionSort NotOlder pods
  have hsorted' := List.perm_insertionSort NotOlder pods'
  refine List.Perm.eq_of_pairwise ?_ (List.pairwise_insertionSort NotOlder pods')
    (List.pairwise_insertionSort NotOlder pods) (hsorted'.trans (hperm.trans hsorted.symm))
  intro a b ha hb hab hba
  have ha' : a ∈ pods := hperm.mem_iff.mp (hsorted'.mem_iff.mp ha)
  have hb' : b ∈ pods := hsorted.mem_iff.mp hb
  exact List.inj_on_of_nodup_map h ha' hb' (le_antisymm hba hab)

end Pod

/-! ## Listings -/

theorem mapM_cons_eq_ok {manifest : Json} {manifests : List Json} {pods : List Pod} :
    (manifest :: manifests).mapM Pod.ofManifest = .ok pods ↔
      ∃ pod rest, Pod.ofManifest manifest = .ok pod ∧ manifests.mapM Pod.ofManifest = .ok rest ∧
        pods = pod :: rest := by
  rw [List.mapM_cons]
  cases Pod.ofManifest manifest with
  | error failure => exact ⟨nofun, fun ⟨_, _, h, _⟩ => nomatch h⟩
  | ok pod =>
    cases manifests.mapM Pod.ofManifest with
    | error failure => exact ⟨nofun, fun ⟨_, _, _, h, _⟩ => nomatch h⟩
    | ok rest =>
      constructor
      · rintro ⟨⟩
        exact ⟨pod, rest, rfl, rfl, rfl⟩
      · rintro ⟨_, _, ⟨⟩, ⟨⟩, rfl⟩
        rfl

/-- Manifests in another order show the same pods in another order. -/
theorem exists_mapM_of_perm {manifests manifests' : List Json} (hperm : manifests.Perm manifests')
    {pods : List Pod} (h : manifests.mapM Pod.ofManifest = .ok pods) :
    ∃ pods', manifests'.mapM Pod.ofManifest = .ok pods' ∧ pods.Perm pods' := by
  induction hperm generalizing pods with
  | nil => exact ⟨pods, h, List.Perm.refl pods⟩
  | cons manifest _ ih =>
    obtain ⟨pod, rest, hpod, hrest, rfl⟩ := mapM_cons_eq_ok.mp h
    obtain ⟨rest', hrest', hperm⟩ := ih hrest
    exact ⟨pod :: rest', mapM_cons_eq_ok.mpr ⟨pod, rest', hpod, hrest', rfl⟩, hperm.cons pod⟩
  | swap first second manifests =>
    obtain ⟨pod, _, hpod, htail, rfl⟩ := mapM_cons_eq_ok.mp h
    obtain ⟨pod', rest, hpod', hrest, rfl⟩ := mapM_cons_eq_ok.mp htail
    exact ⟨pod' :: pod :: rest,
      mapM_cons_eq_ok.mpr ⟨pod', _, hpod', mapM_cons_eq_ok.mpr ⟨pod, rest, hpod, hrest, rfl⟩, rfl⟩,
      List.Perm.swap pod' pod rest⟩
  | trans _ _ ih ih' =>
    obtain ⟨middle, hmiddle, hperm⟩ := ih h
    obtain ⟨pods', hpods', hperm'⟩ := ih' hmiddle
    exact ⟨pods', hpods', hperm.trans hperm'⟩

theorem observed_eq {manifests : List Json} {pods : List Pod}
    (h : manifests.mapM Pod.ofManifest = .ok pods) (htextual : ∀ pod ∈ pods, pod.Textual) :
    observed manifests = .ok (pods.insertionSort Pod.NotOlder) := by
  unfold observed
  rw [h]
  exact Pod.newestFirst_eq htextual

/-- Manifests whose pods differ in their keys show the same in every order. -/
theorem observed_of_perm {manifests manifests' : List Json} (hperm : manifests.Perm manifests')
    {pods : List Pod} (h : manifests.mapM Pod.ofManifest = .ok pods)
    (htextual : ∀ pod ∈ pods, pod.Textual) (hkeys : (pods.map Pod.key).Nodup) :
    observed manifests' = observed manifests := by
  obtain ⟨pods', h', hpods⟩ := exists_mapM_of_perm hperm h
  have htextual' : ∀ pod ∈ pods', pod.Textual := fun pod hpod =>
    htextual pod (hpods.mem_iff.mpr hpod)
  rw [observed_eq h' htextual', observed_eq h htextual,
    Pod.insertionSort_eq_of_perm hpods.symm hkeys]

/-- **The pods of a listing** are those of its manifests, newest first. -/
theorem Client.shown_newest {client : Client} {space app : String} {world : World} {i : Nat}
    {pods : List Pod} (h : client.shown space app world i = .ok pods) :
    (∃ manifests unsorted, client.listed space app world i = .ok manifests ∧
      manifests.mapM Pod.ofManifest = .ok unsorted ∧ pods.Perm unsorted) ∧
    ((∀ pod ∈ pods, pod.Textual) → pods.Pairwise Pod.NotOlder) := by
  rw [Client.shown_eq] at h
  cases hlisted : client.listed space app world i with
  | error failure =>
    rw [hlisted] at h
    cases h
  | ok manifests =>
    have hobserved : observed manifests = .ok pods := by
      rw [hlisted] at h
      exact h
    unfold observed at hobserved
    cases hpods : manifests.mapM Pod.ofManifest with
    | error failure =>
      rw [hpods] at hobserved
      cases hobserved
    | ok unsorted =>
      have hsorted : Pod.newestFirst unsorted = .ok pods := by
        rw [hpods] at hobserved
        exact hobserved
      have hperm := Pod.perm_of_newestFirst hsorted
      refine ⟨⟨manifests, unsorted, rfl, hpods, hperm⟩, fun htextual => ?_⟩
      rw [Pod.newestFirst_eq fun pod hpod => htextual pod (hperm.mem_iff.mpr hpod)] at hsorted
      cases hsorted
      exact List.pairwise_insertionSort Pod.NotOlder unsorted

end Rollout
