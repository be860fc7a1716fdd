import Rollout.Proofs.Cluster.Moment
import Rollout.Proofs.Cluster.Poll

/-!
# The order of pods

The cluster lists pods in an order of its own. A wait looks at them newest first, so that the pod it
finds does not depend on that order.

- `Chosen`: the pod with the greatest key among those that suit.
- `shown_order`: **the pods that are shown**, and the one that is chosen, for every order of the
  manifests.
- `waitFor_outcome_of_reordered`: what a whole wait gives does not depend on the order of its
  listings.
-/

namespace Rollout

/-! ## What is shown and chosen -/

/-- The pod that is looked for: of those that suit, one with the greatest key. -/
def Chosen (wanted : Wanted) (pods : List Pod) : Option Pod → Prop
  | none => ∀ pod ∈ pods, ¬ Suits wanted pod
  | some pod => pod ∈ pods ∧ Suits wanted pod ∧
    ∀ other ∈ pods, Suits wanted other → other.key ≤ pod.key

section Chosen

variable {wanted : Wanted} {pods sorted : List Pod}

/-- The first pod that suits in sorted pods is chosen. -/
theorem chosen_find? (hperm : sorted.Perm pods) (hsorted : sorted.Pairwise Pod.NotOlder) :
    Chosen wanted pods (sorted.find? fun pod => Suits wanted pod) := by
  cases hfind : sorted.find? fun pod => Suits wanted pod with
  | none =>
    intro pod hpod
    have hnot := List.find?_eq_none.mp hfind pod (hperm.mem_iff.mpr hpod)
    simpa using hnot
  | some pod =>
    obtain ⟨hsuits, front, back, hsplit, hfront⟩ := List.find?_eq_some_iff_append.mp hfind
    refine ⟨hperm.mem_iff.mp (List.mem_of_find?_eq_some hfind), by simpa using hsuits, ?_⟩
    intro other hother hother'
    have hmem : other ∈ front ++ pod :: back := hsplit ▸ hperm.mem_iff.mpr hother
    rw [hsplit, List.pairwise_append, List.pairwise_cons] at hsorted
    rcases List.mem_append.mp hmem with hmem | hmem
    · have hnot := hfront other hmem
      simp [hother'] at hnot
    · rcases List.mem_cons.mp hmem with rfl | hmem
      · exact le_refl _
      · exact hsorted.2.1.1 other hmem

/-- Where the times of creation are moments, no pod that suits is younger than the chosen one. -/
theorem Chosen.not_younger {pod other : Pod} (h : Chosen wanted pods (some pod))
    (hother : other ∈ pods) (hsuits : Suits wanted other) {moment moment' : Moment}
    (hcreated : pod.created = .str moment.text) (hcreated' : other.created = .str moment'.text) :
    ¬ moment < moment' := by
  intro hlt
  have hle : other.key ≤ pod.key := h.2.2 other hother hsuits
  have hkey : pod.key < other.key := by
    refine Prod.Lex.toLex_lt_toLex.mpr (Or.inl ?_)
    rw [hcreated, hcreated']
    exact Moment.text_lt_text.mpr hlt
  exact absurd hle (not_le_of_gt hkey)

end Chosen

/-- **The pods that are shown**, and the one that is chosen. Whatever the order of the manifests,
the pods come sorted by their keys, equal keys in the order of the manifests, and the pod that a
wait finds among them has the greatest key of those that suit. Where the keys differ, another
order of the manifests changes nothing. -/
theorem shown_order (client : Client) (space app : String) (wanted : Wanted) (world : World)
    (i : Nat) (manifests : List Json) (pods : List Pod)
    (hlisted : client.listed space app world i = .ok manifests)
    (hpods : manifests.mapM Pod.ofManifest = .ok pods)
    (htextual : ∀ pod ∈ pods, pod.Textual) :
    ∃ sorted, client.shown space app world i = .ok sorted ∧
      sorted.Perm pods ∧ sorted.Pairwise Pod.NotOlder ∧
      (∀ key, sorted.filter (·.key = key) = pods.filter (·.key = key)) ∧
      -- the choice
      (∀ found, client.seen space app wanted world i = .ok found → Chosen wanted pods found) ∧
      ((∀ pod ∈ pods, Legible wanted pod) →
        ∃ found, client.seen space app wanted world i = .ok found) ∧
      (∀ pod, client.seen space app wanted world i = .ok (some pod) →
        ∀ other ∈ pods, Suits wanted other → ∀ moment moment' : Moment,
          pod.created = .str moment.text → other.created = .str moment'.text →
            ¬ moment < moment') ∧
      -- another order
      ((pods.map Pod.key).Nodup →
        sorted.Pairwise (fun a b => b.key < a.key) ∧
        ∀ world' i' manifests', manifests.Perm manifests' →
          client.listed space app world' i' = .ok manifests' →
            client.shown space app world' i' = .ok sorted ∧
            client.seen space app wanted world' i' = client.seen space app wanted world i) := by
  have hperm := List.perm_insertionSort Pod.NotOlder pods
  have hsorted := List.pairwise_insertionSort Pod.NotOlder pods
  have hobserved := observed_eq hpods htextual
  have hshown : client.shown space app world i = .ok (pods.insertionSort Pod.NotOlder) := by
    rw [Client.shown_eq, hlisted, ← hobserved]
    rfl
  obtain ⟨hfound, hlegible⟩ := (seen_of_shown client space app wanted world i).2 _ hshown
  have hchosen : ∀ found, client.seen space app wanted world i = .ok found →
      Chosen wanted pods found := by
    intro found hseen
    rw [hfound found hseen]
    exact chosen_find? hperm hsorted
  refine ⟨_, hshown, hperm, hsorted, Pod.filter_insertionSort pods, hchosen, ?_, ?_, ?_⟩
  · exact fun h => ⟨_, hlegible fun pod hpod => h pod (hperm.mem_iff.mp hpod)⟩
  · intro pod hseen other hother hsuits moment moment'
    exact (hchosen _ hseen).not_younger hother hsuits
  · intro hkeys
    refine ⟨Pod.pairwise_gt_insertionSort hkeys, ?_⟩
    intro world' i' manifests' hmanifests hlisted'
    have hshown' : client.shown space app world' i' = .ok (pods.insertionSort Pod.NotOlder) := by
      rw [Client.shown_eq, hlisted', ← hobserved]
      exact observed_of_perm hmanifests hpods htextual hkeys
    refine ⟨hshown', ?_⟩
    unfold Client.seen
    rw [hshown', hshown]

/-- Two manifests of pods that are ready, the older one first. -/
def olderFirst : List Json :=
  [readyManifest "a" "2024-02-29T11:00:00Z" [], readyManifest "b" "2024-02-29T12:00:00Z" []]

theorem shown_order_olderFirst :
    ∃ sorted, Client.store.shown "shop" "cart"
        { World.start ⟨[]⟩ with pods := [.pods olderFirst] } 0 = .ok sorted ∧
      sorted.Pairwise fun a b => b.key < a.key := by
  have htextual : ∀ pod ∈ [Pod.mk (.str "a") true [] (.str "2024-02-29T11:00:00Z"),
      Pod.mk (.str "b") true [] (.str "2024-02-29T12:00:00Z")], pod.Textual := by
    simp [Pod.Textual]
  obtain ⟨sorted, hshown, _, _, _, _, _, _, horder⟩ :=
    shown_order .store "shop" "cart" none { World.start ⟨[]⟩ with pods := [.pods olderFirst] } 0
      olderFirst _ rfl rfl htextual
  exact ⟨sorted, hshown, (horder (by decide)).1⟩

/-! ## Two waits -/

/-- Every listing gives what its counterpart gives, or the same manifests in another order, of pods
that have texts to be ordered by and differ in them. -/
def Reordered (client : Client) (space app : String) (world world' : World) : Prop :=
  ∀ i, client.listed space app world' i = client.listed space app world i ∨
    ∃ manifests manifests' pods,
      client.listed space app world i = .ok manifests ∧
      client.listed space app world' i = .ok manifests' ∧
      manifests.Perm manifests' ∧ manifests.mapM Pod.ofManifest = .ok pods ∧
      (∀ pod ∈ pods, pod.Textual) ∧ (pods.map Pod.key).Nodup

/-- **What a wait gives** does not depend on the order of its listings. -/
theorem waitFor_outcome_of_reordered (client : Client) (space app : String) (wanted : Wanted)
    (limits : PollLimits) {world world' : World} (calm : world.Calm) (calm' : world'.Calm)
    (h : Reordered client space app world world') :
    (waitFor client space app wanted limits).outcome world'
      = (waitFor client space app wanted limits).outcome world := by
  refine waitFor_outcome_congr limits calm calm' fun i => ?_
  have hshown : client.shown space app world' i = client.shown space app world i := by
    rw [Client.shown_eq, Client.shown_eq]
    rcases h i with heq | ⟨manifests, manifests', pods, hlisted, hlisted', hperm, hpods, htextual,
      hkeys⟩
    · rw [heq]
    · rw [hlisted, hlisted']
      exact observed_of_perm hperm hpods htextual hkeys
  unfold Client.seen
  rw [hshown]

end Rollout
