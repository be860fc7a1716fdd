import Mathlib.Logic.Relation
import Rollout.Fault

/-!
# The search for a failed name resolution

A fault is looked at in rounds, one fault of its graph in each. A fault that was looked at before is
passed over, so that the search ends on cycles too; any other one is expanded, and the faults it
refers to come next.

- `Fault.Links`, `Fault.Reaches`, `Fault.Unresolved`: the links of a graph, what they lead to from
  the fault that was raised, and whether they lead to a failed name resolution.
- `Fault.Search`, `Fault.Round`, `Fault.Ends`: a search under way, one round of it, and its answers.
- `Fault.Search.Sound`: **the invariant** of a search; `Fault.Search.Sound.round` keeps it.
- `Fault.wellFounded_round`, `Fault.exists_rounds`: **every search** comes to its end.
- `Fault.namesNoHost_iff`: **the answer** is yes exactly when a failed name resolution is reached.
-/

namespace Rollout

namespace FaultNode

theorem mem_links {node : FaultNode} {id : FaultId} :
    id ∈ node.links ↔ .fault id ∈ node.args ∨ node.reason = some (.fault id)
      ∨ node.cause = some id ∨ node.context = some id := by
  have harg : ∀ arg : FaultArg, arg.id? = some id ↔ arg = .fault id := fun arg => by
    cases arg <;> simp [FaultArg.id?]
  simp only [links, List.mem_append, List.mem_filterMap, Option.mem_toList, Option.bind_eq_some_iff,
    harg, exists_eq_right, or_assoc]

end FaultNode

namespace Fault

variable {fault : Fault}

/-! ## Links -/

/-- One fault refers to another: among its arguments, as its reason, as what caused it, or as what
was being handled when it arose. -/
inductive Links (fault : Fault) (id other : FaultId) : Prop
  | arg {node : FaultNode} (found : fault.node? id = some node) (link : .fault other ∈ node.args)
  | reason {node : FaultNode} (found : fault.node? id = some node)
      (link : node.reason = some (.fault other))
  | cause {node : FaultNode} (found : fault.node? id = some node) (link : node.cause = some other)
  | context {node : FaultNode} (found : fault.node? id = some node)
      (link : node.context = some other)

/-- Links lead to a fault from the one that was raised. -/
def Reaches (fault : Fault) (id : FaultId) : Prop :=
  Relation.ReflTransGen fault.Links fault.start id

/-- Links lead to a failed name resolution from the fault that was raised. -/
def Unresolved (fault : Fault) : Prop :=
  ∃ id node, fault.Reaches id ∧ fault.node? id = some node ∧ node.kind = .nameResolution

theorem links_iff {id other : FaultId} :
    fault.Links id other ↔ ∃ node, fault.node? id = some node ∧ other ∈ node.links := by
  simp only [FaultNode.mem_links]
  constructor
  · rintro (⟨hnode, h⟩ | ⟨hnode, h⟩ | ⟨hnode, h⟩ | ⟨hnode, h⟩)
    · exact ⟨_, hnode, .inl h⟩
    · exact ⟨_, hnode, .inr (.inl h)⟩
    · exact ⟨_, hnode, .inr (.inr (.inl h))⟩
    · exact ⟨_, hnode, .inr (.inr (.inr h))⟩
  · rintro ⟨node, hnode, h | h | h | h⟩
    · exact .arg hnode h
    · exact .reason hnode h
    · exact .cause hnode h
    · exact .context hnode h

theorem node?_eq_some_iff {id : FaultId} :
    (∃ node, fault.node? id = some node) ↔ id ∈ List.range fault.nodes.length := by
  rw [List.mem_range]
  exact ⟨fun ⟨_, hnode⟩ => (List.getElem?_eq_some_iff.mp hnode).1,
    fun hlt => ⟨_, List.getElem?_eq_getElem hlt⟩⟩

/-! ## Rounds -/

/-- A search under way: the faults it has expanded, the last one first, the faults it has not looked
at, and those it looks at next. -/
structure Search where
  expanded : List FaultId
  unseen : List FaultId
  pending : List FaultId

/-- The search from the fault that was raised. -/
def search (fault : Fault) : Search :=
  ⟨[], List.range fault.nodes.length, [fault.start]⟩

/-- One round of a search. -/
inductive Round (fault : Fault) : Search → Search → Prop
  /-- A fault that was looked at before is passed over. -/
  | passed {expanded unseen pending : List FaultId} {id : FaultId} (seen : id ∉ unseen) :
    Round fault ⟨expanded, unseen, id :: pending⟩ ⟨expanded, unseen, pending⟩
  /-- A fault of another kind than the one that is looked for is expanded. -/
  | expanded {expanded unseen pending : List FaultId} {id : FaultId} {node : FaultNode}
    (new : id ∈ unseen) (found : fault.node? id = some node) (kind : node.kind ≠ .nameResolution) :
    Round fault ⟨expanded, unseen, id :: pending⟩
      ⟨id :: expanded, unseen.erase id, node.links.reverse ++ pending⟩

/-- The end of a search and its answer. -/
inductive Ends (fault : Fault) : Search → Bool → Prop
  /-- Nothing is left to look at. -/
  | exhausted {expanded unseen : List FaultId} : Ends fault ⟨expanded, unseen, []⟩ false
  /-- The next fault is a failed name resolution. -/
  | hit {expanded unseen pending : List FaultId} {id : FaultId} {node : FaultNode}
    (new : id ∈ unseen) (found : fault.node? id = some node) (kind : node.kind = .nameResolution) :
    Ends fault ⟨expanded, unseen, id :: pending⟩ true

/-- **No search** goes on for ever: a round leaves fewer faults that were not looked at, or as many
and fewer to look at next. -/
theorem wellFounded_round (fault : Fault) :
    WellFounded fun after before => fault.Round before after := by
  have hless : Subrelation (fun after before => fault.Round before after)
      (InvImage (Prod.Lex (· < ·) (· < ·)) fun search : Search =>
        (search.unseen.length, search.pending.length)) := by
    rintro _ _ (hseen | ⟨hnew, hnode, hkind⟩)
    · exact .right _ (Nat.lt_succ_self _)
    · refine .left _ _ ?_
      rw [List.length_erase_of_mem hnew]
      exact Nat.sub_one_lt_of_lt (List.length_pos_of_mem hnew)
  exact hless.wf (InvImage.wf _ (Prod.lex Nat.lt_wfRel Nat.lt_wfRel).wf)

/-- **Every search** comes to its end, with the answer that is computed. -/
theorem exists_rounds {expanded unseen pending : List FaultId}
    (known : ∀ id ∈ unseen, ∃ node, fault.node? id = some node) :
    ∃ last, Relation.ReflTransGen fault.Round ⟨expanded, unseen, pending⟩ last ∧
      fault.Ends last (reachesResolution fault.nodes unseen pending) := by
  fun_induction reachesResolution fault.nodes unseen pending generalizing expanded with
  | case1 unseen => exact ⟨_, .refl, .exhausted⟩
  | case2 unseen id pending hnew node hnode hkind => exact ⟨_, .refl, .hit hnew hnode hkind⟩
  | case3 unseen id pending hnew node hnode hkind ih =>
    obtain ⟨last, hrounds, hend⟩ := @ih (id :: expanded) fun other hother =>
      known other (List.mem_of_mem_erase hother)
    exact ⟨last, hrounds.head (.expanded hnew hnode hkind), hend⟩
  | case4 unseen id pending hnew hnode ih =>
    obtain ⟨node, hsome⟩ := known id hnew
    rw [node?, hnode] at hsome
    cases hsome
  | case5 unseen id pending hseen ih =>
    obtain ⟨last, hrounds, hend⟩ := @ih expanded known
    exact ⟨last, hrounds.head (.passed hseen), hend⟩

/-! ## The invariant -/

/-- A fault of the graph was expanded, or is among those looked at next. -/
def Search.Met (fault : Fault) (search : Search) (id : FaultId) : Prop :=
  ∀ node, fault.node? id = some node → id ∈ search.expanded ∨ id ∈ search.pending

/-- What holds of a search in every round. -/
structure Search.Sound (fault : Fault) (search : Search) : Prop where
  /-- No fault was expanded twice. -/
  once : search.expanded.Nodup
  /-- The faults that were not looked at were not expanded. -/
  apart : ∀ id ∈ search.unseen, id ∉ search.expanded
  distinct : search.unseen.Nodup
  /-- A fault that was looked at was expanded. -/
  covered : ∀ id node, fault.node? id = some node → id ∈ search.unseen ∨ id ∈ search.expanded
  /-- What was expanded was not looked for. -/
  passed : ∀ id ∈ search.expanded, ∀ node, fault.node? id = some node →
    node.kind ≠ .nameResolution
  /-- Links lead to what is looked at next. -/
  reached : ∀ id ∈ search.pending, fault.Reaches id
  start : search.Met fault fault.start
  /-- What an expanded fault refers to is not forgotten. -/
  closed : ∀ id ∈ search.expanded, ∀ other, fault.Links id other → search.Met fault other

namespace Search

theorem sound_search (fault : Fault) : fault.search.Sound fault where
  once := List.nodup_nil
  apart _ _ := List.not_mem_nil
  distinct := List.nodup_range
  covered _ node hnode := .inl (node?_eq_some_iff.mp ⟨node, hnode⟩)
  passed _ h := absurd h List.not_mem_nil
  reached id h := by
    obtain rfl := List.mem_singleton.mp h
    exact .refl
  start _ _ := .inr (List.mem_singleton_self _)
  closed _ h := absurd h List.not_mem_nil

/-- What was met stays met when what was expanded stays expanded and what was to be looked at is
met. -/
theorem Met.mono {before after : Search} {id : FaultId} (h : before.Met fault id)
    (hexpanded : ∀ id ∈ before.expanded, id ∈ after.expanded)
    (hpending : ∀ id ∈ before.pending, after.Met fault id) : after.Met fault id := by
  intro node hnode
  rcases h node hnode with hold | hnext
  · exact .inl (hexpanded id hold)
  · exact hpending id hnext node hnode

section Round

variable {expanded unseen pending : List FaultId} {id : FaultId}

/-- The invariant is kept where a fault is passed over: it was expanded before. -/
theorem Sound.passOver (h : Sound fault ⟨expanded, unseen, id :: pending⟩) (hseen : id ∉ unseen) :
    Sound fault ⟨expanded, unseen, pending⟩ := by
  have hpending : ∀ other ∈ id :: pending, Met fault ⟨expanded, unseen, pending⟩ other := by
    intro other hother node hnode
    rcases List.mem_cons.mp hother with rfl | hlater
    · exact .inl ((h.covered other node hnode).resolve_left hseen)
    · exact .inr hlater
  have hmet : ∀ other, Met fault ⟨expanded, unseen, id :: pending⟩ other →
      Met fault ⟨expanded, unseen, pending⟩ other :=
    fun _ hother => hother.mono (fun _ hold => hold) hpending
  exact {
    once := h.once
    apart := h.apart
    distinct := h.distinct
    covered := h.covered
    passed := h.passed
    reached := fun other hother => h.reached other (List.mem_cons_of_mem _ hother)
    start := hmet _ h.start
    closed := fun old hold other hlink => hmet other (h.closed old hold other hlink) }

/-- The invariant is kept where a fault is expanded. -/
theorem Sound.expand {node : FaultNode} (h : Sound fault ⟨expanded, unseen, id :: pending⟩)
    (hnew : id ∈ unseen) (hnode : fault.node? id = some node)
    (hkind : node.kind ≠ .nameResolution) :
    Sound fault ⟨id :: expanded, unseen.erase id, node.links.reverse ++ pending⟩ := by
  have hpending : ∀ other ∈ id :: pending,
      Met fault ⟨id :: expanded, unseen.erase id, node.links.reverse ++ pending⟩ other := by
    intro other hother _ _
    rcases List.mem_cons.mp hother with rfl | hlater
    · exact .inl List.mem_cons_self
    · exact .inr (List.mem_append_right _ hlater)
  have hmet : ∀ other, Met fault ⟨expanded, unseen, id :: pending⟩ other →
      Met fault ⟨id :: expanded, unseen.erase id, node.links.reverse ++ pending⟩ other :=
    fun _ hother => hother.mono (fun _ hold => List.mem_cons_of_mem _ hold) hpending
  have hsame : ∀ node', fault.node? id = some node' → node' = node := fun _ hnode' =>
    Option.some.inj (hnode'.symm.trans hnode)
  exact {
    once := List.nodup_cons.mpr ⟨h.apart id hnew, h.once⟩
    apart := by
      intro other hother
      obtain ⟨hne, hold⟩ := h.distinct.mem_erase_iff.mp hother
      exact List.not_mem_cons_of_ne_of_not_mem hne (h.apart other hold)
    distinct := h.distinct.erase id
    covered := by
      intro other node' hother
      by_cases hne : other = id
      · exact .inr (hne ▸ List.mem_cons_self)
      · exact (h.covered other node' hother).imp (fun hunseen =>
          h.distinct.mem_erase_iff.mpr ⟨hne, hunseen⟩) (List.mem_cons_of_mem _)
    passed := by
      intro other hother node' hnode'
      rcases List.mem_cons.mp hother with rfl | hold
      · exact hsame node' hnode' ▸ hkind
      · exact h.passed other hold node' hnode'
    reached := by
      intro other hother
      rcases List.mem_append.mp hother with hlink | hlater
      · have hid : fault.Reaches id := h.reached id List.mem_cons_self
        exact hid.tail (links_iff.mpr ⟨node, hnode, List.mem_reverse.mp hlink⟩)
      · exact h.reached other (List.mem_cons_of_mem _ hlater)
    start := hmet _ h.start
    closed := by
      intro old hold other hlink
      rcases List.mem_cons.mp hold with rfl | hold
      · obtain ⟨node', hnode', hmem⟩ := links_iff.mp hlink
        rw [hsame node' hnode'] at hmem
        exact fun _ _ => .inr (List.mem_append_left _ (List.mem_reverse.mpr hmem))
      · exact hmet other (h.closed old hold other hlink) }

end Round

/-- **The invariant** is kept by every round. -/
theorem Sound.round {before after : Search} (h : before.Sound fault)
    (hround : fault.Round before after) : after.Sound fault := by
  cases hround with
  | passed hseen => exact h.passOver hseen
  | expanded hnew hnode hkind => exact h.expand hnew hnode hkind

/-- The invariant holds after any number of rounds. -/
theorem Sound.rounds {before after : Search} (h : before.Sound fault)
    (hrounds : Relation.ReflTransGen fault.Round before after) : after.Sound fault := by
  induction hrounds with
  | refl => exact h
  | tail _ hround ih => exact ih.round hround

/-- Where nothing is left to look at, all that links lead to was expanded. -/
theorem Sound.expanded_of_reaches {expanded unseen : List FaultId} {id : FaultId} {node : FaultNode}
    (h : Sound fault ⟨expanded, unseen, []⟩) (hreaches : fault.Reaches id)
    (hnode : fault.node? id = some node) : id ∈ expanded := by
  induction hreaches generalizing node with
  | refl => exact (h.start node hnode).resolve_right List.not_mem_nil
  | tail _ hlink ih =>
    obtain ⟨before, hbefore, -⟩ := links_iff.mp hlink
    exact (h.closed _ (ih hbefore) _ hlink node hnode).resolve_right List.not_mem_nil

/-- The answer at the end of a search is right. -/
theorem Sound.answer_iff {last : Search} {answer : Bool} (h : last.Sound fault)
    (hend : fault.Ends last answer) : answer = true ↔ fault.Unresolved := by
  cases hend with
  | exhausted =>
    refine iff_of_false Bool.false_ne_true ?_
    rintro ⟨id, node, hreaches, hnode, hkind⟩
    exact h.passed id (h.expanded_of_reaches hreaches hnode) node hnode hkind
  | hit _ hnode hkind =>
    exact iff_of_true rfl ⟨_, _, h.reached _ List.mem_cons_self, hnode, hkind⟩

end Search

/-! ## The answer -/

/-- **The search** from the fault that was raised comes to its end after finitely many rounds, and
no fault is expanded twice on the way. -/
theorem exists_search (fault : Fault) :
    ∃ last, Relation.ReflTransGen fault.Round fault.search last ∧
      fault.Ends last fault.namesNoHost ∧ last.expanded.Nodup := by
  obtain ⟨last, hrounds, hend⟩ := @exists_rounds fault [] (List.range fault.nodes.length)
    [fault.start] fun _ => node?_eq_some_iff.mpr
  exact ⟨last, hrounds, hend, ((Search.sound_search fault).rounds hrounds).once⟩

/-- **The answer** is yes exactly when a failed name resolution is reached. -/
theorem namesNoHost_iff (fault : Fault) : fault.namesNoHost = true ↔ fault.Unresolved := by
  obtain ⟨last, hrounds, hend, -⟩ := fault.exists_search
  exact ((Search.sound_search fault).rounds hrounds).answer_iff hend

end Fault

end Rollout
