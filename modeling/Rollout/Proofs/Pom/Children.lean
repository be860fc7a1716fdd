import Rollout.Pom.Edit

/-!
# The children an edit leaves

Edits place elements and change the tails of their neighbours; what a descriptor says never depends
on a tail. The lemmas here say which children of a local name a node has after an edit, seen through
a function that ignores tails.

- `TailFree`: functions of a node that ignore its tail.
- `modifyFirst_of_find?`: the first match changed, as a decomposition of the list.
- `childrenNamed_changeChild`, `childrenNamed_changeChild_of_ne`: the children after a change of the
  first child of a name.
- `map_childrenNamed_insertLast`, `map_childrenNamed_insertAfter`: the children after an insertion.
- `map_childrenNamed_within`: the children after an edit inside a child that is added when missing.
- `childText_withText`: the text of a child, read back after it was set.
-/

namespace Rollout.Pom

open Xml

/-- Functions of a node that ignore its tail. -/
def TailFree {β : Type} (g : Node → β) : Prop :=
  ∀ (node : Node) (tail : Option String), g { node with tail := tail } = g node

/-- Edits of a node that keep its label and do not look at its tail. -/
structure InPlace (f : Node → Node) : Prop where
  label : ∀ node, (f node).label = node.label
  tail : ∀ (node : Node) (tail : Option String),
    f { node with tail := tail } = { f node with tail := tail }

theorem inPlace_children (k : List Node → List Node) :
    InPlace fun node => { node with children := k node.children } :=
  ⟨fun _ => rfl, fun _ _ => rfl⟩

/-- What ignores tails still does after an edit in place. -/
theorem TailFree.comp {β : Type} {g : Node → β} (hg : TailFree g) {f : Node → Node}
    (hf : InPlace f) : TailFree fun node => g (f node) := fun node tail => by
  show g (f { node with tail := tail }) = g (f node)
  rw [hf.tail, hg]

/-! ## Names -/

theorem isNamed_of_label {a b : Node} (h : a.label = b.label) (name : String) :
    a.isNamed name = b.isNamed name := by
  unfold Node.isNamed Node.name?
  rw [h]

/-- A node has one local name at most. -/
theorem not_isNamed_of_ne {node : Node} {name other : String} (h : node.isNamed name = true)
    (hne : name ≠ other) : node.isNamed other = false := by
  unfold Node.isNamed at h ⊢
  cases hn : node.name? with
  | none => rfl
  | some q =>
    rw [hn] at h
    have hq : q.name = name := by simpa using h
    simpa [hq] using hne

theorem child?_eq_head? (name : String) (node : Node) :
    node.child? name = (node.childrenNamed name).head? := by
  rw [Node.childrenNamed, List.head?_filter, Node.child?]

@[simp] theorem indented_label (unit : String) (depth : Nat) (node : Node) :
    (node.indented unit depth).label = node.label := by
  obtain ⟨label, text, children, tail⟩ := node
  cases children <;> rfl

theorem isNamed_tailFree (name : String) : TailFree (Node.isNamed name) := fun _ _ => rfl

/-! ## Lists of nodes -/

/-- The first match changed, seen through a function that the change of a match commutes with. -/
theorem filter_modifyFirst_of_imp {p test : Node → Bool} {f : Node → Node} {nodes : List Node}
    (hp : ∀ node, p (f node) = p node) (himp : ∀ node ∈ nodes, test node = true → p node = true) :
    (modifyFirst test f nodes).filter p = modifyFirst test f (nodes.filter p) := by
  induction nodes with
  | nil => rfl
  | cons node nodes ih =>
    have ih := ih fun n hn => himp n (List.mem_cons_of_mem _ hn)
    by_cases ht : test node = true
    · have hpn := himp node (List.mem_cons_self ..) ht
      simp [modifyFirst, ht, hp, hpn]
    · by_cases hpn : p node = true <;> simp [modifyFirst, ht, hpn, ih]

/-- A change of a node that fails the filter stays invisible. -/
theorem filter_modifyFirst_of_not {p test : Node → Bool} {f : Node → Node} {nodes : List Node}
    (hp : ∀ node, p (f node) = p node) (hnot : ∀ node ∈ nodes, test node = true → p node = false) :
    (modifyFirst test f nodes).filter p = nodes.filter p := by
  induction nodes with
  | nil => rfl
  | cons node nodes ih =>
    have ih := ih fun n hn => hnot n (List.mem_cons_of_mem _ hn)
    by_cases ht : test node = true
    · have hpn := hnot node (List.mem_cons_self ..) ht
      simp [modifyFirst, ht, hp, hpn]
    · by_cases hpn : p node = true <;> simp [modifyFirst, ht, hpn, ih]

/-- Where every item passes the test, the first one is changed. -/
theorem modifyFirst_of_all {test : Node → Bool} {f : Node → Node} {nodes : List Node}
    (h : ∀ node ∈ nodes, test node = true) : modifyFirst test f nodes = nodes.modifyHead f := by
  cases nodes with
  | nil => rfl
  | cons node nodes => simp [modifyFirst, h node (List.mem_cons_self ..)]

/-- **The first match** is found, and it alone is changed. -/
theorem modifyFirst_of_find? {test : Node → Bool} {found : Node} {nodes : List Node}
    (h : nodes.find? test = some found) :
    ∃ front back, nodes = front ++ found :: back ∧
      ∀ f, modifyFirst test f nodes = front ++ f found :: back := by
  induction nodes with
  | nil => cases h
  | cons node nodes ih =>
    by_cases ht : test node = true
    · rw [List.find?_cons_of_pos ht] at h
      cases h
      exact ⟨[], nodes, rfl, fun f => by rw [modifyFirst, if_pos ht]; rfl⟩
    · rw [List.find?_cons_of_neg ht] at h
      obtain ⟨front, back, rfl, hmodify⟩ := ih h
      refine ⟨node :: front, back, rfl, fun f => ?_⟩
      rw [modifyFirst, if_neg ht, hmodify]
      rfl

/-- A change of the last item's tail is invisible through filters and functions that ignore
tails. -/
theorem map_filter_modifyLast {β : Type} {g : Node → β} (hg : TailFree g) {p : Node → Bool}
    (hp : TailFree p) (tail : Option String) (nodes : List Node) :
    ((modifyLast (fun node => { node with tail := tail }) nodes).filter p).map g
      = (nodes.filter p).map g := by
  induction nodes with
  | nil => rfl
  | cons node nodes ih =>
    cases nodes with
    | nil =>
      by_cases hpn : p node = true <;> simp [modifyLast, hp node, hpn, hg node]
    | cons next nodes =>
      have ih :
          ((modifyLast (fun node => { node with tail := tail }) (next :: nodes)).filter p).map g
            = ((next :: nodes).filter p).map g := ih
      -- the last item is behind `node`, among the others
      show ((node :: modifyLast _ (next :: nodes)).filter p).map g = _
      by_cases hpn : p node = true
      · simp only [List.filter_cons_of_pos hpn, List.map_cons, ih]
      · simp only [List.filter_cons_of_neg hpn, ih]

/-! ## The first child of a name changed -/

section ChangeChild

variable {f : Node → Node} {name other : String}

theorem inPlace_changeChild (name : String) (f : Node → Node) : InPlace (changeChild name f) :=
  ⟨fun _ => rfl, fun _ _ => rfl⟩

theorem childrenNamed_changeChild (hf : ∀ node, (f node).label = node.label) (node : Node) :
    (changeChild name f node).childrenNamed name = (node.childrenNamed name).modifyHead f := by
  show (modifyFirst (Node.isNamed name) f node.children).filter (Node.isNamed name) = _
  rw [filter_modifyFirst_of_imp (fun n => isNamed_of_label (hf n) name) fun _ _ h => h]
  exact modifyFirst_of_all fun n hn => (List.mem_filter.mp hn).2

theorem childrenNamed_changeChild_of_ne (hf : ∀ node, (f node).label = node.label)
    (hne : name ≠ other) (node : Node) :
    (changeChild name f node).childrenNamed other = node.childrenNamed other :=
  filter_modifyFirst_of_not (fun n => isNamed_of_label (hf n) other)
    fun _ _ h => not_isNamed_of_ne h hne

end ChangeChild

/-! ## Insertions -/

section Insert

variable {β : Type} {g : Node → β} (style : Style) (depth : Nat)

theorem inPlace_insertLast (child : Node) : InPlace (style.insertLast depth child) where
  label parent := by
    unfold Style.insertLast
    cases parent.children.getLast? <;> rfl
  tail parent tail := by
    unfold Style.insertLast
    cases parent.children.getLast? <;> rfl

/-- A new child, indented and with any tail, among nodes that are filtered by name. -/
theorem map_filter_cons_indented (hg : TailFree g) (child : Node) (tail : Option String)
    (nodes : List Node) (name : String) :
    (({ child.indented style.indent (depth + 1) with tail := tail } :: nodes).filter
        (Node.isNamed name)).map g
      = (if child.isNamed name then [g (child.indented style.indent (depth + 1))] else [])
        ++ (nodes.filter (Node.isNamed name)).map g := by
  have hname : Node.isNamed name { child.indented style.indent (depth + 1) with tail := tail }
      = child.isNamed name := isNamed_of_label (indented_label ..) name
  rw [List.filter_cons, hname]
  by_cases h : child.isNamed name = true
  · rw [if_pos h, if_pos h, List.map_cons, hg _ tail]
    rfl
  · rw [if_neg h, if_neg h]
    rfl

/-- The children, seen without tails, are the old ones and the new one. -/
theorem map_childrenNamed_insertLast (hg : TailFree g) (child parent : Node) (name : String) :
    ((style.insertLast depth child parent).childrenNamed name).map g
      = (parent.childrenNamed name).map g
        ++ if child.isNamed name then [g (child.indented style.indent (depth + 1))] else [] := by
  unfold Style.insertLast Node.childrenNamed
  cases hlast : parent.children.getLast? with
  | none =>
    have hnil : parent.children = [] := List.getLast?_eq_none_iff.mp hlast
    simp only [hnil, List.filter_nil, List.map_nil, List.nil_append]
    rw [map_filter_cons_indented style depth hg]
    exact List.append_nil _
  | some last =>
    simp only [List.filter_append, List.map_append]
    rw [map_filter_modifyLast hg (isNamed_tailFree name), map_filter_cons_indented style depth hg,
      List.filter_nil, List.map_nil, List.append_nil]

theorem insertIdx_eq_take_append_drop {α : Type} (item : α) :
    ∀ (index : Nat) (items : List α), index ≤ items.length →
      items.insertIdx index item = items.take index ++ item :: items.drop index
  | 0, _, _ => rfl
  | _ + 1, [], h => absurd h (by simp)
  | index + 1, head :: items, h => by
    rw [List.insertIdx_succ_cons,
      insertIdx_eq_take_append_drop item index items (Nat.le_of_succ_le_succ h)]
    rfl

theorem inPlace_insertAfter (index : Nat) (child : Node) :
    InPlace (style.insertAfter depth index child) where
  label parent := by
    unfold Style.insertAfter
    split
    · rfl
    · exact (inPlace_insertLast style depth child).label parent
  tail parent tail := by
    unfold Style.insertAfter
    split
    · rfl
    · exact (inPlace_insertLast style depth child).tail parent tail

/-- The children after an insertion in the middle. Where the new child stands among children of its
own name is not said: it is used for the first child of a name. -/
theorem map_childrenNamed_insertAfter (hg : TailFree g) (index : Nat) (child parent : Node)
    {name : String} (hnil : child.isNamed name = true → parent.childrenNamed name = []) :
    ((style.insertAfter depth index child parent).childrenNamed name).map g
      = (parent.childrenNamed name).map g
        ++ if child.isNamed name then [g (child.indented style.indent (depth + 1))] else [] := by
  unfold Style.insertAfter
  split
  case isFalse => exact map_childrenNamed_insertLast style depth hg child parent name
  case isTrue hlt =>
    unfold Node.childrenNamed at hnil ⊢
    show ((parent.children.insertIdx (index + 1) _).filter (Node.isNamed name)).map g = _
    rw [insertIdx_eq_take_append_drop _ _ _ (Nat.le_of_lt hlt), List.filter_append, List.map_append,
      map_filter_cons_indented style depth hg]
    by_cases h : child.isNamed name = true
    · -- no old child on either side has the name of the new one
      have hall : ∀ node ∈ parent.children, ¬ node.isNamed name = true :=
        List.filter_eq_nil_iff.mp (hnil h)
      have htake : (parent.children.take (index + 1)).filter (Node.isNamed name) = [] :=
        List.filter_eq_nil_iff.mpr fun node hn => hall node (List.mem_of_mem_take hn)
      have hdrop : (parent.children.drop (index + 1)).filter (Node.isNamed name) = [] :=
        List.filter_eq_nil_iff.mpr fun node hn => hall node (List.mem_of_mem_drop hn)
      rw [htake, hdrop, hnil h]
      simp
    · rw [if_neg h, List.nil_append, List.append_nil, ← List.map_append, ← List.filter_append,
        List.take_append_drop]

/-! ## Edits inside a child -/

@[simp] theorem newElement_isNamed (name other : String) (children : List Node) :
    (style.newElement name children).isNamed other = (name == other) := rfl

/-- A new element without children is not changed by indentation. -/
@[simp] theorem newElement_nil_indented (name unit : String) :
    (style.newElement name []).indented unit depth = style.newElement name [] := rfl

theorem inPlace_withChild (name : String) : InPlace (style.withChild depth name) where
  label node := by
    unfold Style.withChild
    split
    · rfl
    · exact (inPlace_insertLast style depth _).label node
  tail node tail := by
    have hchild : Node.child? name { node with tail := tail } = node.child? name := rfl
    unfold Style.withChild
    rw [hchild]
    split
    · rfl
    · exact (inPlace_insertLast style depth _).tail node tail

theorem inPlace_within (name : String) (f : Node → Node) :
    InPlace (style.within depth name f) where
  label node := (inPlace_withChild style depth name).label node
  tail node tail := by
    unfold Style.within
    rw [(inPlace_withChild style depth name).tail]
    rfl

/-- The children of the name, added when there was none: a new one is the only one. -/
theorem map_childrenNamed_withChild (hg : TailFree g) (name : String) (node : Node) :
    ((style.withChild depth name node).childrenNamed name).map g
      = if node.childrenNamed name = [] then [g (style.newElement name [])]
        else (node.childrenNamed name).map g := by
  unfold Style.withChild
  rw [child?_eq_head?]
  by_cases h : node.childrenNamed name = []
  · rw [if_neg (by simp [h]), if_pos h, map_childrenNamed_insertLast style depth hg, h]
    simp
  · rw [if_pos (by simpa using h), if_neg h]

theorem map_childrenNamed_withChild_of_ne (hg : TailFree g) {name other : String}
    (hne : name ≠ other) (node : Node) :
    ((style.withChild depth name node).childrenNamed other).map g
      = (node.childrenNamed other).map g := by
  unfold Style.withChild
  split
  · rfl
  · rw [map_childrenNamed_insertLast style depth hg, newElement_isNamed]
    simp [hne]

/-- **An edit inside a child**: the first child of the name is edited, and a missing one is added
before. -/
theorem map_childrenNamed_within (hg : TailFree g) {f : Node → Node} (hf : InPlace f)
    (name : String) (node : Node) :
    ((style.within depth name f node).childrenNamed name).map g
      = match node.childrenNamed name with
        | [] => [g (f (style.newElement name []))]
        | child :: children => g (f child) :: children.map g := by
  -- the child may have been added just before: read each child as it is and as edited, so that
  -- the addition is seen through one function
  have hhead : ∀ nodes : List Node, ((nodes.modifyHead f).map g)
      = match (nodes.map fun n => (g n, g (f n))) with
        | [] => []
        | child :: children => child.2 :: children.map Prod.fst := by
    intro nodes
    cases nodes <;> simp
  have hpair : TailFree fun n => (g n, g (f n)) := fun n tail =>
    Prod.ext (hg n tail) (hg.comp hf n tail)
  unfold Style.within
  rw [childrenNamed_changeChild hf.label, hhead, map_childrenNamed_withChild style depth hpair]
  cases node.childrenNamed name with
  | nil => rfl
  | cons child children => simp

theorem map_childrenNamed_within_of_ne (hg : TailFree g) {f : Node → Node} (hf : InPlace f)
    {name other : String} (hne : name ≠ other) (node : Node) :
    ((style.within depth name f node).childrenNamed other).map g
      = (node.childrenNamed other).map g := by
  unfold Style.within
  rw [childrenNamed_changeChild_of_ne hf.label hne,
    map_childrenNamed_withChild_of_ne style depth hg hne]

/-! ## The text of a child -/

theorem inPlace_withText (name value : String) (anchors : List String) :
    InPlace (style.withText depth name value anchors) where
  label node := by
    unfold Style.withText
    split
    · rfl
    · split
      · exact (inPlace_insertAfter style depth _ _).label node
      · exact (inPlace_insertLast style depth _).label node
  tail node tail := by
    have hchild : Node.child? name { node with tail := tail } = node.child? name := rfl
    have hindex (anchor : String) : Node.childIndex? anchor { node with tail := tail }
        = node.childIndex? anchor := rfl
    unfold Style.withText
    simp only [hchild, hindex]
    split
    · rfl
    · cases anchors.findSome? fun anchor => node.childIndex? anchor with
      | some index => exact (inPlace_insertAfter style depth index _).tail node tail
      | none => exact (inPlace_insertLast style depth _).tail node tail

/-- Setting the text of a child leaves the children of other names. -/
theorem map_childrenNamed_withText_of_ne (hg : TailFree g) {name other : String}
    (hne : name ≠ other) (value : String) (anchors : List String) (node : Node) :
    ((style.withText depth name value anchors node).childrenNamed other).map g
      = (node.childrenNamed other).map g := by
  have hfresh : (style.newTextElement name (some value)).isNamed other = false := by
    show (name == other) = false
    simpa using hne
  unfold Style.withText
  split
  · have hlabel : ∀ node : Node, ({ node with text := some value } : Node).label = node.label :=
      fun _ => rfl
    rw [childrenNamed_changeChild_of_ne hlabel hne]
  · split
    · rw [map_childrenNamed_insertAfter style depth hg _ _ _ (by simp [hfresh]), hfresh]
      simp
    · rw [map_childrenNamed_insertLast style depth hg, hfresh]
      simp

/-- **The text is read back**, stripped, once it is set. -/
theorem childText_withText (name value : String) (anchors : List String) (node : Node) :
    childText name (style.withText depth name value anchors node) = some (Text.strip value) := by
  -- a new child is the only one of its name
  have hread : ∀ after : Node, (after.childrenNamed name).map Node.text
      = (node.childrenNamed name).map Node.text ++ [some value] →
      node.childrenNamed name = [] → childText name after = some (Text.strip value) := by
    intro after hmap hnil
    rw [hnil] at hmap
    obtain ⟨child, hchild, htext⟩ := List.map_eq_singleton_iff.mp hmap
    simp [childText, child?_eq_head?, hchild, htext]
  have hfresh : (style.newTextElement name (some value)).isNamed name = true := by
    show (name == name) = true
    exact beq_self_eq_true name
  have htail : TailFree Node.text := fun _ _ => rfl
  unfold Style.withText
  rw [child?_eq_head?]
  by_cases h : node.childrenNamed name = []
  · rw [if_neg (by simp [h])]
    split
    · refine hread _ ?_ h
      rw [map_childrenNamed_insertAfter style depth htail _ _ _ fun _ => h, if_pos hfresh]
      rfl
    · refine hread _ ?_ h
      rw [map_childrenNamed_insertLast style depth htail, if_pos hfresh]
      rfl
  · obtain ⟨child, children, hcons⟩ := List.exists_cons_of_ne_nil h
    have hlabel : ∀ node : Node, ({ node with text := some value } : Node).label = node.label :=
      fun _ => rfl
    rw [if_pos (by simp [hcons]), childText, child?_eq_head?, childrenNamed_changeChild hlabel,
      hcons]
    rfl

end Insert

end Rollout.Pom
