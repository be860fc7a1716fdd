import Rollout.Proofs.Pom.Frame
import Rollout.Proofs.Pom.Configuration

/-!
# Changes of children that commute

Two changes of one node give the same node in either order when they are about different children.
A child that is added moves the tail of the last one, so that the other change has to go along with
any tail.

- `modifyFirst_comm`, `modifyFirst_map_comm`: changes of a list of children.
- `changeChild_comm`, `changeChild_comm_of_ne`: changes of the same child, and of two children.
- `insertLast_changeChild`, `insertAfter_changeChild`, `within_changeChild`: a child added, and a
  change of another one.
- `insertAfter_insertLast`: a child added behind another one, and a child added at the end.
- `withText_replaceChild`: **the text of a child set and another child replaced**, either of which
  may be missing.
-/

namespace Rollout.Pom

open Xml

/-! ## Lists of children -/

section Lists

variable {p q : Node → Bool} {f g : Node → Node}

/-- Changes of two first matches commute when each leaves what the other looks for. -/
theorem modifyFirst_comm (hp : ∀ node, q node = true → p (g node) = p node)
    (hq : ∀ node, p node = true → q (f node) = q node)
    (hfg : ∀ node, p node = true → q node = true → f (g node) = g (f node)) (nodes : List Node) :
    modifyFirst p f (modifyFirst q g nodes) = modifyFirst q g (modifyFirst p f nodes) := by
  induction nodes with
  | nil => rfl
  | cons node nodes ih =>
    have hpg := hp node
    have hqf := hq node
    by_cases hpn : p node = true <;> by_cases hqn : q node = true
    · simp [modifyFirst, hpn, hqn, hpg hqn, hqf hpn, hfg node hpn hqn]
    · simp [modifyFirst, hpn, hqn, hqf hpn]
    · simp [modifyFirst, hpn, hqn, hpg hqn]
    · simp [modifyFirst, hpn, hqn, ih]

/-- The first match changed, and all nodes. -/
theorem modifyFirst_map_comm (hp : ∀ node, p (g node) = p node)
    (hfg : ∀ node, p node = true → f (g node) = g (f node)) (nodes : List Node) :
    modifyFirst p f (nodes.map g) = (modifyFirst p f nodes).map g := by
  induction nodes with
  | nil => rfl
  | cons node nodes ih =>
    rw [List.map_cons, modifyFirst, modifyFirst, hp]
    split
    case isTrue hpn => rw [hfg node hpn, List.map_cons]
    case isFalse => rw [ih, List.map_cons]

theorem modifyFirst_append (nodes more : List Node) :
    modifyFirst p f (nodes ++ more)
      = if nodes.any p then modifyFirst p f nodes ++ more else nodes ++ modifyFirst p f more := by
  induction nodes with
  | nil => rfl
  | cons node nodes ih =>
    rw [List.cons_append, modifyFirst, modifyFirst, ih, List.any_cons]
    cases p node with
    | true => rfl
    | false =>
      rw [if_neg Bool.false_ne_true, if_neg Bool.false_ne_true, Bool.false_or]
      split <;> rfl

/-- A node that is no match may be put anywhere. -/
theorem modifyFirst_insertIdx {fresh : Node} (hfresh : p fresh = false) :
    ∀ (index : Nat) (nodes : List Node),
      modifyFirst p f (nodes.insertIdx index fresh) = (modifyFirst p f nodes).insertIdx index fresh
  | 0, nodes => by
    rw [List.insertIdx_zero, List.insertIdx_zero, modifyFirst, if_neg (by simp [hfresh])]
  | _ + 1, [] => rfl
  | index + 1, node :: nodes => by
    rw [List.insertIdx_succ_cons, modifyFirst, modifyFirst]
    split
    · rw [List.insertIdx_succ_cons]
    · rw [List.insertIdx_succ_cons, modifyFirst_insertIdx hfresh index nodes]

/-- What is not changed is found where it was. -/
theorem findIdx?_modifyFirst (hp : ∀ node, q node = true → p (g node) = p node)
    (nodes : List Node) : (modifyFirst q g nodes).findIdx? p = nodes.findIdx? p := by
  induction nodes with
  | nil => rfl
  | cons node nodes ih =>
    rw [modifyFirst]
    split
    case isTrue hqn => rw [List.findIdx?_cons, List.findIdx?_cons, hp node hqn]
    case isFalse => rw [List.findIdx?_cons, List.findIdx?_cons, ih]

theorem length_modifyFirst (nodes : List Node) : (modifyFirst p f nodes).length = nodes.length := by
  induction nodes with
  | nil => rfl
  | cons node nodes ih =>
    rw [modifyFirst]
    split
    · rfl
    · rw [List.length_cons, ih, List.length_cons]

theorem insertIdx_append_of_le {fresh : Node} {index : Nat} {nodes : List Node}
    (h : index ≤ nodes.length) (more : List Node) :
    (nodes ++ more).insertIdx index fresh = nodes.insertIdx index fresh ++ more := by
  have hboth : index ≤ (nodes ++ more).length := by
    rw [List.length_append]
    omega
  rw [insertIdx_eq_take_append_drop fresh index _ hboth,
    insertIdx_eq_take_append_drop fresh index _ h, List.take_append_of_le_length h,
    List.drop_append_of_le_length h, List.append_assoc]
  rfl

end Lists

/-! ## Tails -/

/-- A change of a node that does not look at its tail, and leaves it. -/
def TailBlind (f : Node → Node) : Prop :=
  ∀ (node : Node) (tail : Option String),
    f { node with tail := tail } = { f node with tail := tail }

theorem TailBlind.tail_eq {f : Node → Node} (hf : TailBlind f) (node : Node) :
    (f node).tail = node.tail := by
  obtain ⟨label, text, children, tail⟩ := node
  have hsame := congrArg Node.tail (hf ⟨label, text, children, tail⟩ tail)
  exact hsame

/-! ## Two children changed -/

section ChangeChild

variable {f g : Node → Node} {name other : String}

/-- Two changes of the same child. -/
theorem changeChild_comm (hf : InPlace f) (hg : InPlace g)
    (hfg : ∀ node, node.isNamed name = true → f (g node) = g (f node)) (node : Node) :
    changeChild name f (changeChild name g node) = changeChild name g (changeChild name f node) :=
  congrArg (fun children => { node with children := children })
    (modifyFirst_comm (fun n _ => isNamed_of_label (hg.label n) name)
      (fun n _ => isNamed_of_label (hf.label n) name) (fun n hn _ => hfg n hn) node.children)

/-- Changes of two children that keep their names. -/
theorem changeChild_comm_of_ne (hne : name ≠ other)
    (hf : ∀ node, node.isNamed name = true → (f node).isNamed name = true)
    (hg : ∀ node, node.isNamed other = true → (g node).isNamed other = true) (node : Node) :
    changeChild name f (changeChild other g node)
      = changeChild other g (changeChild name f node) := by
  refine congrArg (fun children => { node with children := children })
    (modifyFirst_comm (fun n hn => ?_) (fun n hn => ?_) (fun n hn hn' => ?_) node.children)
  · rw [not_isNamed_of_ne (hg n hn) hne.symm, not_isNamed_of_ne hn hne.symm]
  · rw [not_isNamed_of_ne (hf n hn) hne, not_isNamed_of_ne hn hne]
  · rw [not_isNamed_of_ne hn hne] at hn'
    cases hn'

theorem isNamed_withTail (node : Node) (tail : Option String) :
    Node.isNamed name { node with tail := tail } = node.isNamed name := rfl

theorem InPlace.isNamed (h : InPlace f) {node : Node} (hnamed : node.isNamed name = true) :
    (f node).isNamed name = true :=
  (isNamed_of_label (h.label node) name).trans hnamed

/-- A child found by name is one of the children. -/
theorem any_of_isSome_child? {node : Node} (h : (node.child? name).isSome = true) :
    node.children.any (Node.isNamed name) = true := by
  rwa [Node.child?, List.isSome_find?] at h

end ChangeChild

/-! ## A child added and another one changed -/

section Insert

variable {style : Style} {depth index : Nat} {child parent node : Node} {f g : Node → Node}
  {name other : String}

/-- A child added behind the last one. -/
theorem insertLast_concat (parent : Node) {front : List Node} {last : Node}
    (h : parent.children = front ++ [last]) :
    style.insertLast depth child parent
      = { parent with
          children := front ++
            [{ last with tail := some (lineBreak style.indent (depth + 1)) },
              { child.indented style.indent (depth + 1) with tail := last.tail }] } := by
  unfold Style.insertLast
  rw [h, List.getLast?_concat]
  dsimp only
  rw [modifyLast_append_singleton, List.append_assoc]
  rfl

/-- **A child added at the end**, and a change of a child that is there. -/
theorem insertLast_changeChild
    (hf : TailBlind f) (hchild : (node.child? name).isSome = true) :
    style.insertLast depth child (changeChild name f node)
      = changeChild name f (style.insertLast depth child node) := by
  have hany := any_of_isSome_child? hchild
  rcases List.eq_nil_or_concat' node.children with hnil | ⟨front, last, hconcat⟩
  · rw [hnil] at hany
    cases hany
  rw [insertLast_concat node hconcat]
  have hchanged : (changeChild name f node).children
      = modifyFirst (Node.isNamed name) f (front ++ [last]) := by rw [← hconcat]; rfl
  unfold changeChild at hchanged ⊢
  rw [modifyFirst_append] at hchanged
  dsimp only
  rw [modifyFirst_append]
  -- the child that is changed is the last one, or it stands before the last one
  cases hfront : front.any (Node.isNamed name) with
  | true =>
    rw [hfront, if_pos rfl] at hchanged
    rw [if_pos rfl, insertLast_concat _ hchanged]
  | false =>
    have hlast : last.isNamed name = true := by
      rw [hconcat, List.any_append, hfront] at hany
      simpa using hany
    have htail : (f last).tail = last.tail := hf.tail_eq last
    rw [hfront, if_neg Bool.false_ne_true, modifyFirst, if_pos hlast] at hchanged
    rw [if_neg Bool.false_ne_true, insertLast_concat _ hchanged, modifyFirst, isNamed_withTail,
      if_pos hlast, hf, htail]

/-- **A child added behind another one**, and a change of a child that is there. -/
theorem insertAfter_changeChild
    (hf : TailBlind f) (hfresh : child.isNamed name = false)
    (hchild : (node.child? name).isSome = true) :
    style.insertAfter depth index child (changeChild name f node)
      = changeChild name f (style.insertAfter depth index child node) := by
  have hlength : (changeChild name f node).children.length = node.children.length :=
    length_modifyFirst _
  unfold Style.insertAfter
  rw [hlength]
  split
  · have hplaced : Node.isNamed name { child.indented style.indent (depth + 1) with
        tail := some (lineBreak style.indent (depth + 1)) } = false := by
      rw [isNamed_withTail, isNamed_of_label (indented_label ..), hfresh]
    exact congrArg (fun children => { node with children := children })
      (modifyFirst_insertIdx hplaced (index + 1) node.children).symm
  · exact insertLast_changeChild hf hchild

/-- **A child added behind another one, and a child added at the end.** -/
theorem insertAfter_insertLast {last : Node} (hindex : index < node.children.length) :
    style.insertAfter depth index child (style.insertLast depth last node)
      = style.insertLast depth last (style.insertAfter depth index child node) := by
  rcases List.eq_nil_or_concat' node.children with hnil | ⟨front, old, hconcat⟩
  · rw [hnil] at hindex
    cases hindex
  have hlength : node.children.length = front.length + 1 := by
    rw [hconcat, List.length_append, List.length_singleton]
  rw [insertLast_concat node hconcat]
  unfold Style.insertAfter
  dsimp only
  have hboth : index + 1 < (front ++ [{ old with
        tail := some (lineBreak style.indent (depth + 1)) },
      { last.indented style.indent (depth + 1) with tail := old.tail }]).length := by
    rw [List.length_append, List.length_cons, List.length_singleton]
    omega
  rw [if_pos hboth]
  split
  case isTrue hinside =>
    -- the place is in front of the last child, which both sides follow up with
    have hfront : index + 1 ≤ front.length := by omega
    rw [insertLast_concat { node with children := node.children.insertIdx _ _ }
        (by rw [hconcat]; exact insertIdx_append_of_le hfront [old]),
      insertIdx_append_of_le hfront]
  case isFalse hend =>
    -- the place is behind the last child, so that the child added at the end comes behind it
    obtain rfl : index = front.length := by omega
    have hbehind : ∀ first fresh second : Node,
        (front ++ [first, second]).insertIdx (front.length + 1) fresh
          = front ++ [first] ++ [fresh, second] := by
      intro first fresh second
      have hlength : front.length + 1 = (front ++ [first]).length := by simp
      rw [List.append_cons front first [second], hlength,
        insertIdx_eq_take_append_drop _ _ _ (by simp), List.take_left, List.drop_left]
    rw [insertLast_concat node hconcat,
      insertLast_concat { node with children := front ++ [_, _] } (List.append_cons front _ [_])]
    exact congrArg (fun children => { node with children := children }) (hbehind _ _ _)

theorem isSome_child?_of_map {β : Type} {h : Node → β} {a b : Node}
    (hmap : (a.childrenNamed name).map h = (b.childrenNamed name).map h) :
    (a.child? name).isSome = (b.child? name).isSome := by
  rw [child?_eq_head?, child?_eq_head?, ← Option.isSome_map (f := h), ← List.head?_map, hmap,
    List.head?_map, Option.isSome_map]

/-- **An edit inside a child that may be missing**, and a change of a child that is there. -/
theorem within_changeChild (hf : InPlace f) (hg : InPlace g) (hne : name ≠ other)
    (hchild : (node.child? name).isSome = true) :
    style.within depth other g (changeChild name f node)
      = changeChild name f (style.within depth other g node) := by
  have hsame : ((changeChild name f node).child? other) = node.child? other := by
    rw [child?_eq_head?, child?_eq_head?, childrenNamed_changeChild_of_ne hf.label hne]
  have hadded : style.withChild depth other (changeChild name f node)
      = changeChild name f (style.withChild depth other node) := by
    unfold Style.withChild
    rw [hsame]
    split
    · rfl
    · exact insertLast_changeChild hf.tail hchild
  unfold Style.within
  rw [hadded]
  exact (changeChild_comm_of_ne hne (fun _ => hf.isNamed) (fun _ => hg.isNamed) _).symm

/-! ## The text of a child set, and another child replaced -/

theorem childIndex?_changeChild
    (hf : ∀ node, node.isNamed name = true → (f node).isNamed name = true) (hne : other ≠ name)
    (node : Node) : (changeChild name f node).childIndex? other = node.childIndex? other := by
  refine findIdx?_modifyFirst (fun n hn => ?_) node.children
  rw [not_isNamed_of_ne (hf n hn) hne.symm, not_isNamed_of_ne hn hne.symm]

theorem childIndex?_insertLast (hfresh : child.isNamed other = false) (node : Node) :
    (style.insertLast depth child node).childIndex? other = node.childIndex? other := by
  have hplaced : ∀ text children tail, Node.isNamed other ⟨child.label, text, children, tail⟩
      = false := fun _ _ _ => hfresh
  rcases List.eq_nil_or_concat' node.children with hnil | ⟨front, last, hconcat⟩
  · unfold Style.insertLast Node.childIndex?
    simp [hnil, hplaced]
  · rw [insertLast_concat node hconcat]
    unfold Node.childIndex?
    simp [hconcat, hplaced, isNamed_withTail, List.findIdx?_append, List.findIdx?_cons]

theorem isSome_childIndex? (name : String) (node : Node) :
    (node.childIndex? name).isSome = (node.child? name).isSome := by
  unfold Node.childIndex? Node.child?
  rw [List.findIdx?_isSome, List.isSome_find?]

theorem childIndex?_lt {index : Nat} (h : node.childIndex? name = some index) :
    index < node.children.length :=
  (List.findIdx?_eq_some_iff_findIdx_eq.mp h).1

variable {value : String} {anchors : List String}

theorem findSome?_childIndex?_congr {a b : Node}
    (h : ∀ anchor ∈ anchors, a.childIndex? anchor = b.childIndex? anchor) :
    anchors.findSome? a.childIndex? = anchors.findSome? b.childIndex? := by
  induction anchors with
  | nil => rfl
  | cons anchor anchors ih =>
    obtain ⟨hanchor, hanchors⟩ := List.forall_mem_cons.mp h
    rw [List.findSome?_cons, List.findSome?_cons, hanchor, ih hanchors]

/-- The text of a child set, and a change of another child that is there. -/
theorem withText_changeChild (hf : TailBlind f)
    (hnamed : ∀ node, node.isNamed other = true → (f node).isNamed other = true)
    (hne : name ≠ other) (hanchors : other ∉ anchors)
    (hchild : (node.child? other).isSome = true) :
    style.withText depth name value anchors (changeChild other f node)
      = changeChild other f (style.withText depth name value anchors node) := by
  have hfresh : (style.newTextElement name (some value)).isNamed other = false := by
    show (name == other) = false
    simpa using hne
  have hthere : ((changeChild other f node).child? name).isSome = (node.child? name).isSome := by
    rw [← isSome_childIndex?, ← isSome_childIndex?, childIndex?_changeChild hnamed hne]
  have hplace : anchors.findSome? (changeChild other f node).childIndex?
      = anchors.findSome? node.childIndex? :=
    findSome?_childIndex?_congr fun anchor hanchor =>
      childIndex?_changeChild hnamed (ne_of_mem_of_not_mem hanchor hanchors) node
  unfold Style.withText
  rw [hthere]
  dsimp only
  rw [hplace]
  split
  · have htext : ∀ n : Node, n.isNamed name = true →
        Node.isNamed name { n with text := some value } = true := fun _ hn => hn
    exact changeChild_comm_of_ne hne htext hnamed node
  · split
    · exact insertAfter_changeChild hf hfresh hchild
    · exact insertLast_changeChild hf hchild

/-- The text of a child set, and another child added at the end: a missing child whose text is set
comes behind an anchor. -/
theorem withText_insertLast (hother : child.isNamed name = false)
    (hanchors : ∀ anchor ∈ anchors, child.isNamed anchor = false)
    (hplace : (anchors.findSome? node.childIndex?).isSome = true) :
    style.withText depth name value anchors (style.insertLast depth child node)
      = style.insertLast depth child (style.withText depth name value anchors node) := by
  have hthere : ((style.insertLast depth child node).child? name).isSome
      = (node.child? name).isSome := by
    refine isSome_child?_of_map (h := fun _ => ()) ?_
    rw [map_childrenNamed_insertLast style depth fun _ _ => rfl, hother]
    simp
  have hsame : anchors.findSome? (style.insertLast depth child node).childIndex?
      = anchors.findSome? node.childIndex? :=
    findSome?_childIndex?_congr fun anchor hanchor =>
      childIndex?_insertLast (hanchors anchor hanchor) node
  obtain ⟨index, hindex⟩ := Option.isSome_iff_exists.mp hplace
  unfold Style.withText
  rw [hthere]
  dsimp only
  rw [hsame, hindex]
  split
  case isTrue hname => exact (insertLast_changeChild (fun _ _ => rfl) hname).symm
  case isFalse =>
    obtain ⟨anchor, -, hanchor⟩ := List.exists_of_findSome?_eq_some hindex
    exact insertAfter_insertLast (childIndex?_lt hanchor)

/-- **The text of a child set and another child replaced.** A missing child whose text is set comes
behind an anchor, and the other one stays the last. -/
theorem withText_replaceChild {fresh : Node} (hfresh : fresh.isNamed other = true)
    (hne : name ≠ other) (hanchors : other ∉ anchors)
    (hplace : (anchors.findSome? node.childIndex?).isSome = true) :
    style.withText depth name value anchors (style.replaceChild depth other fresh node)
      = style.replaceChild depth other fresh (style.withText depth name value anchors node) := by
  have hthere : ((style.withText depth name value anchors node).child? other).isSome
      = (node.child? other).isSome :=
    isSome_child?_of_map (h := fun _ => ())
      (map_childrenNamed_withText_of_ne style depth (fun _ _ => rfl) hne value anchors node)
  unfold Style.replaceChild
  rw [hthere]
  split
  case isTrue hchild =>
    refine withText_changeChild (fun _ _ => rfl) (fun _ _ => ?_) hne hanchors hchild
    rw [isNamed_withTail, isNamed_of_label (indented_label ..), hfresh]
  case isFalse =>
    refine withText_insertLast (not_isNamed_of_ne hfresh hne.symm) (fun anchor hanchor => ?_) hplace
    exact not_isNamed_of_ne hfresh (ne_of_mem_of_not_mem hanchor hanchors).symm

end Insert

end Rollout.Pom
