import Rollout.Proofs.Xml.ReadBack

/-!
# Trees with one more comment or instruction

A comment that is read becomes a node. It goes to the element that is open where it stands, and it
parts the text there; everything else grows as without it.

- `Inserted`: a node put into a tree, which parts the text it is put into.
- `Shortened`: a tree where one text ends earlier.
- `Held`: the open elements without and with the node.
- `Held.step`: **one part of the content** keeps them so; `Held.run`: **all content** of the root
  does.
-/

namespace Rollout.Xml

/-! ## A node that is put into a tree -/

/-- The first text begins with the second one. -/
def TextPrefix (whole part : Option String) : Prop :=
  (part.getD "").toList <+: (whole.getD "").toList

theorem getD_appendText (text : Option String) (more : List Char) :
    ((appendText text more).getD "").toList = (text.getD "").toList ++ more := by
  unfold appendText
  cases more with
  | nil => exact (List.append_nil _).symm
  | cons c more =>
    show (text.getD "" ++ String.ofList (c :: more)).toList = _
    rw [String.toList_append, String.toList_ofList]

theorem TextPrefix.appendText {whole part : Option String} (h : TextPrefix whole part)
    (more : List Char) : TextPrefix (Xml.appendText whole more) part := by
  unfold TextPrefix
  rw [getD_appendText]
  exact h.trans (List.prefix_append ..)

/-- The tree with `mark` put into it. As the first child of an element it parts the text `whole`
that the element had, of which the element keeps `part`; behind a child it parts the tail of that
child, and no element has another text. -/
inductive Inserted (mark : Node) : Option String → Option String → Node → Node → Prop
  | first {label : Label} {whole part rest tail : Option String} {children : List Node}
      (parted : TextPrefix whole part) :
      Inserted mark whole part ⟨label, whole, children, tail⟩
        ⟨label, part, { mark with tail := rest } :: children, tail⟩
  | behind {label : Label} {text kept rest tail : Option String} {child : Node}
      {front back : List Node} (parted : TextPrefix child.tail kept) :
      Inserted mark text text ⟨label, text, front ++ child :: back, tail⟩
        ⟨label, text, front ++ { child with tail := kept } :: { mark with tail := rest } :: back,
          tail⟩
  | inside {label : Label} {whole part text tail : Option String} {child child' : Node}
      {front back : List Node} (inserted : Inserted mark whole part child child') :
      Inserted mark whole part ⟨label, text, front ++ child :: back, tail⟩
        ⟨label, text, front ++ child' :: back, tail⟩

/-- The tree with the text `whole` of one of its nodes replaced by `part`. -/
inductive Shortened (whole part : Option String) : Node → Node → Prop
  | here {label : Label} {tail : Option String} {children : List Node} :
      Shortened whole part ⟨label, whole, children, tail⟩ ⟨label, part, children, tail⟩
  | inside {label : Label} {text tail : Option String} {child child' : Node}
      {front back : List Node} (shortened : Shortened whole part child child') :
      Shortened whole part ⟨label, text, front ++ child :: back, tail⟩
        ⟨label, text, front ++ child' :: back, tail⟩

section Inserted

variable {mark node after : Node} {whole part : Option String}

theorem Inserted.tail_eq (h : Inserted mark whole part node after) : after.tail = node.tail := by
  cases h <;> rfl

theorem Inserted.withTail (h : Inserted mark whole part node after) (tail : Option String) :
    Inserted mark whole part { node with tail := tail } { after with tail := tail } := by
  cases h with
  | first parted => exact .first parted
  | behind parted => exact .behind parted
  | inside inserted => exact .inside inserted

theorem Inserted.addChild (h : Inserted mark whole part node after) (child : Node) :
    Inserted mark whole part (node.addChild child) (after.addChild child) := by
  cases h with
  | first parted => exact .first parted
  | behind parted =>
    unfold Node.addChild
    dsimp only
    rw [List.append_assoc, List.append_assoc]
    exact .behind parted
  | inside inserted =>
    unfold Node.addChild
    dsimp only
    rw [List.append_assoc, List.append_assoc]
    exact .inside inserted

/-- Text behind the last child is its tail. -/
theorem addText_concat (label : Label) (text : Option String) (front : List Node) (last : Node)
    (tail : Option String) (more : List Char) :
    Node.addText ⟨label, text, front ++ [last], tail⟩ more
      = ⟨label, text, front ++ [{ last with tail := appendText last.tail more }], tail⟩ := by
  unfold Node.addText
  simp

/-- Text behind some children does not matter to what stands before them. -/
theorem exists_addText {back : List Node} (hne : back ≠ []) (more : List Char) :
    ∃ back', ∀ (label : Label) (text : Option String) (front : List Node) (tail : Option String),
      Node.addText ⟨label, text, front ++ back, tail⟩ more
        = ⟨label, text, front ++ back', tail⟩ := by
  obtain ⟨init, last, rfl⟩ := (List.eq_nil_or_concat' back).resolve_left hne
  refine ⟨init ++ [{ last with tail := appendText last.tail more }],
    fun label text front tail => ?_⟩
  rw [← List.append_assoc, addText_concat, List.append_assoc]

/-- Text that goes to an element with children is no part of the text that is parted. -/
theorem Inserted.addText (h : Inserted mark whole part node after) (hne : node.children ≠ [])
    (more : List Char) : Inserted mark whole part (node.addText more) (after.addText more) := by
  cases h with
  | @first label whole part rest tail children parted =>
    obtain ⟨children', hadd⟩ := exists_addText hne more
    have hnode := hadd label whole [] tail
    have hafter := hadd label part [{ mark with tail := rest }] tail
    dsimp only [List.nil_append, List.cons_append] at hnode hafter
    rw [hnode, hafter]
    exact .first parted
  | @behind label text kept rest tail child front back parted =>
    by_cases hback : back = []
    · -- the tail that is parted goes on, behind the node that parts it
      subst hback
      have hafter : front ++ [{ child with tail := kept }, { mark with tail := rest }]
          = front ++ [{ child with tail := kept }] ++ [{ mark with tail := rest }] := by simp
      rw [addText_concat, hafter, addText_concat, List.append_assoc]
      exact .behind (parted.appendText more)
    · obtain ⟨back', hadd⟩ := exists_addText hback more
      have hnode := hadd label whole (front ++ [child]) tail
      have hafter :=
        hadd label whole (front ++ [{ child with tail := kept }, { mark with tail := rest }]) tail
      simp only [List.append_assoc, List.cons_append, List.nil_append] at hnode hafter
      rw [hnode, hafter]
      exact .behind parted
  | @inside label whole part text tail child child' front back inserted =>
    by_cases hback : back = []
    · subst hback
      rw [addText_concat, addText_concat, inserted.tail_eq]
      exact .inside (inserted.withTail _)
    · obtain ⟨back', hadd⟩ := exists_addText hback more
      have hnode := hadd label text (front ++ [child]) tail
      have hafter := hadd label text (front ++ [child']) tail
      simp only [List.append_assoc, List.cons_append, List.nil_append] at hnode hafter
      rw [hnode, hafter]
      exact .inside inserted

/-- Text that goes to an element without children goes on behind the node that parts its text. -/
theorem Inserted.addText_nil (h : Inserted mark whole part node after) (hnil : node.children = [])
    (more : List Char) :
    Inserted mark (appendText whole more) part (node.addText more) (after.addText more) := by
  cases h with
  | @first label whole part rest tail children parted =>
    obtain rfl : children = [] := hnil
    exact .first (parted.appendText more)
  | behind => exact absurd hnil (List.append_ne_nil_of_right_ne_nil _ (List.cons_ne_nil _ _))
  | inside => exact absurd hnil (List.append_ne_nil_of_right_ne_nil _ (List.cons_ne_nil _ _))

end Inserted

/-! ## Growing -/

/-- The open elements without and with `mark`. When this is settled, the text `whole` does not go
on: the element has a child, or another one is open inside it. -/
inductive Held (mark : Node) (whole part : Option String) : Bool → List Frame → List Frame → Prop
  | top {settled : Bool} {tag : TagName} {node node' : Node} {scope : Scope} {back : List Frame}
      (inserted : Inserted mark whole part node node')
      (children : settled = true → node.children ≠ []) :
      Held mark whole part settled (⟨tag, node, scope⟩ :: back) (⟨tag, node', scope⟩ :: back)
  | under {settled : Bool} {frame : Frame} {frames frames' : List Frame}
      (held : Held mark whole part settled frames frames') :
      Held mark whole part true (frame :: frames) (frame :: frames')

theorem children_addChild_ne_nil (node child : Node) : (node.addChild child).children ≠ [] :=
  List.append_ne_nil_of_right_ne_nil _ (List.cons_ne_nil _ _)

theorem children_addText_ne_nil {node : Node} (hne : node.children ≠ []) (more : List Char) :
    (node.addText more).children ≠ [] := by
  unfold Node.addText
  split
  · exact List.append_ne_nil_of_right_ne_nil _ (List.cons_ne_nil _ _)
  · exact hne

section Held

variable {mark : Node} {whole part : Option String} {settled : Bool} {frames frames' : List Frame}
  {dtd : Dtd}

theorem Held.scope_eq (h : Held mark whole part settled frames frames') :
    Growth.scope ⟨frames', none⟩ = Growth.scope ⟨frames, none⟩ := by
  cases h <;> rfl

/-- Another child is placed in both. -/
theorem Held.place (h : Held mark whole part settled frames frames') (child : Node) :
    ∃ next next', Growth.place child frames = ⟨next, none⟩ ∧
      Growth.place child frames' = ⟨next', none⟩ ∧ Held mark whole part true next next' := by
  cases h with
  | top inserted =>
    exact ⟨_, _, rfl, rfl, .top (inserted.addChild child) fun _ => children_addChild_ne_nil _ _⟩
  | under held => exact ⟨_, _, rfl, rfl, .under held⟩

/-- **Text** makes the text longer that is parted, unless that is settled. -/
theorem Held.addText (dtd : Dtd) (h : Held mark whole part settled frames frames')
    (cs : List Char) :
    ∃ whole' next next', grow dtd ⟨frames, none⟩ (.text cs) = some ⟨next, none⟩ ∧
      grow dtd ⟨frames', none⟩ (.text cs) = some ⟨next', none⟩ ∧
      Held mark whole' part settled next next' ∧ (settled = true → whole' = whole) := by
  cases h with
  | @top _ tag node node' scope back inserted children =>
    by_cases hnil : node.children = []
    · refine ⟨_, _, _, rfl, rfl, .top (inserted.addText_nil hnil cs) ?_, ?_⟩
      · exact fun hsettled => absurd hnil (children hsettled)
      · exact fun hsettled => absurd hnil (children hsettled)
    · exact ⟨whole, _, _, rfl, rfl,
        .top (inserted.addText hnil cs) fun _ => children_addText_ne_nil hnil cs, fun _ => rfl⟩
  | under held => exact ⟨whole, _, _, rfl, rfl, .under held, fun _ => rfl⟩

/-- An end tag that does not close the root. -/
theorem Held.close (h : Held mark whole part settled frames frames') {name : TagName}
    {next : Growth} (hgrow : grow dtd ⟨frames, none⟩ (.finish name) = some next)
    (hopen : next.frames ≠ []) :
    ∃ next', grow dtd ⟨frames', none⟩ (.finish name) = some ⟨next', none⟩ ∧
      next.root = none ∧ Held mark whole part true next.frames next' := by
  cases h with
  | @top _ tag node node' scope back inserted =>
    dsimp only [grow] at hgrow ⊢
    split at hgrow
    case isFalse => cases hgrow
    case isTrue htag =>
      cases hgrow
      rw [if_pos htag]
      cases back with
      | nil => exact absurd rfl hopen
      | cons frame back =>
        -- the element becomes the last child of the one around it
        exact ⟨_, rfl, rfl, .top (.inside inserted) fun _ => children_addChild_ne_nil _ _⟩
  | @under _ frame frames frames' held =>
    dsimp only [grow] at hgrow ⊢
    split at hgrow
    case isFalse => cases hgrow
    case isTrue htag =>
      cases hgrow
      rw [if_pos htag]
      obtain ⟨next, next', hnext, hnext', hheld⟩ := held.place frame.node
      rw [hnext, hnext']
      exact ⟨next', rfl, rfl, hheld⟩

/-- A start tag opens or places the same element. -/
theorem Held.opened (h : Held mark whole part settled frames frames') {tag : StartTag}
    {next : Growth} (hgrow : grow dtd ⟨frames, none⟩ (.start tag) = some next) :
    ∃ next', grow dtd ⟨frames', none⟩ (.start tag) = some ⟨next', none⟩ ∧
      next.root = none ∧ Held mark whole part true next.frames next' := by
  obtain ⟨⟨scope, label⟩, hopened, hread⟩ := Option.bind_eq_some_iff.mp hgrow
  have hopened' : openElement dtd (Growth.scope ⟨frames', none⟩) tag = some (scope, label) := by
    rw [h.scope_eq]
    exact hopened
  have hgrow' : grow dtd ⟨frames', none⟩ (.start tag)
      = if tag.closed then some (Growth.place ⟨label, none, [], none⟩ frames')
        else some ⟨⟨tag.name, ⟨label, none, [], none⟩, scope⟩ :: frames', none⟩ := by
    show Option.bind (openElement dtd (Growth.scope ⟨frames', none⟩) tag) _ = _
    rw [hopened']
    rfl
  dsimp only at hread
  split at hread
  case isTrue hclosed =>
    cases hread
    obtain ⟨next, next', hnext, hnext', hheld⟩ := h.place ⟨label, none, [], none⟩
    rw [hgrow', if_pos hclosed, hnext, hnext']
    exact ⟨next', rfl, rfl, hheld⟩
  case isFalse hclosed =>
    cases hread
    rw [hgrow', if_neg hclosed]
    exact ⟨_, rfl, rfl, .under h⟩

/-- **One part of the content** keeps the open elements so, and only text makes the text longer
that is parted. -/
theorem Held.step (h : Held mark whole part settled frames frames') {piece : Piece} {next : Growth}
    (hgrow : grow dtd ⟨frames, none⟩ piece = some next) (hopen : next.frames ≠ []) :
    ∃ whole' settled' next', grow dtd ⟨frames', none⟩ piece = some ⟨next', none⟩ ∧
      next.root = none ∧ Held mark whole' part settled' next.frames next' ∧
      (settled = true ∨ (∀ cs, piece ≠ .text cs) → settled' = true ∧ whole' = whole) := by
  have hplace : ∀ child : Node, grow dtd ⟨frames, none⟩ piece = some (Growth.place child frames) →
      grow dtd ⟨frames', none⟩ piece = some (Growth.place child frames') →
      ∃ next', grow dtd ⟨frames', none⟩ piece = some ⟨next', none⟩ ∧
        next.root = none ∧ Held mark whole part true next.frames next' := by
    intro child hchild hchild'
    obtain ⟨placed, placed', hplaced, hplaced', hheld⟩ := h.place child
    rw [hgrow, hplaced] at hchild
    rw [hplaced'] at hchild'
    cases hchild
    exact ⟨placed', hchild', rfl, hheld⟩
  have hsettle : (∃ next', grow dtd ⟨frames', none⟩ piece = some ⟨next', none⟩ ∧
        next.root = none ∧ Held mark whole part true next.frames next') →
      ∃ whole' settled' next', grow dtd ⟨frames', none⟩ piece = some ⟨next', none⟩ ∧
        next.root = none ∧ Held mark whole' part settled' next.frames next' ∧
        (settled = true ∨ (∀ cs, piece ≠ .text cs) → settled' = true ∧ whole' = whole) := by
    rintro ⟨next', hnext', hroot, hheld⟩
    exact ⟨whole, true, next', hnext', hroot, hheld, fun _ => ⟨rfl, rfl⟩⟩
  cases piece with
  | start tag => exact hsettle (h.opened hgrow)
  | finish name => exact hsettle (h.close hgrow hopen)
  | text cs =>
    obtain ⟨whole', next, next', hnext, hnext', hheld, hwhole⟩ := h.addText dtd cs
    rw [hgrow] at hnext
    cases hnext
    refine ⟨whole', settled, next', hnext', rfl, hheld, fun hquiet => ?_⟩
    rcases hquiet with hsettled | hother
    · exact ⟨hsettled, hwhole hsettled⟩
    · exact absurd rfl (hother cs)
  | comment cs =>
    refine hsettle (hplace ⟨.comment, some (String.ofList cs), [], none⟩ ?_ ?_)
    · cases h <;> rfl
    · cases h <;> rfl
  | instruction target data =>
    refine hsettle (hplace ⟨.instruction, some (String.ofList
      (if data.isEmpty then target else target ++ ' ' :: data)), [], none⟩ ?_ ?_)
    · cases h <;> rfl
    · cases h <;> rfl
  | entity name => cases hgrow

/-! ## All content -/

/-- An entity opens and closes its own tags, so that what is around it stays open. -/
theorem within_append_of_tagsFit {rest : List Piece} {depth : Nat}
    (hrest : Within (depth + 1) rest) : ∀ {part : List Piece} {tags : List TagName},
    tagsFit tags part = true →
      Within (tags.length + (depth + 1)) (part ++ rest)
  | [], tags, hfit => by
    obtain rfl : tags = [] := List.isEmpty_iff.mp (by rw [tagsFit] at hfit; exact hfit)
    rw [List.length_nil, Nat.zero_add]
    exact hrest
  | piece :: part, tags, hfit => by
    cases piece with
    | start tag =>
      rw [tagsFit] at hfit
      have hmore := within_append_of_tagsFit hrest hfit
      have hstep : (Piece.start tag).depthAfter? (tags.length + (depth + 1))
          = some ((if tag.closed then tags else tag.name :: tags).length + (depth + 1)) := by
        show some (if tag.closed then _ else _) = _
        split
        · rfl
        · rw [List.length_cons, Nat.add_right_comm]
      exact .cons hstep (Nat.succ_ne_zero _) hmore
    | finish name =>
      cases tags with
      | nil =>
        rw [tagsFit] at hfit
        cases hfit
      | cons tag tags =>
        rw [tagsFit] at hfit
        have hmore := within_append_of_tagsFit hrest (Bool.and_eq_true_iff.mp hfit).2
        have hstep : (Piece.finish name).depthAfter? ((tag :: tags).length + (depth + 1))
            = some (tags.length + (depth + 1)) := by
          unfold Piece.depthAfter?
          dsimp only
          rw [List.length_cons, if_neg (by omega)]
          exact congrArg some (by omega)
        exact .cons hstep (Nat.succ_ne_zero _) hmore
    | _ =>
      have hothers : tagsFit tags part = true := by
        cases tags <;> exact hfit
      exact .cons rfl (Nat.succ_ne_zero _) (within_append_of_tagsFit hrest hothers)

/-- What is read inside the root stays inside it when entities are replaced. -/
theorem Within.expand {depth : Nat} {pieces whole : List Piece} (h : Within depth pieces)
    (hexpands : Expands pieces whole) (hdepth : depth ≠ 0) : Within depth whole := by
  induction h generalizing whole with
  | nil =>
    cases hexpands
    exact .nil
  | @cons depth depth' piece pieces step inside _ ih =>
    cases hexpands with
    | keep hrest => exact .cons step inside (ih hrest inside)
    | entity hfit hrest =>
      obtain rfl : depth = depth' := Option.some.inj step
      obtain ⟨depth, rfl⟩ := Nat.exists_eq_add_one_of_ne_zero hdepth
      have hall := within_append_of_tagsFit (ih hrest inside) hfit
      rwa [List.length_nil, Nat.zero_add] at hall

/-- **What is read inside the root** keeps the open elements so, down to the root. -/
theorem Held.run {depth : Nat} {pieces : List Piece} (hwithin : Within depth pieces)
    (h : Held mark whole part settled frames frames') (hdepth : frames.length = depth)
    {growth : Growth} (hgrow : pieces.foldlM (grow dtd) ⟨frames, none⟩ = some growth) :
    ∃ whole' settled' next', pieces.foldlM (grow dtd) ⟨frames', none⟩ = some ⟨next', none⟩ ∧
      growth.root = none ∧ growth.frames.length = 1 ∧
      Held mark whole' part settled' growth.frames next' ∧
      (settled = true ∨ (∀ cs, pieces.head? ≠ some (.text cs)) → whole' = whole) := by
  induction hwithin generalizing whole settled frames frames' with
  | nil =>
    cases hgrow
    exact ⟨whole, settled, frames', rfl, rfl, hdepth, h, fun _ => rfl⟩
  | @cons depth depth' piece pieces step inside _ ih =>
    rw [List.foldlM_cons] at hgrow
    obtain ⟨⟨next, root⟩, hnext, hrest⟩ := Option.bind_eq_some_iff.mp hgrow
    have hlength : next.length = depth' := by
      have hstep := (tagStep_of_grow hnext).depthAfter?_eq
      simp only [Growth.tags, List.length_map] at hstep
      rw [hdepth] at hstep
      exact Option.some.inj (hstep.symm.trans step)
    have hopen : next ≠ [] := fun hnil => inside (by rw [← hlength, hnil]; rfl)
    obtain ⟨whole', settled', next', hnext', hroot, hheld, hsettle⟩ := h.step hnext hopen
    obtain rfl : root = none := hroot
    obtain ⟨whole'', settled'', last, hlast, hroot, hone, hheld, hwhole⟩ := ih hheld hlength hrest
    refine ⟨whole'', settled'', last, ?_, hroot, hone, hheld, fun hquiet => ?_⟩
    · rw [List.foldlM_cons, hnext']
      exact hlast
    · have hother : settled = true ∨ ∀ cs, piece ≠ .text cs := by
        refine hquiet.imp_right fun hfirst cs heq => hfirst cs ?_
        rw [heq]
        rfl
      obtain ⟨hsettled, hsame⟩ := hsettle hother
      exact (hwhole (.inl hsettled)).trans hsame

/-- **The root** that is closed at last has the node put into it. -/
theorem Held.exists_root {depth : Nat} {pieces : List Piece} (hwithin : Within depth pieces)
    (h : Held mark whole part settled frames frames') (hdepth : frames.length = depth)
    {name : TagName} {growth : Growth} {root : Node}
    (hgrow : (pieces ++ [Piece.finish name]).foldlM (grow dtd) ⟨frames, none⟩ = some growth)
    (hroot : growth.root = some root) :
    ∃ whole' marked, (pieces ++ [Piece.finish name]).foldlM (grow dtd) ⟨frames', none⟩
        = some ⟨[], some marked⟩ ∧ Inserted mark whole' part root marked ∧
      (settled = true ∨ (∀ cs, pieces.head? ≠ some (.text cs)) → whole' = whole) := by
  rw [List.foldlM_append] at hgrow ⊢
  obtain ⟨⟨inner, none?⟩, hinner, hlast⟩ := Option.bind_eq_some_iff.mp hgrow
  obtain ⟨whole', settled', next', hnext', hnone, hone, hheld, hwhole⟩ :=
    h.run hwithin hdepth hinner
  obtain rfl : none? = none := hnone
  rw [hnext']
  have hclose : grow dtd ⟨inner, none⟩ (.finish name) = some growth := by
    rw [List.foldlM_cons] at hlast
    obtain ⟨last, hfinish, hend⟩ := Option.bind_eq_some_iff.mp hlast
    cases hend
    exact hfinish
  cases hheld with
  | @top _ tag node node' scope back inserted =>
    obtain rfl : back = [] := List.length_eq_zero_iff.mp (Nat.succ.inj hone)
    dsimp only [grow] at hclose
    split at hclose
    case isFalse => cases hclose
    case isTrue htag =>
      cases hclose
      cases hroot
      refine ⟨whole', node', ?_, inserted, hwhole⟩
      show Option.bind (if tag = name then _ else _) _ = _
      rw [if_pos htag]
      rfl
  | @under _ frame frames frames' held =>
    have hnil : frames = [] := List.length_eq_zero_iff.mp (Nat.succ.inj hone)
    rw [hnil] at held
    cases held

end Held

end Rollout.Xml
