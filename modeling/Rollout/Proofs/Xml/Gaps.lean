import Rollout.Proofs.Xml.Front
import Rollout.Proofs.Xml.Inserted

/-!
# Comments and instructions that are put into a document

Where an element is open, a comment or an instruction may be put between two parts of the content
or into a run of plain text. The document that has it is read, too, and its tree is the same but for
the one node.

- `Remark`: a comment or an instruction as it is written.
- `Gap`: the places where one may stand; `gap_iff`: those where one is scanned.
- `Parting`: what it does to the parts that are scanned; `exists_parting`.
- `Reading.exists_inserted`: **the document with it** is read as the tree with it.
-/

namespace Rollout.Xml

/-! ## Parts one after the other -/

section Scans

variable {depth depth' : Nat} {cs mid rest : List Char} {pieces : List Piece} {last : Piece}

/-- What is scanned as a root are parts that leave an element open and one that closes it. -/
theorem exists_scans_of_scanRoot : ∀ {fuel depth : Nat} {cs rest : List Char} {pieces : List Piece},
    scanRoot fuel depth cs = some (pieces, rest) → ∃ inner last depth' mid,
      pieces = inner ++ [last] ∧ Scans depth cs inner depth' mid ∧
      scanPiece mid = some (last, rest) ∧ last.depthAfter? depth' = some 0
  | 0, _, _, _, _, h => nomatch h
  | fuel + 1, depth, cs, rest, pieces, h => by
    rw [scanRoot] at h
    obtain ⟨⟨piece, mid⟩, hpiece, hread⟩ := Option.bind_eq_some_iff.mp h
    obtain ⟨next, hstep, hrest⟩ := Option.bind_eq_some_iff.mp hread
    dsimp only at hrest
    split at hrest
    case isTrue hzero =>
      subst hzero
      cases hrest
      exact ⟨[], piece, depth, cs, rfl, .refl, hpiece, hstep⟩
    case isFalse hinside =>
      obtain ⟨⟨others, more⟩, hothers, hfinal⟩ := Option.bind_eq_some_iff.mp hrest
      cases hfinal
      obtain ⟨next, rfl⟩ := Nat.exists_eq_add_one_of_ne_zero hinside
      obtain ⟨inner, last, depth', stop, rfl, hscans, hlast, hclosed⟩ :=
        exists_scans_of_scanRoot hothers
      exact ⟨piece :: inner, last, depth', stop, rfl, .step hpiece hstep hscans, hlast, hclosed⟩

/-- Parts are scanned whatever follows them, but that a run of text goes on as long as it can. -/
theorem Scans.append (h : Scans depth cs pieces depth' rest) :
    ∃ used, cs = used ++ rest ∧ ∀ rest', (StopsAt isPlain rest → StopsAt isPlain rest') →
      Scans depth (used ++ rest') pieces depth' rest' := by
  induction h with
  | refl => exact ⟨[], rfl, fun rest' _ => .refl⟩
  | step scan nested _ ih =>
    obtain ⟨used', rfl, hmore⟩ := ih
    obtain ⟨used, rfl, hscan⟩ := scanPiece_append scan
    refine ⟨used ++ used', by simp, fun rest' hstop => ?_⟩
    rw [List.append_assoc]
    refine .step (hscan (used' ++ rest') fun hfirst => ?_) nested (hmore rest' hstop)
    cases used' with
    | nil => exact hstop hfirst
    | cons => exact stopsAt_cons.mpr (stopsAt_cons.mp hfirst)

/-- Parts in front of some text are the same in front of another text. -/
theorem Scans.replace {front run back back' : List Char}
    (h : Scans depth (front ++ back) pieces depth' (run ++ back))
    (hstop : StopsAt isPlain (run ++ back) → StopsAt isPlain (run ++ back')) :
    Scans depth (front ++ back') pieces depth' (run ++ back') := by
  obtain ⟨used, hused, hscans⟩ := h.append
  obtain rfl : front = used ++ run :=
    List.append_cancel_right (hused.trans (List.append_assoc ..).symm)
  rw [List.append_assoc used]
  exact hscans _ hstop

theorem Scans.concat_cases (h : Scans depth cs (pieces ++ [last]) depth' rest) :
    ∃ next mid, Scans depth cs pieces next mid ∧ scanPiece mid = some (last, rest) ∧
      last.depthAfter? next = some depth' := by
  generalize hall : pieces ++ [last] = all at h
  induction h generalizing pieces with
  | refl => exact absurd hall (List.append_ne_nil_of_right_ne_nil _ (List.cons_ne_nil _ _))
  | @step depth next _ first others cs mid rest scan nested more ih =>
    cases pieces with
    | nil =>
      cases hall
      cases more
      exact ⟨depth, cs, .refl, scan, nested⟩
    | cons piece pieces =>
      obtain ⟨rfl, hothers⟩ := List.cons.inj hall
      obtain ⟨stop, mid', hscans, hlast, hstep⟩ := ih hothers
      exact ⟨stop, mid', .step scan nested hscans, hlast, hstep⟩

/-- What is scanned first is the beginning of all that is scanned up to the end of the root. -/
theorem Scans.split {depth'' : Nat} {stop : List Char} {all : List Piece}
    (h : Scans depth cs pieces depth' mid) (hall : Scans depth cs all depth'' stop)
    (hlast : scanPiece stop = some (last, rest)) (hclosed : last.depthAfter? depth'' = some 0) :
    ∃ more, all = pieces ++ more ∧ Scans depth' mid more depth'' stop := by
  induction h generalizing all with
  | refl => exact ⟨all, rfl, hall⟩
  | step scan nested _ ih =>
    cases hall with
    | refl =>
      -- the root would be closed already
      rw [scan] at hlast
      cases hlast
      rw [nested] at hclosed
      cases hclosed
    | step scan' nested' hall =>
      rw [scan] at scan'
      cases scan'
      rw [nested] at nested'
      cases nested'
      obtain ⟨more, rfl, hmore⟩ := ih hall
      exact ⟨more, rfl, hmore⟩

theorem Scans.depth_ne_zero (h : Scans depth cs pieces depth' rest) (hdepth : depth ≠ 0) :
    depth' ≠ 0 := by
  induction h with
  | refl => exact hdepth
  | step _ _ _ ih => exact ih (Nat.succ_ne_zero _)

/-- A start tag is scanned where an element begins. -/
theorem atStartTag_of_scanPiece {tag : StartTag} (h : scanPiece cs = some (.start tag, rest)) :
    atStartTag cs = true := by
  obtain ⟨used, rfl, hspelled⟩ := scanPiece_eq_some h
  cases hspelled with
  | start _ hname =>
    obtain ⟨c, more, hraw, hc⟩ := hname.exists_raw
    rw [hraw]
    exact hc

/-- What is scanned to the same parts begins with the start tag of a root, too. -/
theorem Scans.atStartTag {cs' rest' : List Char} {more : List Piece} {depth'' : Nat}
    (h : Scans 0 cs pieces (depth + 1) rest) (hroot : Xml.atStartTag cs = true)
    (h' : Scans 0 cs' (pieces ++ more) depth'' rest') : Xml.atStartTag cs' = true := by
  cases h with
  | step scan =>
    obtain ⟨tag, rfl⟩ := exists_start_of_atStartTag hroot scan
    cases h' with
    | step scan' => exact atStartTag_of_scanPiece scan'

theorem Scans.within (h : Scans depth cs pieces 1 rest) : Within depth pieces := by
  generalize hone : 1 = depth' at h
  induction h with
  | refl =>
    subst hone
    exact .nil
  | step _ nested _ ih => exact .cons nested (Nat.succ_ne_zero _) (ih hone)

end Scans

/-! ## Entities -/

section Expand

variable {dtd : Dtd} {depth : Nat}

theorem expandContent_append {front back whole : List Piece} :
    expandContent dtd (depth + 1) (front ++ back) = some whole ↔
      ∃ a b, expandContent dtd (depth + 1) front = some a ∧
        expandContent dtd (depth + 1) back = some b ∧ whole = a ++ b := by
  rw [expandContent, expandContent, expandContent, List.mapM_append]
  simp only [Option.bind_eq_bind, Option.bind_eq_some_iff, Option.pure_def, Option.some.injEq]
  constructor
  · rintro ⟨parts, ⟨a, ha, b, hb, rfl⟩, rfl⟩
    exact ⟨_, _, ⟨a, ha, rfl⟩, ⟨b, hb, rfl⟩, List.flatten_append⟩
  · rintro ⟨_, _, ⟨a, ha, rfl⟩, ⟨b, hb, rfl⟩, rfl⟩
    exact ⟨a ++ b, ⟨a, ha, b, hb, rfl⟩, List.flatten_append⟩

/-- Parts that are no entities stay as they are. -/
theorem expandContent_of_not_entity {pieces : List Piece}
    (h : ∀ piece ∈ pieces, ∀ name, piece ≠ .entity name) :
    expandContent dtd (depth + 1) pieces = some pieces := by
  induction pieces with
  | nil => rfl
  | cons piece pieces ih =>
    obtain ⟨hpiece, hpieces⟩ := List.forall_mem_cons.mp h
    have hfirst : expandContent dtd (depth + 1) [piece] = some [piece] := by
      cases piece with
      | entity name => exact absurd rfl (hpiece name)
      | _ => rfl
    exact expandContent_append.mpr ⟨[piece], pieces, hfirst, ih hpieces, rfl⟩

end Expand

/-! ## Open elements -/

section Open

variable {dtd : Dtd} {growth growth' : Growth}

/-- As long as an element is open there is no root. -/
theorem root_of_grow {piece : Piece} (h : grow dtd growth piece = some growth')
    (hopen : growth'.frames ≠ []) : growth'.root = none := by
  have hplace : ∀ (node : Node) (frames : List Frame), (Growth.place node frames).frames ≠ [] →
      (Growth.place node frames).root = none := by
    intro node frames hne
    cases frames with
    | nil => exact absurd rfl hne
    | cons => rfl
  obtain ⟨frames, root⟩ := growth
  cases piece with
  | start tag =>
    obtain ⟨⟨scope, label⟩, -, hread⟩ := Option.bind_eq_some_iff.mp h
    dsimp only at hread
    split at hread
    case isTrue =>
      cases hread
      exact hplace _ _ hopen
    case isFalse =>
      cases hread
      rfl
  | finish name =>
    cases frames with
    | nil => cases h
    | cons frame frames =>
      dsimp only [grow] at h
      split at h
      case isTrue =>
        cases h
        exact hplace _ _ hopen
      case isFalse => cases h
  | entity name => cases h
  | _ =>
    cases frames with
    | nil => cases h
    | cons frame frames =>
      cases h
      rfl

/-- Whether a part of the content ends a child of the element that is open behind it. -/
def Piece.endsChild : Piece → Bool
  | .start tag => tag.closed
  | .finish _ | .comment _ | .instruction _ _ => true
  | _ => false

theorem children_of_grow {piece : Piece} {frame : Frame} {frames : List Frame} {root : Option Node}
    (h : grow dtd growth piece = some ⟨frame :: frames, root⟩) (hchild : piece.endsChild = true) :
    frame.node.children ≠ [] := by
  have hplace : ∀ (node : Node) (others : List Frame),
      Growth.place node others = ⟨frame :: frames, root⟩ → frame.node.children ≠ [] := by
    intro node others hplaced
    cases others with
    | nil => cases hplaced
    | cons =>
      cases hplaced
      exact children_addChild_ne_nil _ _
  obtain ⟨others, before⟩ := growth
  cases piece with
  | start tag =>
    obtain ⟨⟨scope, label⟩, -, hread⟩ := Option.bind_eq_some_iff.mp h
    have hclosed : tag.closed = true := hchild
    dsimp only at hread
    rw [if_pos hclosed] at hread
    exact hplace _ _ (Option.some.inj hread)
  | finish name =>
    cases others with
    | nil => cases h
    | cons =>
      dsimp only [grow] at h
      split at h
      case isTrue => exact hplace _ _ (Option.some.inj h)
      case isFalse => cases h
  | comment | instruction =>
    cases others with
    | nil => cases h
    | cons => exact hplace _ _ (Option.some.inj h)
  | text | entity => cases hchild

/-- An element has a child where what was read ends one. -/
theorem children_of_expand {depth : Nat} {before whole : List Piece} {piece : Piece} {frame : Frame}
    {frames : List Frame} {root : Option Node}
    (hexpand : expandContent dtd (depth + 1) (before ++ [piece]) = some whole)
    (hgrow : whole.foldlM (grow dtd) growth = some ⟨frame :: frames, root⟩)
    (hchild : piece.endsChild = true) : frame.node.children ≠ [] := by
  obtain ⟨front, last, -, hlast, rfl⟩ := expandContent_append.mp hexpand
  have hself : expandContent dtd (depth + 1) [piece] = some [piece] := by
    refine expandContent_of_not_entity fun other hother name heq => ?_
    rw [List.mem_singleton.mp hother] at heq
    subst heq
    cases hchild
  rw [hself] at hlast
  cases hlast
  rw [List.foldlM_append] at hgrow
  obtain ⟨next, -, hnext⟩ := Option.bind_eq_some_iff.mp hgrow
  rw [List.foldlM_cons] at hnext
  obtain ⟨after, hafter, heq⟩ := Option.bind_eq_some_iff.mp hnext
  cases heq
  exact children_of_grow hafter hchild

theorem root_of_foldlM {pieces : List Piece} (h : pieces.foldlM (grow dtd) growth = some growth')
    (hopen : growth'.frames ≠ []) (hroot : growth.root = none) : growth'.root = none := by
  rcases List.eq_nil_or_concat' pieces with rfl | ⟨front, last, rfl⟩
  · cases h
    exact hroot
  · rw [List.foldlM_append] at h
    obtain ⟨before, -, hlast⟩ := Option.bind_eq_some_iff.mp h
    rw [List.foldlM_cons] at hlast
    obtain ⟨after, hafter, heq⟩ := Option.bind_eq_some_iff.mp hlast
    cases heq
    exact root_of_grow hafter hopen

/-- The tree has as many open elements as the scanner counts open tags. -/
theorem Scans.tags_length {depth depth' : Nat} {cs rest : List Char} {pieces whole : List Piece}
    (h : Scans depth cs pieces depth' rest) (hexpands : Expands pieces whole)
    (hgrow : whole.foldlM (grow dtd) growth = some growth') (hdepth : growth.tags.length = depth) :
    growth'.tags.length = depth' := by
  induction h generalizing whole growth with
  | refl =>
    cases hexpands
    cases hgrow
    exact hdepth
  | step _ nested _ ih =>
    cases hexpands with
    | keep hrest =>
      rw [List.foldlM_cons] at hgrow
      obtain ⟨next, hnext, hmore⟩ := Option.bind_eq_some_iff.mp hgrow
      have hstep := (tagStep_of_grow hnext).depthAfter?_eq
      rw [hdepth, nested] at hstep
      exact ih hrest hmore (Option.some.inj hstep).symm
    | entity hfit hrest =>
      rw [List.foldlM_append] at hgrow
      obtain ⟨next, hnext, hmore⟩ := Option.bind_eq_some_iff.mp hgrow
      have hsame := tags_of_tagsFit hfit hnext (List.nil_append _).symm
      rw [← hsame] at hdepth
      exact ih hrest hmore (hdepth.trans (Option.some.inj nested))

/-- What is scanned inside a root leaves elements open, and no root. -/
theorem Scans.exists_open {depth : Nat} {cs rest : List Char} {pieces whole : List Piece}
    (h : Scans 0 cs pieces (depth + 1) rest) (hexpands : Expands pieces whole)
    (hgrow : whole.foldlM (grow dtd) ⟨[], none⟩ = some growth) :
    ∃ frame frames, growth = ⟨frame :: frames, none⟩ ∧ (frame :: frames).length = depth + 1 := by
  have hlength := h.tags_length hexpands hgrow rfl
  rw [Growth.tags, List.length_map] at hlength
  obtain ⟨frames, root⟩ := growth
  obtain ⟨frame, frames, rfl⟩ : ∃ frame frames', frames = frame :: frames' := by
    refine List.exists_cons_of_ne_nil fun hnil => ?_
    rw [hnil] at hlength
    cases hlength
  obtain rfl : root = none := root_of_foldlM hgrow (List.cons_ne_nil _ _) rfl
  exact ⟨frame, frames, rfl, hlength⟩

end Open

/-! ## Comments and instructions -/

/-- The node of a comment or an instruction. -/
def Piece.remark? : Piece → Option Node
  | .comment cs => some ⟨.comment, some (String.ofList cs), [], none⟩
  | .instruction target data =>
    some ⟨.instruction,
      some (String.ofList (if data.isEmpty then target else target ++ ' ' :: data)), [], none⟩
  | _ => none

/-- A comment or an instruction as it is written, and its node. -/
structure Remark (mark : List Char) (node : Node) : Prop where
  legal : Legal mark
  scan : ∃ piece, scanPiece mark = some (piece, []) ∧ piece.remark? = some node

section Remark

variable {piece : Piece} {node : Node}

theorem remark?_cases (h : piece.remark? = some node) :
    (∃ cs, piece = .comment cs) ∨ ∃ target data, piece = .instruction target data := by
  cases piece with
  | comment cs => exact .inl ⟨cs, rfl⟩
  | instruction target data => exact .inr ⟨target, data, rfl⟩
  | _ => cases h

theorem name?_of_remark? (h : piece.remark? = some node) : node.name? = none := by
  rcases remark?_cases h with ⟨cs, rfl⟩ | ⟨target, data, rfl⟩
  · cases h
    rfl
  · cases h
    rfl

theorem depthAfter?_of_remark? (h : piece.remark? = some node) (depth : Nat) :
    piece.depthAfter? depth = some depth := by
  rcases remark?_cases h with ⟨cs, rfl⟩ | ⟨target, data, rfl⟩ <;> rfl

/-- It becomes a child of the element that is open. -/
theorem grow_of_remark? (h : piece.remark? = some node) (dtd : Dtd) (frame : Frame)
    (frames : List Frame) : grow dtd ⟨frame :: frames, none⟩ piece
      = some ⟨{ frame with node := frame.node.addChild node } :: frames, none⟩ := by
  rcases remark?_cases h with ⟨cs, rfl⟩ | ⟨target, data, rfl⟩
  · cases h
    rfl
  · cases h
    rfl

/-- It is scanned whatever follows it, and it ends a run of text. -/
theorem scanPiece_of_remark? {mark : List Char} (hscan : scanPiece mark = some (piece, []))
    (h : piece.remark? = some node) (rest : List Char) :
    scanPiece (mark ++ rest) = some (piece, rest) ∧ StopsAt isPlain (mark ++ rest) := by
  obtain ⟨after, rfl⟩ : ∃ after, mark = '<' :: after := by
    obtain ⟨used, hused, hspelled⟩ := scanPiece_eq_some hscan
    rw [List.append_nil] at hused
    subst hused
    rcases remark?_cases h with ⟨cs, rfl⟩ | ⟨target, data, rfl⟩
    · cases hspelled
      exact ⟨_, rfl⟩
    · cases hspelled
      exact ⟨_, rfl⟩
  obtain ⟨used, hused, hmarkup⟩ := scanMarkup_closes hscan
  rw [List.append_nil] at hused
  subst hused
  exact ⟨hmarkup rest, stopsAt_cons.mpr (by decide)⟩

end Remark

/-! ## Parts and trees -/

/-- What a remark does to the parts of the content: it comes between two of them, at the end of a
text, or it parts a text. -/
inductive Parting (remark : Piece) : Bool → List Piece → List Piece → Prop
  | between : Parting remark true [] [remark]
  | behind {cs : List Char} : Parting remark true [.text cs] [.text cs, remark]
  | inside {whole part more : List Char} (parted : part <+: whole) :
      Parting remark false [.text whole] [.text part, remark, .text more]

theorem Parting.not_entity {remark : Piece} {settled : Bool} {pieces pieces' : List Piece}
    (h : Parting remark settled pieces pieces') :
    (∀ piece ∈ pieces, ∀ name, piece ≠ .entity name) ∧ ∀ {node : Node}, remark.remark? = some node →
      ∀ piece ∈ pieces', ∀ name, piece ≠ .entity name := by
  have hremark : ∀ {node : Node}, remark.remark? = some node → ∀ name, remark ≠ .entity name := by
    rintro node hremark name rfl
    cases hremark
  cases h <;> simp_all

/-- A node that is placed behind a part of a text. -/
theorem inserted_addText {part whole : List Char} (h : part <+: whole) (node mark : Node)
    (rest : Option String) : ∃ text kept, Inserted mark text kept (node.addText whole)
        ((node.addText part).addChild { mark with tail := rest }) ∧
      (part = whole ∨ node.children ≠ [] → kept = text) := by
  have hparted : ∀ text : Option String,
      TextPrefix (appendText text whole) (appendText text part) := by
    intro text
    unfold TextPrefix
    rw [getD_appendText, getD_appendText]
    exact (List.prefix_append_right_inj _).mpr h
  obtain ⟨label, text, children, tail⟩ := node
  rcases List.eq_nil_or_concat' children with rfl | ⟨front, last, rfl⟩
  · exact ⟨appendText text whole, appendText text part, .first (hparted text),
      fun hsame => by rw [hsame.resolve_right fun hne => hne rfl]⟩
  · refine ⟨text, text, ?_, fun _ => rfl⟩
    rw [addText_concat, addText_concat]
    unfold Node.addChild
    dsimp only
    rw [List.append_assoc]
    exact @Inserted.behind _ _ _ _ _ _ { last with tail := appendText last.tail whole } front []
      (hparted last.tail)

/-- **The element that is open** has the node put into it, and its text is the same unless the node
parts it. -/
theorem Parting.exists_inserted {piece : Piece} {mark : Node} {quiet : Bool}
    {pieces pieces' : List Piece} (h : Parting piece quiet pieces pieces')
    (hremark : piece.remark? = some mark) (dtd : Dtd) (frame : Frame) (frames : List Frame) :
    ∃ text kept node node', Inserted mark text kept node node' ∧
      (quiet = true ∨ frame.node.children ≠ [] → kept = text) ∧
      (frame.node.children ≠ [] → node.children ≠ []) ∧
      pieces.foldlM (grow dtd) ⟨frame :: frames, none⟩
        = some ⟨{ frame with node := node } :: frames, none⟩ ∧
      pieces'.foldlM (grow dtd) ⟨frame :: frames, none⟩
        = some ⟨{ frame with node := node' } :: frames, none⟩ := by
  have htext : ∀ (frame : Frame) (cs : List Char), grow dtd ⟨frame :: frames, none⟩ (.text cs)
      = some ⟨{ frame with node := frame.node.addText cs } :: frames, none⟩ := fun _ _ => rfl
  have hmark : { mark with tail := none } = mark := by
    rcases remark?_cases hremark with ⟨cs, rfl⟩ | ⟨target, data, rfl⟩ <;> cases hremark <;> rfl
  have hplaced := fun frame => grow_of_remark? hremark dtd frame frames
  cases h with
  | between =>
    obtain ⟨text, kept, hinserted, hkept⟩ :=
      inserted_addText (List.prefix_refl []) frame.node mark none
    rw [addText_nil, hmark] at hinserted
    refine ⟨text, kept, frame.node, _, hinserted, fun _ => hkept (.inl rfl), id, rfl, ?_⟩
    rw [List.foldlM_cons, hplaced]
    rfl
  | @behind cs =>
    obtain ⟨text, kept, hinserted, hkept⟩ :=
      inserted_addText (List.prefix_refl cs) frame.node mark none
    rw [hmark] at hinserted
    refine ⟨text, kept, _, _, hinserted, fun _ => hkept (.inl rfl),
      fun hne => children_addText_ne_nil hne cs, ?_, ?_⟩
    · rw [List.foldlM_cons, htext]
      rfl
    · rw [List.foldlM_cons, htext]
      show Option.bind (grow dtd _ piece) _ = _
      rw [hplaced]
      rfl
  | @inside whole part more parted =>
    obtain ⟨text, kept, hinserted, hkept⟩ :=
      inserted_addText parted frame.node mark (appendText none more)
    refine ⟨text, kept, _, _, hinserted, fun hsame => hkept (hsame.imp_left nofun),
      fun hne => children_addText_ne_nil hne whole, ?_, ?_⟩
    · rw [List.foldlM_cons, htext]
      rfl
    · have hadd : ((frame.node.addText part).addChild mark).addText more
          = (frame.node.addText part).addChild { mark with tail := appendText none more } := by
        rw [← hmark]
        exact addText_addChild _ _ _ _ _
      rw [List.foldlM_cons, htext]
      show Option.bind (grow dtd _ piece) _ = _
      rw [hplaced]
      show List.foldlM (grow dtd) ⟨{ frame with node := (frame.node.addText part).addChild mark }
        :: frames, none⟩ [.text more] = _
      rw [List.foldlM_cons, htext, ← hadd]
      rfl

/-! ## Places -/

/-- A comment or an instruction may stand between the two texts: an element is open there, and what
is scanned ends there or in a run of plain text. -/
def Gap (front back : List Char) : Prop :=
  ∃ pieces depth run, Scans 0 (front ++ back) pieces (depth + 1) (run ++ back) ∧
    ∀ c ∈ run, isPlain c = true

/-- In front of the place stands a child of the element, with or without plain text behind it. -/
def ChildLast (front back : List Char) : Prop :=
  ∃ pieces piece depth run, Scans 0 (front ++ back) (pieces ++ [piece]) (depth + 1) (run ++ back) ∧
    (∀ c ∈ run, isPlain c = true) ∧ piece.endsChild = true

/-- What follows is a tag, a comment or an instruction. -/
def MarkupFirst (cs : List Char) : Prop :=
  ∃ piece rest, scanPiece cs = some (piece, rest) ∧ (∀ text, piece ≠ .text text) ∧
    ∀ name, piece ≠ .entity name

/-- Where a line end is parted, what stands in front of it is read as before. -/
theorem prefix_unifyNewlineChars_append (a more : List Char) :
    Text.unifyNewlineChars a <+: Text.unifyNewlineChars (a ++ more) := by
  induction a using Text.unifyNewlineChars.induct with
  | case1 a ih => exact List.cons_prefix_cons.mpr ⟨rfl, ih⟩
  | case2 a ha ih =>
    rw [unifyNewlineChars_return ha, List.cons_append]
    cases a with
    | nil =>
      -- the line feed that followed the carriage return belongs to the other part
      obtain ⟨rest, hrest⟩ := exists_unifyNewlineChars_return ([] ++ more)
      rw [hrest]
      exact List.cons_prefix_cons.mpr ⟨rfl, List.nil_prefix⟩
    | cons c a =>
      have hline : ∀ rest, c :: a ++ more ≠ '\n' :: rest := fun rest heq =>
        ha a (by rw [(List.cons.inj heq).1])
      rw [unifyNewlineChars_return hline]
      exact List.cons_prefix_cons.mpr ⟨rfl, ih⟩
  | case3 c a _ hc ih =>
    rw [List.cons_append, unifyNewlineChars_cons hc, unifyNewlineChars_cons hc]
    exact List.cons_prefix_cons.mpr ⟨rfl, ih⟩
  | case4 => exact List.nil_prefix

/-- A run of plain text is the front of a text, which goes on as long as it can. -/
theorem exists_middle {c : Char} {run back stop rest : List Char} {depth depth' : Nat}
    {all : List Piece} {last : Piece} (hrun : ∀ d ∈ c :: run, isPlain d = true)
    (hall : Scans (depth + 1) (c :: run ++ back) all depth' stop)
    (hlast : scanPiece stop = some (last, rest)) (hclosed : last.depthAfter? depth' = some 0) :
    ∃ middle mid others, back = middle ++ mid ∧
      all = .text (Text.unifyNewlineChars (c :: run ++ middle)) :: others ∧
      (∀ d ∈ middle, isPlain d = true) ∧ StopsAt isPlain mid ∧
      Text.occurs "]]>".toList (c :: run ++ middle) = false ∧
      Scans (depth + 1) mid others depth' stop := by
  obtain ⟨hc, hrun⟩ := List.forall_mem_cons.mp hrun
  cases hall with
  | refl =>
    -- a text does not close the root
    obtain ⟨more, -, -, -, -, rfl⟩ := (scanPiece_plain_iff hc).mp hlast
    cases hclosed
  | @step _ next _ first others _ mid _ scan nested hothers =>
    obtain ⟨text, htext, hplain, hend, hquiet, rfl⟩ := (scanPiece_plain_iff hc).mp scan
    obtain ⟨middle, rfl, rfl⟩ := exists_eq_append_of_run htext hrun hend
    cases nested
    exact ⟨middle, mid, others, rfl, rfl, (List.forall_mem_append.mp hplain).2, hend, hquiet,
      hothers⟩

/-- **What is scanned** where a remark is put is parted by it. -/
theorem exists_parting {mark : List Char} {node : Node} {piece : Piece}
    (hscan : scanPiece mark = some (piece, [])) (hremark : piece.remark? = some node)
    {depth depth' : Nat} {run back stop rest : List Char} {all : List Piece} {last : Piece}
    (hrun : ∀ c ∈ run, isPlain c = true) (hall : Scans (depth + 1) (run ++ back) all depth' stop)
    (hlast : scanPiece stop = some (last, rest)) (hclosed : last.depthAfter? depth' = some 0) :
    ∃ quiet pieces pieces' others mid, all = pieces ++ others ∧ Parting piece quiet pieces pieces' ∧
      Scans (depth + 1) mid others depth' stop ∧
      Scans (depth + 1) (run ++ (mark ++ back)) pieces' (depth + 1) mid ∧
      (MarkupFirst back → quiet = true ∧ back = mid) := by
  obtain ⟨hmark, hstop⟩ := scanPiece_of_remark? hscan hremark back
  have hnested : piece.depthAfter? (depth + 1) = some (depth + 1) :=
    depthAfter?_of_remark? hremark (depth + 1)
  cases run with
  | nil =>
    exact ⟨true, [], [piece], all, back, rfl, .between, hall, .single hmark hnested,
      fun _ => ⟨rfl, rfl⟩⟩
  | cons c run =>
    obtain ⟨middle, mid, others, rfl, rfl, hmiddle, hend, hquiet, hothers⟩ :=
      exists_middle hrun hall hlast hclosed
    obtain ⟨hc, hrun⟩ := List.forall_mem_cons.mp hrun
    have hquiet' : Text.occurs "]]>".toList (c :: run) = false :=
      occurs_of_infix hquiet (List.prefix_append (c :: run) middle).isInfix
    have hfront : scanPiece (c :: (run ++ (mark ++ (middle ++ mid))))
        = some (.text (Text.unifyNewlineChars (c :: run)), mark ++ (middle ++ mid)) :=
      (scanPiece_plain_iff hc).mpr ⟨run, rfl, hrun, hstop, hquiet', rfl⟩
    cases middle with
    | nil =>
      rw [List.append_nil]
      refine ⟨true, _, _, others, mid, rfl, .behind, hothers, ?_, fun _ => ⟨rfl, rfl⟩⟩
      exact .step hfront rfl (.single hmark hnested)
    | cons d middle =>
      obtain ⟨hd, hmiddle⟩ := List.forall_mem_cons.mp hmiddle
      have hquiet'' : Text.occurs "]]>".toList (d :: middle) = false :=
        occurs_of_infix hquiet (List.suffix_append (c :: run) (d :: middle)).isInfix
      have hback : scanPiece (d :: middle ++ mid)
          = some (.text (Text.unifyNewlineChars (d :: middle)), mid) :=
        (scanPiece_plain_iff hd).mpr ⟨middle, rfl, hmiddle, hend, hquiet'', rfl⟩
      refine ⟨false, _, _, others, mid, rfl,
        .inside (prefix_unifyNewlineChars_append (c :: run) (d :: middle)), hothers,
        .step hfront rfl (.step hmark hnested (.single hback rfl)), ?_⟩
      rintro ⟨other, more, hother, htext, -⟩
      rw [hback] at hother
      cases hother
      exact absurd rfl (htext _)

/-- What is scanned in front of a remark is scanned with it, too. -/
theorem scans_front {mark front back run : List Char} {node : Node} {depth : Nat}
    {first : List Piece} (hremark : Remark mark node)
    (hscans : Scans 0 (front ++ back) first (depth + 1) (run ++ back)) :
    Scans 0 (front ++ (mark ++ back)) first (depth + 1) (run ++ (mark ++ back)) := by
  obtain ⟨piece, hmark, hpiece⟩ := hremark.scan
  refine hscans.replace fun hback => ?_
  cases run with
  | nil => exact (scanPiece_of_remark? hmark hpiece back).2
  | cons => exact stopsAt_cons.mpr (stopsAt_cons.mp hback)

/-- Where something is scanned that is put between two texts there is a gap. -/
theorem gap_of_scans {mark front back : List Char} {depth : Nat} {pieces : List Piece}
    (hscans : Scans 0 (front ++ (mark ++ back)) pieces (depth + 1) (mark ++ back)) :
    Gap front back := by
  rcases List.eq_nil_or_concat' pieces with rfl | ⟨init, last, rfl⟩
  · cases hscans
  · obtain ⟨next, mid, hinit, hlast, hnested⟩ := hscans.concat_cases
    cases mid with
    | nil => exact absurd hlast nofun
    | cons c mid =>
      cases hc : isPlain c with
      | true =>
        -- the run of text that is cut off goes on behind the gap
        obtain ⟨run, rfl, hrun, -, -, rfl⟩ := (scanPiece_plain_iff hc).mp hlast
        obtain rfl : next = depth + 1 := Option.some.inj hnested
        have hfirst : Scans 0 (front ++ back) init (depth + 1) (c :: run ++ back) :=
          hinit.replace fun hstop => stopsAt_cons.mpr (stopsAt_cons.mp hstop)
        exact ⟨init, depth, c :: run, hfirst, List.forall_mem_cons.mpr ⟨hc, hrun⟩⟩
      | false =>
        obtain ⟨used, hused, hclosed⟩ := scanPiece_closes hc hlast
        rw [hused] at hinit
        have hfirst : Scans 0 (front ++ back) init next (used ++ back) := by
          refine hinit.replace fun _ => ?_
          cases used with
          | nil => exact absurd (hclosed []) nofun
          | cons d used =>
            obtain rfl := (List.cons.inj hused).1
            exact stopsAt_cons.mpr hc
        exact ⟨init ++ [last], depth, [], hfirst.trans (.single (hclosed back) hnested), nofun⟩

/-- **The gaps** of a document are the places inside its root where a remark is scanned as one. -/
theorem gap_iff {text : List Char} {root : Node} (r : Reading text root)
    {mark front back : List Char} {node : Node} (hremark : Remark mark node)
    (hroot : front ++ back = r.fromRoot) :
    Gap front back ↔ ∃ pieces depth,
      Scans 0 (front ++ (mark ++ back)) pieces (depth + 1) (mark ++ back) := by
  constructor
  · rintro ⟨first, depth, run, hscans, hrun⟩
    have hfront := scans_front hremark hscans
    cases run with
    | nil => exact ⟨first, depth, hfront⟩
    | cons c run =>
      have hscan := r.scan
      rw [← hroot] at hscan
      obtain ⟨all, last, depth', stop, -, hall, hlast, hclosed⟩ := exists_scans_of_scanRoot hscan
      obtain ⟨_, rfl, hbehind⟩ := hscans.split hall hlast hclosed
      obtain ⟨middle, -, -, -, -, -, -, hquiet, -⟩ := exists_middle hrun hbehind hlast hclosed
      obtain ⟨hc, hrun⟩ := List.forall_mem_cons.mp hrun
      obtain ⟨piece, hmark, hpiece⟩ := hremark.scan
      have htext : scanPiece (c :: (run ++ (mark ++ back)))
          = some (.text (Text.unifyNewlineChars (c :: run)), mark ++ back) :=
        (scanPiece_plain_iff hc).mpr ⟨run, rfl, hrun, (scanPiece_of_remark? hmark hpiece back).2,
          occurs_of_infix hquiet (List.prefix_append (c :: run) middle).isInfix, rfl⟩
      exact ⟨_, depth, hfront.trans (.single htext rfl)⟩
  · rintro ⟨pieces, depth, hscans⟩
    exact gap_of_scans hscans

/-- The parts of a root without and with a remark. What is scanned in front of it, `front`, leaves
an element open, and so does all that is scanned behind it, but for the end tag of the root. When
this is quiet, what comes next is no text. -/
structure Remarked (remark : Piece) (quiet : Prop) (front pieces pieces' : List Piece) : Prop where
  exists_parts : ∃ cs rest depth here here' back name settled,
    Scans 0 cs front (depth + 1) rest ∧ Parting remark settled here here' ∧
    Within (depth + 1) back ∧
    pieces = front ++ (here ++ (back ++ [.finish name])) ∧
    pieces' = front ++ (here' ++ (back ++ [.finish name])) ∧
    (quiet → settled = true ∧ ∀ piece ∈ back.head?, (∀ text, piece ≠ .text text) ∧
      ∀ name, piece ≠ .entity name)

/-- **The text of a root** with a remark is scanned to the parts without it and the remark. -/
theorem exists_remarked {front mark back run rest : List Char} {node : Node} {depth : Nat}
    {first pieces : List Piece} (hremark : Remark mark node)
    (hscans : Scans 0 (front ++ back) first (depth + 1) (run ++ back))
    (hrun : ∀ c ∈ run, isPlain c = true) (hroot : atStartTag (front ++ back) = true) {fuel : Nat}
    (hscan : scanRoot fuel 0 (front ++ back) = some (pieces, rest)) :
    ∃ remark pieces', remark.remark? = some node ∧
      Remarked remark (MarkupFirst back) first pieces pieces' ∧
      atStartTag (front ++ (mark ++ back)) = true ∧
      ∀ fuel, (front ++ (mark ++ back)).length < fuel →
        scanRoot fuel 0 (front ++ (mark ++ back)) = some (pieces', rest) := by
  obtain ⟨remark, hmark, hpiece⟩ := hremark.scan
  obtain ⟨all, last, depth', stop, rfl, hall, hlast, hclosed⟩ := exists_scans_of_scanRoot hscan
  obtain ⟨_, rfl, hbehind⟩ := hscans.split hall hlast hclosed
  obtain ⟨quiet, here, here', others, mid, rfl, hparting, hothers, hhere, hquiet⟩ :=
    exists_parting hmark hpiece hrun hbehind hlast hclosed
  obtain ⟨rfl, name, rfl⟩ :=
    depthAfter?_eq_zero hclosed (hothers.depth_ne_zero (Nat.succ_ne_zero _))
  have hinserted := (scans_front hremark hscans).trans (hhere.trans hothers)
  refine ⟨remark, first ++ (here' ++ others) ++ [.finish name], hpiece, ⟨?_⟩, ?_,
    hinserted.scanRoot_eq hlast hclosed⟩
  · refine ⟨_, _, depth, here, here', others, name, quiet, hscans, hparting, hothers.within,
      by simp, by simp, fun hmarkup => ?_⟩
    obtain ⟨hsettled, rfl⟩ := hquiet hmarkup
    refine ⟨hsettled, fun other hother => ?_⟩
    obtain ⟨piece, more, hpiece, htext, hentity⟩ := hmarkup
    cases hothers with
    | refl => cases hother
    | step scan =>
      cases hother
      rw [hpiece] at scan
      cases scan
      exact ⟨htext, hentity⟩
  · exact hscans.atStartTag hroot hinserted

/-- **The tree** of the parts with a remark is the tree without it and the node put into it. -/
theorem Remarked.exists_tree {remark : Piece} {mark root : Node} {quiet : Prop}
    {front pieces pieces' whole : List Piece} {dtd : Dtd} {depth : Nat}
    (h : Remarked remark quiet front pieces pieces') (hremark : remark.remark? = some mark)
    (hexpand : expandContent dtd (depth + 1) pieces = some whole)
    (hbuild : buildTree dtd whole = some root) :
    ∃ whole' marked text part, expandContent dtd (depth + 1) pieces' = some whole' ∧
      buildTree dtd whole' = some marked ∧ Inserted mark text part root marked ∧
      (quiet ∨ (∃ others piece, front = others ++ [piece] ∧ piece.endsChild = true) →
        part = text) := by
  obtain ⟨cs, rest, opened, here, here', back, name, settled, hscans, hparting, hwithin, rfl,
    rfl, hquiet⟩ := h.exists_parts
  obtain ⟨first, _, hfirst, hinner, rfl⟩ := expandContent_append.mp hexpand
  obtain ⟨middle, _, hmiddle, houter, rfl⟩ := expandContent_append.mp hinner
  obtain ⟨others, _, hothers, hfinish, rfl⟩ := expandContent_append.mp houter
  cases hfinish
  rw [expandContent_of_not_entity hparting.not_entity.1] at hmiddle
  cases hmiddle
  have hwhole : expandContent dtd (depth + 1) (front ++ (here' ++ (back ++ [.finish name])))
      = some (first ++ (here' ++ (others ++ [.finish name]))) :=
    expandContent_append.mpr ⟨_, _, hfirst, expandContent_append.mpr ⟨_, _,
      expandContent_of_not_entity (hparting.not_entity.2 hremark), houter, rfl⟩, rfl⟩
  obtain ⟨growth, hgrow, hroot⟩ := Option.bind_eq_some_iff.mp hbuild
  rw [List.foldlM_append] at hgrow
  obtain ⟨growth', hopen, hgrow⟩ := Option.bind_eq_some_iff.mp hgrow
  obtain ⟨frame, frames, rfl, hlength⟩ :=
    hscans.exists_open (expands_of_expandContent hfirst) hopen
  obtain ⟨text, kept, node, node', hinserted, hkept, hchildren, hhere, hhere'⟩ :=
    hparting.exists_inserted hremark dtd frame frames
  rw [List.foldlM_append, hhere] at hgrow
  have hheld : Held mark text kept (!frame.node.children.isEmpty)
      ({ frame with node := node } :: frames) ({ frame with node := node' } :: frames) :=
    .top hinserted fun hfilled => hchildren (by simpa using hfilled)
  have hexpands := expands_of_expandContent hothers
  obtain ⟨text', marked, hrun, hmarked, hsame⟩ :=
    hheld.exists_root (hwithin.expand hexpands (Nat.succ_ne_zero _)) hlength hgrow hroot
  refine ⟨_, marked, text', kept, hwhole, ?_, hmarked, fun hq => ?_⟩
  · unfold buildTree
    rw [List.foldlM_append, hopen]
    show Option.bind (List.foldlM (grow dtd) ⟨frame :: frames, none⟩ _) _ = _
    rw [List.foldlM_append, hhere']
    show Option.bind (List.foldlM (grow dtd) _ (others ++ [Piece.finish name])) _ = _
    rw [hrun]
    rfl
  · rcases hq with hq | ⟨before, piece, rfl, hchild⟩
    · obtain ⟨hsettled, hnext⟩ := hquiet hq
      rw [hkept (.inl hsettled)]
      refine (hsame (.inr fun cs hcs => ?_)).symm
      cases hexpands with
      | nil => cases hcs
      | keep =>
        cases hcs
        exact (hnext _ rfl).1 cs rfl
      | entity => exact (hnext _ rfl).2 _ rfl
    · have hfilled : frame.node.children ≠ [] := children_of_expand hfirst hopen hchild
      rw [hkept (.inr hfilled)]
      exact (hsame (.inl (by simpa using hfilled))).symm

/-- **The document** with a comment or an instruction put into it is read as the tree with its node
put into it. Behind a child, and in front of a tag, a comment or an instruction, no text is parted
that belongs to an element. -/
theorem Reading.exists_inserted {text : List Char} {root : Node} (r : Reading text root)
    {front mark back : List Char} {node : Node} (hremark : Remark mark node) (hgap : Gap front back)
    (hroot : front ++ back = r.fromRoot) :
    ∃ marked whole part, Nonempty (Reading (r.before ++ (front ++ (mark ++ back))) marked) ∧
      Inserted node whole part root marked ∧
      (ChildLast front back ∨ MarkupFirst back → part = whole) := by
  have hstart := r.start
  have hscan := r.scan
  have hlegal := r.legal_fromRoot
  rw [← hroot] at hstart hscan hlegal
  obtain ⟨hfront, hback⟩ := legal_append.mp hlegal
  obtain ⟨first, depth, run, hscans, hrun, hchild⟩ : ∃ first depth run,
      Scans 0 (front ++ back) first (depth + 1) (run ++ back) ∧ (∀ c ∈ run, isPlain c = true) ∧
      (ChildLast front back →
        ∃ others piece, first = others ++ [piece] ∧ piece.endsChild = true) := by
    by_cases hchild : ChildLast front back
    · obtain ⟨others, piece, depth, run, hscans, hrun, hends⟩ := hchild
      exact ⟨_, depth, run, hscans, hrun, fun _ => ⟨others, piece, rfl, hends⟩⟩
    · obtain ⟨first, depth, run, hscans, hrun⟩ := hgap
      exact ⟨first, depth, run, hscans, hrun, fun h => absurd h hchild⟩
  obtain ⟨remark, pieces', hpiece, hremarked, hstart', hscan'⟩ :=
    exists_remarked hremark hscans hrun hstart hscan
  obtain ⟨whole', marked, whole, part, hexpand, hbuild, hinserted, hquiet⟩ :=
    hremarked.exists_tree hpiece r.expand r.build
  exact ⟨marked, whole, part, r.replaceRoot
    (legal_append.mpr ⟨hfront, legal_append.mpr ⟨hremark.legal, hback⟩⟩) hstart'
    (hscan' _ (Nat.lt_succ_self _)) hexpand r.trailing hbuild, hinserted,
    fun hplace => hquiet (hplace.symm.imp_right hchild)⟩

end Rollout.Xml
