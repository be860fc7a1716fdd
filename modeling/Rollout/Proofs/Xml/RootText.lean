import Rollout.Proofs.Xml.Content

/-!
# From the root's start tag to its end tag

The end tag that ends the text of a root is the end tag of the root: the scanner counts open tags,
the tree matches their names, and entities are whole in themselves.

- `Within`: parts of the content inside open tags, down to the root's.
- `scanRoot_cases`: the text of a root is one tag, or it ends with an end tag.
- `Expands`: content before and after its entities are replaced.
- `finish_eq_start`: **the end tag of a root** has the name of its start tag.
-/

namespace Rollout.Xml

/-! ## The text -/

/-- Parts of the content read inside `depth` open tags, the last of which stays open. -/
inductive Within : Nat → List Piece → Prop
  | nil : Within 1 []
  | cons {depth depth' : Nat} {piece : Piece} {pieces : List Piece}
      (step : piece.depthAfter? depth = some depth') (inside : depth' ≠ 0)
      (rest : Within depth' pieces) : Within depth (piece :: pieces)

theorem depthAfter?_eq_zero {piece : Piece} {depth : Nat} (h : piece.depthAfter? depth = some 0)
    (hdepth : depth ≠ 0) : depth = 1 ∧ ∃ name, piece = .finish name := by
  cases piece with
  | start tag =>
    unfold Piece.depthAfter? at h
    dsimp only at h
    split at h
    · exact absurd (Option.some.inj h) hdepth
    · exact absurd (Option.some.inj h) (Nat.succ_ne_zero _)
  | finish name =>
    unfold Piece.depthAfter? at h
    dsimp only at h
    rw [if_neg hdepth] at h
    have hzero := Option.some.inj h
    exact ⟨by omega, name, rfl⟩
  | _ => exact absurd (Option.some.inj h) hdepth

/-- What is scanned inside the root ends with an end tag. -/
theorem scanRoot_within : ∀ {fuel depth : Nat} {cs rest : List Char} {pieces : List Piece},
    scanRoot fuel depth cs = some (pieces, rest) → depth ≠ 0 →
    ∃ front middle name text, cs = front ++ text ++ rest ∧ pieces = middle ++ [.finish name] ∧
      Within depth middle ∧ Spelled (.finish name) text
  | 0, _, _, _, _, h, _ => nomatch h
  | fuel + 1, depth, cs, rest, pieces, h, hdepth => by
    rw [scanRoot] at h
    obtain ⟨⟨piece, mid⟩, hpiece, hread⟩ := Option.bind_eq_some_iff.mp h
    obtain ⟨depth', hstep, hrest⟩ := Option.bind_eq_some_iff.mp hread
    obtain ⟨used, rfl, hspelled⟩ := scanPiece_eq_some hpiece
    dsimp only at hrest
    split at hrest
    case isTrue hzero =>
      subst hzero
      cases hrest
      obtain ⟨rfl, name, rfl⟩ := depthAfter?_eq_zero hstep hdepth
      exact ⟨[], [], name, used, rfl, rfl, .nil, hspelled⟩
    case isFalse hinside =>
      obtain ⟨⟨others, more⟩, hothers, hfinal⟩ := Option.bind_eq_some_iff.mp hrest
      cases hfinal
      obtain ⟨front, middle, name, text, rfl, rfl, hwithin, htext⟩ :=
        scanRoot_within hothers hinside
      exact ⟨used ++ front, piece :: middle, name, text, by simp, rfl,
        .cons hstep hinside hwithin, htext⟩

/-- A start tag is scanned where a root begins. -/
theorem exists_start_of_atStartTag {cs rest : List Char} {piece : Piece}
    (hroot : atStartTag cs = true) (h : scanPiece cs = some (piece, rest)) :
    ∃ tag, piece = .start tag := by
  obtain ⟨c, more, rfl, hc⟩ := atStartTag_iff.mp hroot
  obtain ⟨hbang, hquery, hslash⟩ := ne_of_isNameStart hc
  have hmarkup : scanMarkup (c :: more) = some (piece, rest) := h
  unfold scanMarkup at hmarkup
  split at hmarkup
  case h_1 heq => exact absurd (List.cons.inj heq).1 hslash
  case h_2 heq => exact absurd (List.cons.inj heq).1 hquery
  case h_3 heq => exact absurd (List.cons.inj heq).1 hbang
  case h_4 =>
    obtain ⟨⟨tag, stop⟩, -, heq⟩ := Option.map_eq_some_iff.mp hmarkup
    cases heq
    exact ⟨tag, rfl⟩

/-- **The text of a root** is a tag that is closed at once, or it ends with an end tag. -/
theorem scanRoot_cases {fuel : Nat} {cs rest : List Char} {pieces : List Piece}
    (hroot : atStartTag cs = true) (h : scanRoot fuel 0 cs = some (pieces, rest)) :
    ∃ tag text, Spelled (.start tag) text ∧
      (tag.closed = true ∧ pieces = [.start tag] ∧ cs = text ++ rest ∨
        tag.closed = false ∧ ∃ front middle name ending,
          cs = text ++ front ++ ending ++ rest ∧ pieces = .start tag :: (middle ++ [.finish name]) ∧
          Within 1 middle ∧ Spelled (.finish name) ending) := by
  cases fuel with
  | zero => cases h
  | succ fuel =>
    rw [scanRoot] at h
    obtain ⟨⟨piece, mid⟩, hpiece, hread⟩ := Option.bind_eq_some_iff.mp h
    obtain ⟨depth', hstep, hrest⟩ := Option.bind_eq_some_iff.mp hread
    obtain ⟨tag, rfl⟩ := exists_start_of_atStartTag hroot hpiece
    obtain ⟨text, rfl, hspelled⟩ := scanPiece_eq_some hpiece
    refine ⟨tag, text, hspelled, ?_⟩
    have hdepth : (if tag.closed then 0 else 1) = depth' := Option.some.inj hstep
    dsimp only at hrest
    cases hclosed : tag.closed with
    | true =>
      rw [hclosed, if_pos rfl] at hdepth
      rw [if_pos hdepth.symm] at hrest
      cases hrest
      exact .inl ⟨rfl, rfl, rfl⟩
    | false =>
      rw [hclosed, if_neg Bool.false_ne_true] at hdepth
      subst hdepth
      rw [if_neg Nat.one_ne_zero] at hrest
      obtain ⟨⟨others, more⟩, hothers, hfinal⟩ := Option.bind_eq_some_iff.mp hrest
      cases hfinal
      obtain ⟨front, middle, name, ending, rfl, rfl, hwithin, hending⟩ :=
        scanRoot_within hothers Nat.one_ne_zero
      exact .inr ⟨rfl, front, middle, name, ending, by simp, rfl, hwithin, hending⟩

/-! ## Entities -/

/-- Content before and after its entities are replaced. -/
inductive Expands : List Piece → List Piece → Prop
  | nil : Expands [] []
  | keep {piece : Piece} {pieces whole : List Piece} (rest : Expands pieces whole) :
      Expands (piece :: pieces) (piece :: whole)
  | entity {name : List Char} {part pieces whole : List Piece} (fit : tagsFit [] part = true)
      (rest : Expands pieces whole) : Expands (.entity name :: pieces) (part ++ whole)

theorem expands_of_expandContent {dtd : Dtd} {depth : Nat} {pieces whole : List Piece}
    (h : expandContent dtd depth pieces = some whole) : Expands pieces whole := by
  cases depth with
  | zero => cases h
  | succ depth =>
    rw [expandContent] at h
    obtain ⟨parts, hparts, hwhole⟩ := Option.bind_eq_some_iff.mp h
    cases hwhole
    clear h
    induction pieces generalizing parts with
    | nil =>
      cases hparts
      exact .nil
    | cons piece pieces ih =>
      rw [List.mapM_cons] at hparts
      obtain ⟨part, hpart, hread⟩ := Option.bind_eq_some_iff.mp hparts
      obtain ⟨others, hothers, heq⟩ := Option.bind_eq_some_iff.mp hread
      cases heq
      have ih := ih others hothers
      rw [List.flatten_cons]
      split at hpart
      case h_1 name =>
        split at hpart
        case h_1 text _ =>
          obtain ⟨inner, -, hexpand⟩ := Option.bind_eq_some_iff.mp hpart
          obtain ⟨expanded, -, hfinal⟩ := Option.bind_eq_some_iff.mp hexpand
          split at hfinal
          case isTrue hfit =>
            cases hfinal
            exact .entity hfit ih
          case isFalse => cases hfinal
        case h_2 => cases hpart
      case h_2 =>
        cases hpart
        exact .keep ih

theorem expands_start {tag : StartTag} {whole : List Piece} (h : Expands [.start tag] whole) :
    whole = [.start tag] := by
  cases h with
  | keep hrest =>
    cases hrest
    rfl

/-! ## Open tags -/

/-- The names of the open tags, nearest first. -/
def Growth.tags (growth : Growth) : List TagName :=
  growth.frames.map Frame.tag

theorem tags_place (node : Node) (frames : List Frame) :
    (Growth.place node frames).tags = frames.map Frame.tag := by
  cases frames <;> rfl

/-- How a part of the content changes the open tags. -/
inductive TagStep : Piece → List TagName → List TagName → Prop
  | closed {tag : StartTag} {tags : List TagName} (closed : tag.closed = true) :
      TagStep (.start tag) tags tags
  | opened {tag : StartTag} {tags : List TagName} (open_ : tag.closed = false) :
      TagStep (.start tag) tags (tag.name :: tags)
  | finish {name : TagName} {tags : List TagName} : TagStep (.finish name) (name :: tags) tags
  | other {piece : Piece} {tags : List TagName} (noStart : ∀ tag, piece ≠ .start tag)
      (noFinish : ∀ name, piece ≠ .finish name) : TagStep piece tags tags

theorem tagStep_of_grow {dtd : Dtd} {growth growth' : Growth} {piece : Piece}
    (h : grow dtd growth piece = some growth') : TagStep piece growth.tags growth'.tags := by
  obtain ⟨frames, root⟩ := growth
  cases piece with
  | start tag =>
    obtain ⟨⟨scope, label⟩, -, hread⟩ := Option.bind_eq_some_iff.mp h
    dsimp only at hread
    split at hread
    case isTrue hclosed =>
      cases hread
      rw [tags_place]
      exact .closed hclosed
    case isFalse hclosed =>
      cases hread
      exact .opened (Bool.eq_false_iff.mpr hclosed)
  | finish name =>
    cases frames with
    | nil => cases h
    | cons frame frames =>
      dsimp only [grow] at h
      split at h
      case isTrue heq =>
        cases h
        subst heq
        rw [tags_place]
        exact .finish
      case isFalse => cases h
  | entity name => cases h
  | _ =>
    cases frames with
    | nil => cases h
    | cons frame frames =>
      cases h
      exact .other (fun _ heq => nomatch heq) fun _ heq => nomatch heq

/-- The scanner counts the open tags. -/
theorem TagStep.depthAfter?_eq {piece : Piece} {tags tags' : List TagName}
    (h : TagStep piece tags tags') : piece.depthAfter? tags.length = some tags'.length := by
  cases h with
  | @closed tag _ hclosed =>
    show some (if tag.closed then _ else _) = _
    rw [hclosed]
    rfl
  | @opened tag _ hopen =>
    show some (if tag.closed then _ else _) = _
    rw [hopen]
    rfl
  | finish => rfl
  | other noStart noFinish =>
    cases piece with
    | start tag => exact absurd rfl (noStart tag)
    | finish name => exact absurd rfl (noFinish name)
    | _ => rfl

/-- The outermost tag stays open as long as any does. -/
theorem TagStep.exists_append {piece : Piece} {root : TagName} {tags tags' : List TagName}
    (h : TagStep piece (tags ++ [root]) tags') (hne : tags' ≠ []) :
    ∃ inner, tags' = inner ++ [root] := by
  generalize hopen : tags ++ [root] = openTags at h
  cases h with
  | closed _ => exact ⟨tags, hopen.symm⟩
  | @opened tag _ _ => exact ⟨tag.name :: tags, by rw [← hopen]; rfl⟩
  | finish =>
    cases tags with
    | nil => exact absurd (List.cons.inj hopen).2.symm hne
    | cons tag tags => exact ⟨tags, (List.cons.inj hopen).2.symm⟩
  | other _ _ => exact ⟨tags, hopen.symm⟩

/-- What is whole in itself leaves the open tags. -/
theorem tags_of_tagsFit {dtd : Dtd} {base : List TagName} : ∀ {pieces : List Piece}
    {tags : List TagName} {growth growth' : Growth}, tagsFit tags pieces = true →
    pieces.foldlM (grow dtd) growth = some growth' → growth.tags = tags ++ base →
    growth'.tags = base
  | [], tags, growth, growth', hfit, hgrow, htags => by
    cases hgrow
    obtain rfl : tags = [] := List.isEmpty_iff.mp (by rw [tagsFit] at hfit; exact hfit)
    exact htags
  | piece :: pieces, tags, growth, growth', hfit, hgrow, htags => by
    rw [List.foldlM_cons] at hgrow
    obtain ⟨next, hnext, hrest⟩ := Option.bind_eq_some_iff.mp hgrow
    have hstep := tagStep_of_grow hnext
    rw [htags] at hstep
    generalize hnextTags : next.tags = nextTags at hstep
    cases piece with
    | start tag =>
      rw [tagsFit] at hfit
      cases hstep with
      | closed hclosed =>
        rw [if_pos hclosed] at hfit
        exact tags_of_tagsFit hfit hrest hnextTags
      | opened hopen =>
        rw [hopen, if_neg Bool.false_ne_true] at hfit
        exact tags_of_tagsFit hfit hrest hnextTags
      | other noStart => exact absurd rfl (noStart tag)
    | finish name =>
      cases tags with
      | nil =>
        rw [tagsFit] at hfit
        cases hfit
      | cons tag tags =>
        rw [tagsFit] at hfit
        generalize hopen : tag :: tags ++ base = openTags at hstep
        cases hstep with
        | finish =>
          have htail := (List.cons.inj hopen).2
          exact tags_of_tagsFit (Bool.and_eq_true_iff.mp hfit).2 hrest
            (hnextTags.trans htail.symm)
        | other _ noFinish => exact absurd rfl (noFinish name)
    | _ =>
      have hsame : nextTags = tags ++ base := by
        generalize tags ++ base = openTags at hstep
        cases hstep
        rfl
      have hothers : tagsFit tags pieces = true := by
        cases tags <;> exact hfit
      exact tags_of_tagsFit hothers hrest (hnextTags.trans hsame)

/-- **Inside the root** its tag stays open. -/
theorem tags_of_within {dtd : Dtd} {root : TagName} {depth : Nat} {pieces whole : List Piece}
    (hwithin : Within depth pieces) (hexpands : Expands pieces whole) {growth growth' : Growth}
    (hgrow : whole.foldlM (grow dtd) growth = some growth')
    (hroot : ∃ inner, growth.tags = inner ++ [root]) (hdepth : growth.tags.length = depth) :
    growth'.tags = [root] := by
  induction hwithin generalizing whole growth with
  | nil =>
    cases hexpands
    cases hgrow
    obtain ⟨inner, htags⟩ := hroot
    obtain rfl : inner = [] := by
      rw [htags, List.length_append, List.length_singleton] at hdepth
      exact List.length_eq_zero_iff.mp (by omega)
    exact htags
  | @cons depth depth' piece pieces step inside _ ih =>
    cases hexpands with
    | entity hfit hrest =>
      rw [List.foldlM_append] at hgrow
      obtain ⟨next, hnext, hrestGrow⟩ := Option.bind_eq_some_iff.mp hgrow
      have hsame := tags_of_tagsFit hfit hnext (List.nil_append _).symm
      cases step
      exact ih hrest hrestGrow (hsame ▸ hroot) (hsame ▸ hdepth)
    | keep hrest =>
      rw [List.foldlM_cons] at hgrow
      obtain ⟨next, hnext, hrestGrow⟩ := Option.bind_eq_some_iff.mp hgrow
      have hstep := tagStep_of_grow hnext
      -- the count of the scanner is that of the tree, so the root is not closed yet
      have hlength : next.tags.length = depth' :=
        Option.some.inj (hstep.depthAfter?_eq.symm.trans (hdepth ▸ step))
      have hne : next.tags ≠ [] := fun hnil => inside (by rw [← hlength, hnil]; rfl)
      obtain ⟨inner, htags⟩ := hroot
      rw [htags] at hstep
      exact ih hrest hrestGrow (hstep.exists_append hne) hlength

/-- An end tag that comes last stays last. -/
theorem Expands.exists_append_finish {name : TagName} {pieces : List Piece} :
    ∀ {whole : List Piece}, Expands (pieces ++ [.finish name]) whole →
      ∃ front, whole = front ++ [.finish name] ∧ Expands pieces front := by
  induction pieces with
  | nil =>
    intro whole h
    cases h with
    | keep hrest =>
      cases hrest
      exact ⟨[], rfl, .nil⟩
  | cons piece pieces ih =>
    intro whole h
    cases h with
    | keep hrest =>
      obtain ⟨front, rfl, hfront⟩ := ih hrest
      exact ⟨piece :: front, rfl, .keep hfront⟩
    | @entity _ part _ _ hfit hrest =>
      obtain ⟨front, rfl, hfront⟩ := ih hrest
      exact ⟨part ++ front, by simp, .entity hfit hfront⟩

/-- **The end tag of a root** has the name of its start tag. -/
theorem finish_eq_start {dtd : Dtd} {tag : StartTag} {name : TagName} {middle whole : List Piece}
    {root : Node} (hopen : tag.closed = false) (hwithin : Within 1 middle)
    (hexpands : Expands (.start tag :: (middle ++ [.finish name])) whole)
    (hbuild : buildTree dtd whole = some root) : name = tag.name := by
  obtain ⟨growth, hgrow, -⟩ := Option.bind_eq_some_iff.mp hbuild
  cases hexpands with
  | keep hrest =>
    obtain ⟨front, rfl, hfront⟩ := hrest.exists_append_finish
    rw [List.foldlM_cons] at hgrow
    obtain ⟨opened, hopened, hinner⟩ := Option.bind_eq_some_iff.mp hgrow
    rw [List.foldlM_append] at hinner
    obtain ⟨inside, hinside, hlastGrow⟩ := Option.bind_eq_some_iff.mp hinner
    rw [List.foldlM_cons] at hlastGrow
    obtain ⟨closed, hclosed, -⟩ := Option.bind_eq_some_iff.mp hlastGrow
    have hfirst : opened.tags = [tag.name] := by
      have hstep := tagStep_of_grow hopened
      generalize opened.tags = tags at hstep
      cases hstep with
      | closed h =>
        rw [hopen] at h
        cases h
      | opened => rfl
      | other noStart => exact absurd rfl (noStart tag)
    -- the root is the only open tag once more, so the end tag can only close it
    have hlast := tags_of_within hwithin hfront hinside ⟨[], hfirst⟩ (by rw [hfirst]; rfl)
    have hstep := tagStep_of_grow hclosed
    rw [hlast] at hstep
    generalize closed.tags = tags at hstep
    cases hstep with
    | finish => rfl
    | other _ noFinish => exact absurd rfl (noFinish name)

end Rollout.Xml
