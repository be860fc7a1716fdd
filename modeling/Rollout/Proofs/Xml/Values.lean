import Rollout.Proofs.Xml.Content

/-!
# Attribute values and elements

- `mapM_eq_some_iff`: what a list of computations gives when all of them succeed.
- `valuePieces_eq_some`: the parts of a value that is read.
- `openElement_eq_some`: **an element is opened** just when its values are read, its declarations
  accepted and its names resolved.
- `legal_of_normalizeValue`, `attributeValues_empty`: values without declarations.
-/

namespace Rollout.Xml

/-- A list of computations succeeds when each of them does. -/
theorem mapM_eq_some_iff {α β : Type} {f : α → Option β} {items : List α} {results : List β} :
    items.mapM f = some results ↔ items.map f = results.map some := by
  induction items generalizing results with
  | nil =>
    rw [List.mapM_nil, List.map_nil]
    cases results with
    | nil => exact iff_of_true rfl rfl
    | cons => exact iff_of_false (fun h => nomatch h) (fun h => nomatch h)
  | cons item items ih =>
    rw [List.mapM_cons, List.map_cons]
    constructor
    · intro h
      obtain ⟨result, hresult, hread⟩ := Option.bind_eq_some_iff.mp h
      obtain ⟨others, hothers, heq⟩ := Option.bind_eq_some_iff.mp hread
      cases heq
      rw [hresult, ih.mp hothers]
      rfl
    · intro h
      cases results with
      | nil => cases h
      | cons result results =>
        obtain ⟨hfirst, hrest⟩ := List.cons.inj h
        rw [hfirst, ih.mpr hrest]
        rfl

section Results

variable {α β : Type} {f : α → Option β} {items : List α} {results : List β}

/-- Every result belongs to an item. -/
theorem exists_item_of_mapM (h : items.mapM f = some results) :
    ∀ result ∈ results, ∃ item ∈ items, f item = some result := by
  intro result hresult
  have hmem : some result ∈ items.map f := by
    rw [mapM_eq_some_iff.mp h]
    exact List.mem_map_of_mem hresult
  exact List.mem_map.mp hmem

/-- Every item has a result. -/
theorem exists_result_of_mapM (h : items.mapM f = some results) :
    ∀ item ∈ items, ∃ result ∈ results, f item = some result := by
  intro item hitem
  have hmem : f item ∈ results.map some := by
    rw [← mapM_eq_some_iff.mp h]
    exact List.mem_map_of_mem hitem
  obtain ⟨result, hresult, heq⟩ := List.mem_map.mp hmem
  exact ⟨result, hresult, heq.symm⟩

end Results

/-! ## Values that are read -/

/-- A value that is read opens no tag, and its parts are characters that a document may hold. -/
theorem valuePieces_eq_some : ∀ {fuel : Nat} {cs : List Char} {pieces : List ValuePiece},
    valuePieces fuel cs = some pieces →
      '<' ∉ cs ∧ (Legal cs → ∀ c, .char c ∈ pieces → isLegal c = true)
  | _, [], pieces, h => by
    unfold valuePieces at h
    cases h
    exact ⟨List.not_mem_nil, fun _ _ hmem => absurd hmem List.not_mem_nil⟩
  | 0, _ :: _, _, h => nomatch h
  | fuel + 1, c :: cs, pieces, h => by
    -- one part of the value, and then the others
    have hadd : ∀ {used rest : List Char} {piece : ValuePiece} {pieces : List ValuePiece},
        '<' ∉ used → (Legal used → ∀ d, piece = .char d → isLegal d = true) →
        (piece :: ·) <$> valuePieces fuel rest = some pieces →
        '<' ∉ used ++ rest ∧ (Legal (used ++ rest) → ∀ d, .char d ∈ pieces → isLegal d = true) := by
      intro used rest piece pieces hused hpiece hread
      obtain ⟨others, hothers, rfl⟩ := Option.map_eq_some_iff.mp hread
      obtain ⟨hfree, hlegal⟩ := valuePieces_eq_some hothers
      refine ⟨fun hmem => (List.mem_append.mp hmem).elim hused hfree, fun hall d hd => ?_⟩
      obtain ⟨hfront, hback⟩ := legal_append.mp hall
      rcases List.mem_cons.mp hd with heq | hd
      · exact hpiece hfront d heq.symm
      · exact hlegal hback d hd
    have hspace : ∀ {used : List Char}, Legal used → ∀ d, ValuePiece.char ' ' = .char d →
        isLegal d = true := by
      rintro _ - d heq
      cases heq
      decide
    unfold valuePieces at h
    split at h
    case isTrue => cases h
    case isFalse hne =>
      have hc : '<' ∉ [c] := fun hmem => hne (by rw [← List.mem_singleton.mp hmem]; rfl)
      have hcons : ∀ {used : List Char}, '<' ∉ used → '<' ∉ [c] ++ used := fun hused hmem =>
        (List.mem_append.mp hmem).elim hc hused
      split at h
      · split at h
        case h_1 d rest hreference =>
          obtain ⟨used, rfl, hused⟩ := scanReference_eq_some hreference
          refine hadd (hcons hused) (fun _ e heq => ?_) h
          cases heq
          exact isLegal_of_scanReference hreference
        case h_2 name rest hreference =>
          obtain ⟨used, rfl, hused⟩ := scanReference_eq_some hreference
          exact hadd (hcons hused) (fun _ e heq => by cases heq) h
        case h_3 => cases h
      · split at h
        · split at h
          case h_1 rest =>
            have hfeed : '<' ∉ ['\n'] := by decide
            exact hadd (hcons hfeed) hspace h
          case h_2 => exact hadd hc hspace h
        · split at h
          · exact hadd hc hspace h
          · refine hadd hc (fun hall d heq => ?_) h
            cases heq
            exact hall c (List.mem_singleton_self c)

/-! ## Elements that are opened -/

/-- The scope after an attribute, which may declare a prefix. -/
def Scope.declare (scope : Scope) (entry : TagName × String) : Option Scope :=
  match declaredPrefix? entry.1 with
  | some pfx => scope.bind pfx entry.2
  | none => some scope

/-- An attribute with its name resolved. -/
def Scope.resolve (scope : Scope) (entry : TagName × String) : Option (QName × String) :=
  (scope.attributeName entry.1).map fun name => (name, entry.2)

/-- **An element is opened** when its values can be read, its declarations are accepted, its names
are known, and no attribute occurs twice. -/
theorem openElement_eq_some {dtd : Dtd} {scope scope' : Scope} {tag : StartTag} {label : Label} :
    openElement dtd scope tag = some (scope', label) ↔
      ∃ values attributes name, attributeValues dtd tag = some values ∧
        (tag.attributes.map Prod.fst).Nodup ∧
        values.foldlM Scope.declare scope = some scope' ∧
        (values.filter fun entry => (declaredPrefix? entry.1).isNone).mapM scope'.resolve
          = some attributes ∧
        (attributes.map Prod.fst).Nodup ∧ scope'.elementName tag.name = some name ∧
        label = .element name attributes := by
  constructor
  · intro h
    obtain ⟨values, hvalues, h⟩ := Option.bind_eq_some_iff.mp h
    split at h
    case isTrue => cases h
    case isFalse hwritten =>
      obtain ⟨inner, hinner, h⟩ := Option.bind_eq_some_iff.mp h
      obtain ⟨attributes, hattributes, h⟩ := Option.bind_eq_some_iff.mp h
      split at h
      case isTrue => cases h
      case isFalse hnodup =>
        obtain ⟨name, hname, hfinal⟩ := Option.bind_eq_some_iff.mp h
        cases hfinal
        exact ⟨values, attributes, name, hvalues, by simpa using hwritten, hinner, hattributes,
          by simpa using hnodup, hname, rfl⟩
  · rintro ⟨values, attributes, name, hvalues, hwritten, hinner, hattributes, hnodup, hname, rfl⟩
    refine Option.bind_eq_some_iff.mpr ⟨values, hvalues, ?_⟩
    rw [if_neg (by simpa using hwritten)]
    refine Option.bind_eq_some_iff.mpr ⟨scope', hinner, ?_⟩
    refine Option.bind_eq_some_iff.mpr ⟨attributes, hattributes, ?_⟩
    dsimp only
    rw [if_neg (by simpa using hnodup)]
    exact Option.bind_eq_some_iff.mpr ⟨name, hname, rfl⟩

/-- The values of a start tag that is read open no tag. -/
theorem not_mem_of_openElement {dtd : Dtd} {scope scope' : Scope} {tag : StartTag} {label : Label}
    (h : openElement dtd scope tag = some (scope', label)) :
    ∀ entry ∈ tag.attributes, '<' ∉ entry.2 := by
  obtain ⟨values, -, -, hvalues, -⟩ := openElement_eq_some.mp h
  obtain ⟨written, hwritten, -⟩ := Option.bind_eq_some_iff.mp hvalues
  intro entry hentry
  obtain ⟨result, -, hresult⟩ := exists_result_of_mapM hwritten entry hentry
  obtain ⟨value, hvalue, -⟩ := Option.map_eq_some_iff.mp hresult
  obtain ⟨expanded, hexpanded, -⟩ := Option.map_eq_some_iff.mp hvalue
  have hdepth : dtd.depth = dtd.entities.length + 1 := rfl
  rw [hdepth, expandValue] at hexpanded
  obtain ⟨pieces, hpieces, -⟩ := Option.bind_eq_some_iff.mp hexpanded
  exact (valuePieces_eq_some hpieces).1

/-! ## Without declarations -/

/-- Without declarations a value is made of characters that a document may hold. -/
theorem legal_of_normalizeValue {cs : List Char} {value : String}
    (h : normalizeValue Dtd.empty true cs = some value) (hcs : Legal cs) : Legal value.toList := by
  obtain ⟨expanded, hexpanded, rfl⟩ := Option.map_eq_some_iff.mp h
  have hdepth : Dtd.empty.depth = 0 + 1 := rfl
  rw [hdepth, expandValue] at hexpanded
  obtain ⟨pieces, hpieces, hread⟩ := Option.bind_eq_some_iff.mp hexpanded
  obtain ⟨parts, hparts, heq⟩ := Option.bind_eq_some_iff.mp hread
  cases heq
  rw [if_pos rfl, String.toList_ofList]
  intro c hc
  obtain ⟨part, hpart, hc⟩ := List.mem_flatten.mp hc
  obtain ⟨piece, hpiece, hresult⟩ := exists_item_of_mapM hparts part hpart
  cases piece with
  | char d =>
    cases hresult
    rw [List.mem_singleton.mp hc]
    exact (valuePieces_eq_some hpieces).2 hcs d hpiece
  | entity name => cases hresult

/-- Without declarations the values of a start tag are those that are written in it. -/
theorem attributeValues_empty (tag : StartTag) :
    attributeValues Dtd.empty tag = tag.attributes.mapM fun entry =>
      (normalizeValue Dtd.empty true entry.2).map fun value => (entry.1, value) := by
  show Option.bind (tag.attributes.mapM _) (fun written => some (written ++ [])) = _
  simp only [List.append_nil]
  exact Option.bind_fun_some _

end Rollout.Xml
