import Rollout.Proofs.Xml.Reading
import Rollout.Proofs.Xml.Values

/-!
# Trees that are read

What the grammar promises of every node of a tree that comes from a document without a type
declaration: names are names, values and texts are made of legal characters, and comments and
instructions do not hold their own ends.

- `Node.Every`: a property of every node of a tree.
- `Sound`: the promise for one node; `Piece.Sound`, `Scope.Sound` and `Growth.Sound` are the same
  promise for what the reader holds on the way.
- `sound_of_grow`: **one part of the content** keeps it.
- `Reading.sound`: **the tree of a document** has it.
-/

namespace Rollout.Xml

/-! ## Every node of a tree -/

/-- The property holds for the node and for everything below it. -/
inductive Node.Every (P : Node → Prop) : Node → Prop
  | intro {node : Node} (here : P node) (inside : ∀ child ∈ node.children, Every P child) :
      Every P node

section Every

variable {P Q : Node → Prop} {node : Node}

theorem Node.Every.here (h : node.Every P) : P node := by
  cases h with
  | intro here _ => exact here

theorem Node.Every.inside (h : node.Every P) : ∀ child ∈ node.children, child.Every P := by
  cases h with
  | intro _ inside => exact inside

theorem Node.Every.and (hp : node.Every P) (hq : node.Every Q) :
    node.Every fun each => P each ∧ Q each := by
  induction hp with
  | intro here _ ih =>
    exact .intro ⟨here, hq.here⟩ fun child hchild => ih child hchild (hq.inside child hchild)

theorem Node.Every.mono (h : node.Every P) (hPQ : ∀ each, P each → Q each) : node.Every Q := by
  induction h with
  | intro here _ ih => exact .intro (hPQ _ here) ih

end Every

/-! ## Sound nodes -/

/-- A text that may be missing, but is not empty. -/
def SoundText (text : Option String) : Prop :=
  ∀ s ∈ text, s.toList ≠ [] ∧ Legal s.toList

/-- An address that a prefix can stand for. -/
structure Bindable (space : String) : Prop where
  free : space ≠ declarationSpace
  brace : '\x7d' ∉ space.toList
  legal : Legal space.toList

/-- The name and the attributes of an element. -/
structure SoundElement (name : QName) (attributes : Attributes) : Prop where
  isName : IsName name.name.toList
  space : Bindable name.space
  entries : ∀ entry ∈ attributes,
    IsName entry.1.name.toList ∧ entry.1 ≠ ⟨"", "xmlns"⟩ ∧ Legal entry.2.toList
  spaces : ∀ entry ∈ attributes, Bindable entry.1.space
  nodup : (attributes.map Prod.fst).Nodup

/-- The text of a comment. -/
structure SoundComment (cs : List Char) : Prop where
  unmarked : Unmarked ['-', '-'] cs
  legal : Legal cs
  unified : '\r' ∉ cs

/-- The target and the data of a processing instruction. -/
structure SoundInstruction (target data : List Char) : Prop where
  isName : IsName target
  free : isReservedTarget target = false
  first : StopsAt isSpace data
  unmarked : Unmarked ['?', '>'] data
  legal : Legal data
  unified : '\r' ∉ data

/-- The text of a processing instruction. -/
def instructionText (target data : List Char) : List Char :=
  if data.isEmpty then target else target ++ ' ' :: data

/-- A node as the grammar allows it. -/
inductive Sound : Node → Prop
  | element {name : QName} {attributes : Attributes} {text : Option String} {children : List Node}
      {tail : Option String} (named : SoundElement name attributes) (content : SoundText text)
      (behind : SoundText tail) : Sound ⟨.element name attributes, text, children, tail⟩
  | comment {cs : List Char} {tail : Option String} (content : SoundComment cs)
      (behind : SoundText tail) : Sound ⟨.comment, some (String.ofList cs), [], tail⟩
  | instruction {target data : List Char} {tail : Option String}
      (content : SoundInstruction target data) (behind : SoundText tail) :
      Sound ⟨.instruction, some (String.ofList (instructionText target data)), [], tail⟩

theorem soundText_none : SoundText none := fun _ h => nomatch h

theorem Sound.behind {node : Node} (h : Sound node) : SoundText node.tail := by
  cases h with
  | element _ _ behind => exact behind
  | comment _ behind => exact behind
  | instruction _ behind => exact behind

theorem Sound.withTail {node : Node} (h : Sound node) {tail : Option String}
    (htail : SoundText tail) : Sound { node with tail := tail } := by
  cases h with
  | element named content _ => exact .element named content htail
  | comment content _ => exact .comment content htail
  | instruction content _ => exact .instruction content htail

theorem soundText_appendText {text : Option String} (h : SoundText text) {more : List Char}
    (hmore : Legal more) : SoundText (appendText text more) := by
  unfold appendText
  split
  case isTrue => exact h
  case isFalse hne =>
    rintro _ ⟨⟩
    rw [String.toList_append, String.toList_ofList]
    refine ⟨List.append_ne_nil_of_right_ne_nil _ (by simpa using hne), ?_⟩
    refine legal_append.mpr ⟨?_, hmore⟩
    cases text with
    | none => exact fun _ hc => absurd hc List.not_mem_nil
    | some s => exact (h s rfl).2

/-! ## What is scanned -/

/-- A part of the content as the grammar allows it. -/
def Piece.Sound : Piece → Prop
  | .start tag => IsTagName tag.name ∧ ∀ entry ∈ tag.attributes, IsTagName entry.1 ∧ Legal entry.2
  | .finish _ => True
  | .text cs => Legal cs
  | .comment cs => SoundComment cs
  | .instruction target data => SoundInstruction target data
  | .entity _ => True

/-- What is scanned from a legal text is sound. -/
theorem Spelled.sound {piece : Piece} {used : List Char} (h : Spelled piece used)
    (hused : Legal used) : piece.Sound := by
  have hpart : ∀ {part : List Char}, part ⊆ used → Legal part := fun hsub c hc => hused c (hsub hc)
  cases h with
  | @start tag c used _ name entries _ =>
    refine ⟨name, fun entry hentry => ?_⟩
    obtain ⟨hisTag, hsub⟩ := entries entry hentry
    exact ⟨hisTag, hpart fun d hd => by simp [hsub hd]⟩
  | finish => trivial
  | @comment raw unmarked =>
    have hraw : Legal raw := hpart fun c hc => by simp [hc]
    exact ⟨unmarked_unifyNewlineChars (by decide) (by decide) unmarked,
      legal_unifyNewlineChars hraw, not_mem_unifyNewlineChars raw⟩
  | @instruction target raw name free first unmarked =>
    have hraw : Legal raw := hpart fun c hc => by simp [hc]
    -- the data is what is left of `raw` behind its white space
    obtain ⟨run, hrun, -, hstop⟩ := exists_eq_append_dropWhile isSpace raw
    have hdata : Unmarked ['?', '>'] (skipSpace raw) ∧ Legal (skipSpace raw) := by
      rw [hrun] at unmarked hraw
      exact ⟨unmarked.of_append, (legal_append.mp hraw).2⟩
    exact ⟨name, free, stopsAt_unifyNewlineChars hstop,
      unmarked_unifyNewlineChars (by decide) (by decide) hdata.1,
      legal_unifyNewlineChars hdata.2, not_mem_unifyNewlineChars _⟩
  | @data raw =>
    exact legal_unifyNewlineChars (hpart fun c hc => by simp [hc])
  | char legal => exact fun d hd => by rw [List.mem_singleton.mp hd]; exact legal
  | entity => trivial
  | text => exact legal_unifyNewlineChars hused

theorem sound_of_scanRoot : ∀ {fuel depth : Nat} {cs rest : List Char} {pieces : List Piece},
    scanRoot fuel depth cs = some (pieces, rest) → Legal cs → ∀ piece ∈ pieces, piece.Sound
  | 0, _, _, _, _, h, _ => nomatch h
  | fuel + 1, depth, cs, rest, pieces, h, hcs => by
    rw [scanRoot] at h
    obtain ⟨⟨piece, mid⟩, hpiece, hread⟩ := Option.bind_eq_some_iff.mp h
    obtain ⟨depth', hstep, hrest⟩ := Option.bind_eq_some_iff.mp hread
    obtain ⟨used, rfl, hspelled⟩ := scanPiece_eq_some hpiece
    obtain ⟨hused, hmid⟩ := legal_append.mp hcs
    have hsound := hspelled.sound hused
    dsimp only at hrest
    split at hrest
    case isTrue =>
      cases hrest
      exact List.forall_mem_singleton.mpr hsound
    case isFalse =>
      obtain ⟨⟨others, more⟩, hothers, hfinal⟩ := Option.bind_eq_some_iff.mp hrest
      cases hfinal
      exact List.forall_mem_cons.mpr ⟨hsound, sound_of_scanRoot hothers hmid⟩

/-! ## Scopes -/

/-- Every prefix stands for an address that it may stand for. -/
def Scope.Sound (scope : Scope) : Prop :=
  ∀ entry ∈ scope, Bindable entry.2 ∧ (entry.1 ≠ [] → entry.2 ≠ "")

theorem bindable_empty : Bindable "" := ⟨by decide, by decide, by decide⟩

theorem bindable_xmlSpace : Bindable xmlSpace := ⟨by decide, by decide, by decide⟩

theorem Scope.sound_initial : Scope.initial.Sound := by
  intro entry hentry
  obtain rfl := List.mem_singleton.mp hentry
  exact ⟨bindable_xmlSpace, fun _ => by decide⟩

/-- A declaration that is accepted leaves the scope sound. -/
theorem Scope.Sound.bind {scope scope' : Scope} (h : scope.Sound) {pfx : List Char}
    {space : String} (hspace : Legal space.toList) (hbind : scope.bind pfx space = some scope') :
    scope'.Sound := by
  unfold Scope.bind at hbind
  split at hbind
  case isTrue => cases hbind
  case isFalse hreserved =>
    split at hbind
    case isTrue => cases hbind
    case isFalse =>
      split at hbind
      case isTrue => cases hbind
      case isFalse hempty =>
        split at hbind
        case isTrue => cases hbind
        case isFalse hbrace =>
          cases hbind
          refine List.forall_mem_cons.mpr ⟨⟨⟨?_, ?_, hspace⟩, ?_⟩, h⟩
          · rintro rfl
            exact hreserved (by simp)
          · exact fun hmem => hbrace (by simpa using hmem)
          · rintro hne rfl
            exact hempty (by simpa using hne)

theorem Scope.Sound.lookup {scope : Scope} (h : scope.Sound) {pfx : List Char} {space : String}
    (hlookup : scope.lookup pfx = some space) : Bindable space ∧ (pfx ≠ [] → space ≠ "") := by
  obtain ⟨front, back, rfl, -⟩ := List.lookup_eq_some_iff.mp hlookup
  exact h (pfx, space) (by simp)

/-- The name of an element is in a namespace that was declared. -/
theorem Scope.Sound.elementName {scope : Scope} (h : scope.Sound) {tag : TagName} {name : QName}
    (hname : scope.elementName tag = some name) :
    Bindable name.space ∧ name.name = String.ofList tag.name := by
  unfold Scope.elementName at hname
  split at hname
  case h_1 space hlookup =>
    cases hname
    exact ⟨(h.lookup hlookup).1, rfl⟩
  case h_2 =>
    split at hname
    case isTrue =>
      cases hname
      exact ⟨bindable_empty, rfl⟩
    case isFalse => cases hname

/-- The name of an attribute is in no namespace or in one that was declared; an attribute that
declares no prefix does not have the name of such a declaration. -/
theorem Scope.Sound.attributeName {scope : Scope} (h : scope.Sound) {tag : TagName} {name : QName}
    (hname : scope.attributeName tag = some name) (hfree : declaredPrefix? tag = none) :
    Bindable name.space ∧ name.name = String.ofList tag.name ∧ name ≠ ⟨"", "xmlns"⟩ := by
  obtain ⟨pfx, localName⟩ := tag
  unfold Scope.attributeName at hname
  split at hname
  case isTrue hempty =>
    obtain rfl : pfx = [] := by simpa using hempty
    cases hname
    refine ⟨bindable_empty, rfl, fun heq => ?_⟩
    have hlocal := congrArg (fun name => name.name.toList) heq
    simp only [String.toList_ofList] at hlocal
    subst hlocal
    exact absurd hfree (by decide)
  case isFalse hempty =>
    obtain ⟨space, hlookup, rfl⟩ := Option.map_eq_some_iff.mp hname
    refine ⟨(h.lookup hlookup).1, rfl, fun heq => ?_⟩
    have hpfx : pfx ≠ [] := by simpa using hempty
    exact (h.lookup hlookup).2 hpfx (congrArg QName.space heq)

theorem Scope.Sound.declare {scope scope' : Scope} (h : scope.Sound) {entry : TagName × String}
    (hentry : Legal entry.2.toList) (hdeclare : scope.declare entry = some scope') :
    scope'.Sound := by
  unfold Scope.declare at hdeclare
  split at hdeclare
  case h_1 => exact h.bind hentry hdeclare
  case h_2 =>
    cases hdeclare
    exact h

theorem Scope.Sound.declareAll {scope scope' : Scope} (h : scope.Sound)
    {values : List (TagName × String)} (hvalues : ∀ entry ∈ values, Legal entry.2.toList)
    (hdeclare : values.foldlM Scope.declare scope = some scope') : scope'.Sound := by
  induction values generalizing scope with
  | nil =>
    cases hdeclare
    exact h
  | cons entry values ih =>
    rw [List.foldlM_cons] at hdeclare
    obtain ⟨next, hnext, hrest⟩ := Option.bind_eq_some_iff.mp hdeclare
    obtain ⟨hfirst, hothers⟩ := List.forall_mem_cons.mp hvalues
    exact ih (h.declare hfirst hnext) hothers hrest

/-- **A start tag** that is read opens an element as the grammar allows it. -/
theorem sound_of_openElement {scope scope' : Scope} {tag : StartTag} {label : Label}
    (h : openElement Dtd.empty scope tag = some (scope', label)) (hscope : scope.Sound)
    (htag : (Piece.start tag).Sound) :
    scope'.Sound ∧ ∃ name attributes, label = .element name attributes ∧
      SoundElement name attributes := by
  obtain ⟨hisTag, hentries⟩ := htag
  obtain ⟨values, attributes, name, hvalues, -, hdeclare, hattributes, hnodup, hname, rfl⟩ :=
    openElement_eq_some.mp h
  rw [attributeValues_empty] at hvalues
  have hsound : ∀ entry ∈ values, IsTagName entry.1 ∧ Legal entry.2.toList := by
    intro entry hentry
    obtain ⟨written, hwritten, hvalue⟩ := exists_item_of_mapM hvalues entry hentry
    obtain ⟨value, hnormal, rfl⟩ := Option.map_eq_some_iff.mp hvalue
    obtain ⟨hwrittenName, hlegal⟩ := hentries written hwritten
    exact ⟨hwrittenName, legal_of_normalizeValue hnormal hlegal⟩
  have hscope' := hscope.declareAll (fun entry hentry => (hsound entry hentry).2) hdeclare
  obtain ⟨hspace, hlocal⟩ := hscope'.elementName hname
  -- each attribute that is opened comes from one that was written
  have hentry : ∀ entry ∈ attributes, Bindable entry.1.space ∧ IsName entry.1.name.toList ∧
      entry.1 ≠ ⟨"", "xmlns"⟩ ∧ Legal entry.2.toList := by
    intro entry hentry
    obtain ⟨value, hvalue, hresolved⟩ := exists_item_of_mapM hattributes entry hentry
    obtain ⟨resolved, hresolvedName, rfl⟩ := Option.map_eq_some_iff.mp hresolved
    obtain ⟨hmem, hfree⟩ := List.mem_filter.mp hvalue
    obtain ⟨hisName, hlegal⟩ := hsound value hmem
    obtain ⟨hbindable, hresolvedLocal, hne⟩ :=
      hscope'.attributeName hresolvedName (by simpa using hfree)
    refine ⟨hbindable, ?_, hne, hlegal⟩
    rw [hresolvedLocal, String.toList_ofList]
    exact hisName.name
  refine ⟨hscope', name, attributes, rfl, ⟨?_, hspace, fun entry hmem => (hentry entry hmem).2,
    fun entry hmem => (hentry entry hmem).1, hnodup⟩⟩
  rw [hlocal, String.toList_ofList]
  exact hisTag.name

/-! ## Trees -/

/-- An element with nothing behind it. -/
def Node.IsRoot (node : Node) : Prop :=
  ∃ name attributes text children, node = ⟨.element name attributes, text, children, none⟩

/-- An open element and what was read of it. -/
structure Frame.Sound (frame : Frame) : Prop where
  element : frame.node.IsRoot
  node : frame.node.Every Xml.Sound
  scope : frame.scope.Sound

/-- What was read of a document. -/
structure Growth.Sound (growth : Growth) : Prop where
  frames : ∀ frame ∈ growth.frames, frame.Sound
  root : ∀ root ∈ growth.root, root.IsRoot ∧ root.Every Xml.Sound

theorem every_withTail {node : Node} (h : node.Every Sound) {tail : Option String}
    (htail : SoundText tail) : Node.Every Sound { node with tail := tail } :=
  .intro (h.here.withTail htail) h.inside

/-- An element may get any text and any children. -/
theorem every_withContent {name : QName} {attributes : Attributes} {text text' : Option String}
    {children children' : List Node} {tail : Option String}
    (h : Node.Every Sound ⟨.element name attributes, text, children, tail⟩)
    (htext : SoundText text')
    (hchildren : ∀ child ∈ children', child.Every Sound) :
    Node.Every Sound ⟨.element name attributes, text', children', tail⟩ := by
  refine .intro ?_ hchildren
  cases h.here with
  | element named _ behind => exact .element named htext behind

theorem Sound.content {name : QName} {attributes : Attributes} {text : Option String}
    {children : List Node} {tail : Option String}
    (h : Sound ⟨.element name attributes, text, children, tail⟩) : SoundText text := by
  cases h with
  | element _ content _ => exact content

theorem Frame.Sound.addChild {frame : Frame} (h : frame.Sound) {child : Node}
    (hchild : child.Every Xml.Sound) :
    Frame.Sound { frame with node := frame.node.addChild child } := by
  obtain ⟨tag, node, scope⟩ := frame
  obtain ⟨⟨name, attributes, text, children, rfl⟩, hnode, hscope⟩ := h
  refine ⟨⟨name, attributes, text, children ++ [child], rfl⟩, ?_, hscope⟩
  refine every_withContent hnode hnode.here.content fun each heach => ?_
  rcases List.mem_append.mp heach with hold | hnew
  · exact hnode.inside each hold
  · rw [List.mem_singleton.mp hnew]
    exact hchild

theorem Frame.Sound.addText {frame : Frame} (h : frame.Sound) {cs : List Char} (hcs : Legal cs) :
    Frame.Sound { frame with node := frame.node.addText cs } := by
  obtain ⟨tag, node, scope⟩ := frame
  obtain ⟨⟨name, attributes, text, children, rfl⟩, hnode, hscope⟩ := h
  refine ⟨?_, ?_, hscope⟩
  · unfold Node.addText
    split <;> exact ⟨_, _, _, _, rfl⟩
  · have hcontent : SoundText text := hnode.here.content
    have hinside := hnode.inside
    unfold Node.addText
    split
    case h_1 last hlast =>
      refine every_withContent hnode hcontent fun each heach => ?_
      rcases List.mem_append.mp heach with hold | hnew
      · exact hinside each (List.dropLast_subset _ hold)
      · have hsound := hinside last (List.mem_of_getLast? hlast)
        rw [List.mem_singleton.mp hnew]
        exact every_withTail hsound (soundText_appendText hsound.here.behind hcs)
    case h_2 => exact every_withContent hnode (soundText_appendText hcontent hcs) hinside

theorem sound_place {node : Node} (hnode : node.Every Sound) {frames : List Frame}
    (helement : frames = [] → node.IsRoot) (hframes : ∀ frame ∈ frames, frame.Sound) :
    (Growth.place node frames).Sound := by
  cases frames with
  | nil =>
    refine ⟨hframes, ?_⟩
    rintro _ ⟨⟩
    exact ⟨helement rfl, hnode⟩
  | cons frame frames =>
    obtain ⟨hfirst, hothers⟩ := List.forall_mem_cons.mp hframes
    exact ⟨List.forall_mem_cons.mpr ⟨hfirst.addChild hnode, hothers⟩, fun _ h => nomatch h⟩

/-- A node that is no element, at its place. -/
theorem every_leaf {label : Label} {text : Option String} (h : Sound ⟨label, text, [], none⟩) :
    Node.Every Sound ⟨label, text, [], none⟩ :=
  .intro h fun _ hchild => absurd hchild List.not_mem_nil

/-- **One part of the content** keeps the tree sound. -/
theorem sound_of_grow {growth growth' : Growth} {piece : Piece}
    (h : grow Dtd.empty growth piece = some growth') (hgrowth : growth.Sound)
    (hpiece : piece.Sound) : growth'.Sound := by
  obtain ⟨frames, root⟩ := growth
  have hframes : ∀ frame ∈ frames, frame.Sound := hgrowth.frames
  cases piece with
  | start tag =>
    obtain ⟨⟨scope, label⟩, hopened, hread⟩ := Option.bind_eq_some_iff.mp h
    -- the scope is that of the innermost open element, or the first one
    have hscope : (Growth.scope ⟨frames, root⟩).Sound := by
      cases frames with
      | nil => exact Scope.sound_initial
      | cons frame frames => exact (hframes frame (List.mem_cons_self ..)).scope
    obtain ⟨hinner, name, attributes, rfl, hnamed⟩ := sound_of_openElement hopened hscope hpiece
    have hnode := every_leaf (.element hnamed soundText_none soundText_none)
    dsimp only at hread
    split at hread
    case isTrue =>
      cases hread
      exact sound_place hnode (fun _ => ⟨name, attributes, none, [], rfl⟩) hframes
    case isFalse =>
      cases hread
      exact ⟨List.forall_mem_cons.mpr ⟨⟨⟨name, attributes, none, [], rfl⟩, hnode, hinner⟩, hframes⟩,
        fun _ h => nomatch h⟩
  | finish name =>
    cases frames with
    | nil => cases h
    | cons frame frames =>
      obtain ⟨hfirst, hothers⟩ := List.forall_mem_cons.mp hframes
      dsimp only [grow] at h
      split at h
      case isTrue =>
        cases h
        exact sound_place hfirst.node (fun _ => hfirst.element) hothers
      case isFalse => cases h
  | text cs =>
    cases frames with
    | nil => cases h
    | cons frame frames =>
      obtain ⟨hfirst, hothers⟩ := List.forall_mem_cons.mp hframes
      cases h
      exact ⟨List.forall_mem_cons.mpr ⟨hfirst.addText hpiece, hothers⟩, fun _ h => nomatch h⟩
  | comment cs =>
    cases frames with
    | nil => cases h
    | cons frame frames =>
      cases h
      exact sound_place (every_leaf (.comment hpiece soundText_none))
        (fun hnil => absurd hnil (List.cons_ne_nil _ _)) hframes
  | instruction target data =>
    cases frames with
    | nil => cases h
    | cons frame frames =>
      cases h
      exact sound_place (every_leaf (.instruction hpiece soundText_none))
        (fun hnil => absurd hnil (List.cons_ne_nil _ _)) hframes
  | entity name => cases h

theorem sound_of_foldlM {pieces : List Piece} : ∀ {growth growth' : Growth},
    pieces.foldlM (grow Dtd.empty) growth = some growth' → growth.Sound →
    (∀ piece ∈ pieces, piece.Sound) → growth'.Sound := by
  induction pieces with
  | nil =>
    rintro growth _ ⟨⟩ hgrowth -
    exact hgrowth
  | cons piece pieces ih =>
    intro growth growth' h hgrowth hpieces
    rw [List.foldlM_cons] at h
    obtain ⟨next, hnext, hrest⟩ := Option.bind_eq_some_iff.mp h
    obtain ⟨hfirst, hothers⟩ := List.forall_mem_cons.mp hpieces
    exact ih hrest (sound_of_grow hnext hgrowth hfirst) hothers

/-- Parts that stay as they are, when entities have no meaning. -/
theorem mapM_eq_some_of_entity {f : Piece → Option (List Piece)}
    (hentity : ∀ name, f (.entity name) = none)
    (hother : ∀ piece, (∀ name, piece ≠ .entity name) → f piece = some [piece])
    {pieces : List Piece} : ∀ {parts : List (List Piece)}, pieces.mapM f = some parts ↔
      parts = pieces.map (fun piece => [piece]) ∧ ∀ name, .entity name ∉ pieces := by
  intro parts
  rw [mapM_eq_some_iff]
  induction pieces generalizing parts with
  | nil => cases parts <;> simp
  | cons piece pieces ih =>
    by_cases hpiece : ∃ name, piece = .entity name
    · obtain ⟨name, rfl⟩ := hpiece
      refine iff_of_false (fun heq => ?_) fun h => h.2 name (List.mem_cons_self ..)
      cases parts with
      | nil => cases heq
      | cons part parts =>
        have hhead := (List.cons.inj heq).1
        rw [hentity] at hhead
        cases hhead
    · have hne : ∀ name, piece ≠ .entity name := fun name heq => hpiece ⟨name, heq⟩
      have hne' : ∀ name, Piece.entity name ≠ piece := fun name heq => hne name heq.symm
      cases parts with
      | nil => simp
      | cons part parts =>
        simp only [List.map_cons, List.cons.injEq, hother piece hne, Option.some.injEq, ih,
          List.mem_cons, not_or]
        simp [hne', eq_comm, and_assoc]

/-- Without declarations the content stays as it was scanned, and may not hold an entity. -/
theorem expandContent_empty {pieces whole : List Piece} :
    expandContent Dtd.empty Dtd.empty.depth pieces = some whole ↔
      whole = pieces ∧ ∀ name, .entity name ∉ pieces := by
  have hdepth : Dtd.empty.depth = 0 + 1 := rfl
  rw [hdepth, expandContent, Option.bind_eq_bind, Option.bind_eq_some_iff]
  have hflat : (pieces.map fun piece => [piece]).flatten = pieces := by
    rw [← List.flatMap_def, List.flatMap_singleton']
  refine Iff.trans (exists_congr fun parts => and_congr_left fun _ =>
    mapM_eq_some_of_entity (fun name => rfl) ?_) ?_
  · intro piece hne
    cases piece with
    | entity name => exact absurd rfl (hne name)
    | _ => rfl
  · constructor
    · rintro ⟨parts, ⟨rfl, hfree⟩, heq⟩
      exact ⟨(Option.some.inj heq).symm.trans hflat, hfree⟩
    · rintro ⟨rfl, hfree⟩
      exact ⟨_, ⟨rfl, hfree⟩, congrArg some hflat⟩

theorem Reading.legal_fromRoot {text : List Char} {root : Node} (r : Reading text root) :
    Legal r.fromRoot := fun c hc => List.all_eq_true.mp r.legal c (r.fromRoot_suffix.subset hc)

/-- **The tree of a document** without a type declaration is sound, and its root an element. -/
theorem Reading.sound {text : List Char} {root : Node} (r : Reading text root)
    (htype : r.declaresType = false) : root.IsRoot ∧ root.Every Sound := by
  obtain ⟨hdtd, -⟩ := r.dtd_eq_empty htype
  have hexpand := r.expand
  have hbuild := r.build
  rw [hdtd] at hexpand hbuild
  obtain ⟨hwhole, -⟩ := expandContent_empty.mp hexpand
  obtain ⟨growth, hgrow, hroot⟩ := Option.bind_eq_some_iff.mp hbuild
  rw [hwhole] at hgrow
  have hpieces := sound_of_scanRoot r.scan r.legal_fromRoot
  have hnothing : Growth.Sound ⟨[], none⟩ :=
    ⟨fun _ h => absurd h List.not_mem_nil, fun _ h => nomatch h⟩
  exact (sound_of_foldlM hgrow hnothing hpieces).root root hroot

end Rollout.Xml
