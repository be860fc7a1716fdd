import Rollout.Proofs.Xml.ReadBack
import Rollout.Proofs.Xml.Reading

/-!
# Elements as they are typed

A text that holds no markup can stand between tags as it is, with brackets that close nothing. A
tree of plain elements with such texts is read from the text that it is typed as.

- `TypedText`: a text that can be typed as it is.
- `PlainElement`: an element in no namespace and without attributes, with such texts.
- `Node.typed`: the text of a tree of plain elements.
- `ReadsInto`: what a text between tags does to the element that is open.
- `reads_typed`: **a tree** is read as one more child of the element that is open.
- `readDocument?_typed`: **a document** that is such a tree.
-/

namespace Rollout.Xml

/-! ## Plain elements -/

/-- A text that can stand between tags as it is. -/
structure TypedText (cs : List Char) : Prop where
  nonempty : cs ≠ []
  legal : Legal cs
  plain : ∀ c ∈ cs, isPlain c = true
  unended : ¬ "]]>".toList <:+: cs
  unified : '\r' ∉ cs

/-- The name of an element, as characters. -/
def Label.nameChars (label : Label) : List Char :=
  ((label.name?.map QName.name).getD "").toList

/-- An element in no namespace and without attributes, whose texts can be typed as they are. -/
structure PlainElement (node : Node) : Prop where
  label : ∃ name, node.label = .element ⟨"", name⟩ []
  isName : IsName node.label.nameChars
  text : ∀ s ∈ node.text, TypedText s.toList
  tail : ∀ s ∈ node.tail, TypedText s.toList

mutual

/-- The text of a tree of plain elements, up to the text behind it. -/
def Node.typed (rest : List Char) : Node → List Char
  | ⟨label, text, children, tail⟩ =>
    '<' :: (label.nameChars ++ '>' :: ((text.getD "").toList
      ++ typedAll ('<' :: '/' :: (label.nameChars ++ '>' :: ((tail.getD "").toList ++ rest)))
        children))

/-- The text of trees of plain elements, up to the text behind them. -/
def typedAll (rest : List Char) : List Node → List Char
  | [] => rest
  | node :: nodes => node.typed (typedAll rest nodes)

end

theorem exists_typedAll (rest : List Char) (nodes : List Node) :
    ∃ more, typedAll ('<' :: rest) nodes = '<' :: more := by
  cases nodes with
  | nil => exact ⟨rest, rfl⟩
  | cons node nodes =>
    obtain ⟨label, text, children, tail⟩ := node
    rw [typedAll, Node.typed]
    exact ⟨_, rfl⟩

/-! ## What a text does to the open element -/

/-- A text in front of a tag is read in parts that make the open element, which is in the scope of
the document, another. -/
def ReadsInto (used : List Char → List Char) (before after : Node) : Prop :=
  ∀ (depth : Nat) (rest : List Char) (tag : TagName) (frames : List Frame),
    ∃ pieces, (∀ name, Piece.entity name ∉ pieces) ∧
      Scans (depth + 1) (used ('<' :: rest)) pieces (depth + 1) ('<' :: rest) ∧
      pieces.foldlM (grow Dtd.empty) ⟨⟨tag, before, Scope.initial⟩ :: frames, none⟩
        = some ⟨⟨tag, after, Scope.initial⟩ :: frames, none⟩

section ReadsInto

variable {first second : List Char → List Char} {before mid after : Node}

theorem reads_nothing (node : Node) : ReadsInto id node node := fun _ _ _ _ =>
  ⟨[], fun _ => List.not_mem_nil, .refl, rfl⟩

/-- Two texts in a row, where the second one begins with a tag. -/
theorem ReadsInto.trans (hfirst : ReadsInto first before mid) (hsecond : ReadsInto second mid after)
    (htag : ∀ rest, ∃ more, second ('<' :: rest) = '<' :: more) :
    ReadsInto (fun rest => first (second rest)) before after := by
  intro depth rest tag frames
  obtain ⟨more, hmore⟩ := htag rest
  obtain ⟨pieces, hentity, hscans, hgrow⟩ := hfirst depth more tag frames
  obtain ⟨pieces', hentity', hscans', hgrow'⟩ := hsecond depth rest tag frames
  refine ⟨pieces ++ pieces', fun name hmem => ?_, ?_, ?_⟩
  · rcases List.mem_append.mp hmem with hmem | hmem
    · exact hentity name hmem
    · exact hentity' name hmem
  · dsimp only
    rw [hmore] at hscans' ⊢
    exact hscans.trans hscans'
  · rw [List.foldlM_append, hgrow]
    exact hgrow'

/-- **A text** is added to what the open element holds. -/
theorem reads_text {text : Option String} (h : ∀ s ∈ text, TypedText s.toList) (node : Node) :
    ReadsInto ((text.getD "").toList ++ ·) node (node.addText (text.getD "").toList) := by
  intro depth rest tag frames
  cases text with
  | none =>
    refine ⟨[], fun _ => List.not_mem_nil, .refl, ?_⟩
    rw [Option.getD_none, show "".toList = [] from rfl, addText_nil]
    rfl
  | some s =>
    have htyped := h s rfl
    rw [Option.getD_some]
    obtain ⟨c, more, hs⟩ := List.exists_cons_of_ne_nil htyped.nonempty
    have hscan : scanPiece (s.toList ++ '<' :: rest) = some (.text s.toList, '<' :: rest) := by
      have hplain := htyped.plain
      have hended := occurs_eq_false_iff.mpr htyped.unended
      have hunified := unifyNewlineChars_of_not_mem htyped.unified
      rw [hs] at hplain hended hunified ⊢
      obtain ⟨hc, hmore⟩ := List.forall_mem_cons.mp hplain
      exact (scanPiece_plain_iff hc).mpr ⟨more, rfl, hmore, stopsAt_cons.mpr (by decide), hended,
        by rw [hunified]⟩
    exact ⟨[.text s.toList], by simp, .single hscan rfl, rfl⟩

end ReadsInto

/-! ## Trees -/

section Trees

variable {name : List Char}

theorem isTagName_plain (hname : IsName name) : IsTagName ⟨[], name⟩ :=
  ⟨hname, .inl rfl⟩

/-- The start tag of a plain element is scanned. -/
theorem scanPiece_open (hname : IsName name) (rest : List Char) :
    scanPiece ('<' :: (name ++ '>' :: rest)) = some (.start ⟨⟨[], name⟩, [], false⟩, rest) :=
  scanPiece_start (isTagName_plain hname) (fun _ hentry => absurd hentry List.not_mem_nil) false
    rest

/-- Its start tag opens it in the scope of the document. -/
theorem grow_open (name : List Char) {frames : List Frame}
    (hscope : Growth.scope ⟨frames, none⟩ = Scope.initial) :
    grow Dtd.empty ⟨frames, none⟩ (.start ⟨⟨[], name⟩, [], false⟩)
      = some ⟨⟨⟨[], name⟩, ⟨.element ⟨"", String.ofList name⟩ [], none, [], none⟩, Scope.initial⟩
          :: frames, none⟩ := by
  have hopened : openElement Dtd.empty Scope.initial ⟨⟨[], name⟩, [], false⟩
      = some (Scope.initial, .element ⟨"", String.ofList name⟩ []) := rfl
  rw [grow, hscope, hopened]
  rfl

/-- Its end tag puts it into the element around it. -/
theorem grow_finish (tag : TagName) (node : Node) (scope : Scope) (frames : List Frame) :
    grow Dtd.empty ⟨⟨tag, node, scope⟩ :: frames, none⟩ (.finish tag)
      = some (Growth.place node frames) :=
  if_pos rfl

theorem PlainElement.label_eq {node : Node} (h : PlainElement node) :
    node.label = .element ⟨"", String.ofList node.label.nameChars⟩ [] := by
  obtain ⟨name, hlabel⟩ := h.label
  rw [hlabel]
  show _ = Label.element ⟨"", String.ofList name.toList⟩ []
  rw [String.ofList_toList]

theorem appendText_getD {text : Option String} (h : ∀ s ∈ text, TypedText s.toList) :
    appendText none (text.getD "").toList = text := by
  cases text with
  | none => rfl
  | some s =>
    obtain ⟨c, more, hs⟩ := List.exists_cons_of_ne_nil (h s rfl).nonempty
    rw [Option.getD_some, hs]
    show some ("" ++ String.ofList (c :: more)) = some s
    rw [String.empty_append, ← hs, String.ofList_toList]

/-- Trees are read as more children. -/
theorem reads_typedAll {nodes : List Node}
    (h : ∀ node ∈ nodes, ∀ owner,
      ReadsInto (fun rest => node.typed rest) owner (owner.addChild node))
    (owner : Node) :
    ReadsInto (fun rest => typedAll rest nodes) owner
      { owner with children := owner.children ++ nodes } := by
  induction nodes generalizing owner with
  | nil =>
    have hnil : (fun rest => typedAll rest []) = id := funext fun rest => by rw [typedAll, id]
    have howner : ({ owner with children := owner.children ++ [] } : Node) = owner := by
      obtain ⟨label, text, children, tail⟩ := owner
      rw [List.append_nil]
    rw [hnil, howner]
    exact reads_nothing owner
  | cons node nodes ih =>
    obtain ⟨hfirst, hothers⟩ := List.forall_mem_cons.mp h
    have hrest := ih hothers (owner.addChild node)
    have hall := (hfirst owner).trans hrest fun rest => exists_typedAll rest nodes
    unfold Node.addChild at hall
    rwa [List.append_assoc] at hall

/-- What is inside an element is read into it. -/
theorem reads_content {node : Node} (h : PlainElement node)
    (hchildren : ∀ child ∈ node.children, ∀ owner,
      ReadsInto (fun rest => child.typed rest) owner (owner.addChild child)) :
    ReadsInto (fun rest => (node.text.getD "").toList ++ typedAll rest node.children)
      ⟨node.label, none, [], none⟩ { node with tail := none } := by
  have htext := reads_text h.text ⟨node.label, none, [], none⟩
  have hadd : Node.addText ⟨node.label, none, [], none⟩ (node.text.getD "").toList
      = ⟨node.label, node.text, [], none⟩ :=
    congrArg (fun text => (⟨node.label, text, [], none⟩ : Node)) (appendText_getD h.text)
  rw [hadd] at htext
  exact htext.trans (reads_typedAll hchildren _) fun rest => exists_typedAll rest node.children

/-- **A tree** is read as one more child of the element that is open. -/
theorem reads_typed {node : Node} (h : node.Every PlainElement) (owner : Node) :
    ReadsInto (fun rest => node.typed rest) owner (owner.addChild node) := by
  induction h generalizing owner with
  | @intro node here _ ih =>
    intro depth rest tag frames
    have hlabel := here.label_eq
    obtain ⟨label, text, children, tail⟩ := node
    obtain ⟨tailPieces, htailEntity, htailScans, htailGrow⟩ := reads_text here.tail
      (owner.addChild ⟨label, text, children, none⟩) depth rest tag frames
    obtain ⟨pieces, hentity, hscans, hgrow⟩ := reads_content here ih (depth + 1)
      ('/' :: (label.nameChars ++ '>' :: ((tail.getD "").toList ++ '<' :: rest)))
      ⟨[], label.nameChars⟩ (⟨tag, owner, Scope.initial⟩ :: frames)
    have hname : IsName label.nameChars := here.isName
    refine ⟨.start ⟨⟨[], label.nameChars⟩, [], false⟩ :: (pieces ++ .finish ⟨[], label.nameChars⟩
      :: tailPieces), fun name hmem => ?_, ?_, ?_⟩
    · simp only [List.mem_cons, List.mem_append, reduceCtorEq, false_or] at hmem
      exact hmem.elim (hentity name) (htailEntity name)
    · show Scans (depth + 1) (Node.typed ('<' :: rest) _) _ _ _
      rw [Node.typed]
      exact .step (scanPiece_open hname _) rfl (hscans.trans
        (.step (scanPiece_finish (isTagName_plain hname) _) rfl htailScans))
    · have hopened : grow Dtd.empty ⟨⟨tag, owner, Scope.initial⟩ :: frames, none⟩
          (.start ⟨⟨[], label.nameChars⟩, [], false⟩)
            = some ⟨⟨⟨[], label.nameChars⟩, ⟨label, none, [], none⟩, Scope.initial⟩
                :: ⟨tag, owner, Scope.initial⟩ :: frames, none⟩ := by
        have hscope : Growth.scope ⟨⟨tag, owner, Scope.initial⟩ :: frames, none⟩ = Scope.initial :=
          rfl
        rw [grow_open label.nameChars hscope, ← hlabel]
      rw [List.foldlM_cons, hopened, Option.bind_eq_bind, Option.bind_some, List.foldlM_append,
        hgrow, Option.bind_eq_bind, Option.bind_some, List.foldlM_cons, grow_finish,
        Option.bind_eq_bind, Option.bind_some]
      refine htailGrow.trans ?_
      rw [addText_addChild, appendText_getD here.tail]

end Trees

/-! ## Documents -/

theorem legal_typedText {text : Option String} (h : ∀ s ∈ text, TypedText s.toList) :
    Legal (text.getD "").toList := by
  cases text with
  | none => exact fun _ hc => absurd hc List.not_mem_nil
  | some s => exact (h s rfl).legal

theorem legal_typedAll {nodes : List Node} {rest : List Char}
    (h : ∀ node ∈ nodes, ∀ rest, Legal rest → Legal (node.typed rest)) (hrest : Legal rest) :
    Legal (typedAll rest nodes) := by
  induction nodes with
  | nil =>
    rw [typedAll]
    exact hrest
  | cons node nodes ih =>
    obtain ⟨hfirst, hothers⟩ := List.forall_mem_cons.mp h
    rw [typedAll]
    exact hfirst _ (ih hothers)

/-- What is typed are characters that a document may hold. -/
theorem legal_typed {node : Node} (h : node.Every PlainElement) :
    ∀ rest, Legal rest → Legal (node.typed rest) := by
  induction h with
  | @intro node here _ ih =>
    intro rest hrest
    obtain ⟨label, text, children, tail⟩ := node
    have hmarks : Legal ['<', '/', '>'] := by decide
    have hname : Legal label.nameChars := fun c hc =>
      isLegal_of_isNameChar (here.isName.isNameChar c hc)
    obtain ⟨hopen, hslash, hclose⟩ :
        isLegal '<' = true ∧ isLegal '/' = true ∧ isLegal '>' = true := by
      decide
    have hend : Legal ('<' :: '/' :: (label.nameChars ++ '>' :: ((tail.getD "").toList ++ rest))) :=
      List.forall_mem_cons.mpr ⟨hopen, List.forall_mem_cons.mpr ⟨hslash, legal_append.mpr ⟨hname,
        List.forall_mem_cons.mpr ⟨hclose, legal_append.mpr ⟨legal_typedText here.tail, hrest⟩⟩⟩⟩⟩
    rw [Node.typed]
    exact List.forall_mem_cons.mpr ⟨hopen, legal_append.mpr ⟨hname, List.forall_mem_cons.mpr
      ⟨hclose, legal_append.mpr ⟨legal_typedText here.text, legal_typedAll ih hend⟩⟩⟩⟩

theorem atStartTag_typed {node : Node} (h : PlainElement node) (rest : List Char) :
    atStartTag (node.typed rest) = true := by
  obtain ⟨c, more, hchars, hc, -⟩ := h.isName
  obtain ⟨label, text, children, tail⟩ := node
  rw [Node.typed, hchars]
  exact hc

/-- The tree is scanned in parts without entities that build it. -/
theorem exists_typedPieces {node : Node} (h : node.Every PlainElement) (htail : node.tail = none) :
    ∃ pieces, scanRoot ((node.typed []).length + 1) 0 (node.typed []) = some (pieces, []) ∧
      (∀ name, .entity name ∉ pieces) ∧ buildTree Dtd.empty pieces = some node := by
  have hlabel := h.here.label_eq
  have hname := h.here.isName
  obtain ⟨label, text, children, tail⟩ := node
  obtain rfl : tail = none := htail
  obtain ⟨pieces, hentity, hscans, hgrow⟩ := reads_content h.here
    (fun child hchild owner => reads_typed (h.inside child hchild) owner) 0
    ('/' :: (label.nameChars ++ ['>'])) ⟨[], label.nameChars⟩ []
  have hscan : Scans 0 (Node.typed [] ⟨label, text, children, none⟩)
      (.start ⟨⟨[], label.nameChars⟩, [], false⟩ :: pieces) 1
      ('<' :: '/' :: (label.nameChars ++ ['>'])) := by
    rw [Node.typed]
    exact .step (scanPiece_open hname _) rfl hscans
  refine ⟨.start ⟨⟨[], label.nameChars⟩, [], false⟩ :: pieces ++ [.finish ⟨[], label.nameChars⟩],
    hscan.scanRoot_eq (scanPiece_finish (isTagName_plain hname) []) rfl _ (Nat.lt_succ_self _),
    fun name hmem => ?_, ?_⟩
  · rcases List.mem_append.mp hmem with hmem | hmem
    · exact hentity name ((List.mem_cons.mp hmem).resolve_left nofun)
    · exact absurd (List.mem_singleton.mp hmem) nofun
  · have hopened : grow Dtd.empty ⟨[], none⟩ (.start ⟨⟨[], label.nameChars⟩, [], false⟩)
        = some ⟨[⟨⟨[], label.nameChars⟩, ⟨label, none, [], none⟩, Scope.initial⟩], none⟩ := by
      have hscope : Growth.scope ⟨[], none⟩ = Scope.initial := rfl
      rw [grow_open label.nameChars hscope, ← hlabel]
    unfold buildTree
    simp only [List.cons_append, List.foldlM_cons, hopened, List.foldlM_append, hgrow, grow_finish,
      Option.bind_eq_bind, Option.bind_some]
    rfl

/-- **A document** that is a tree of plain elements is read as that tree. -/
theorem readDocument?_typed {node : Node} (h : node.Every PlainElement) (htail : node.tail = none) :
    readDocument? (String.ofList (node.typed [])) = some node := by
  obtain ⟨pieces, hscan, hentity, hbuild⟩ := exists_typedPieces h htail
  have hstart := atStartTag_typed h.here []
  have hmark : withoutMark (node.typed []) = node.typed [] := by
    obtain ⟨c, more, htyped, -⟩ := atStartTag_iff.mp hstart
    rw [htyped]
    rfl
  have hassembled : Assembled [] (node.typed []) [] pieces :=
    { legal := legal_typed h [] fun _ hc => absurd hc List.not_mem_nil
      unmarked := hmark
      declaration := ⟨false, [], .nil,
        scanDeclaration_of_misc .nil (ne_instruction_of_atStartTag hstart)⟩
      start := hstart
      scan := hscan
      expand := expandContent_empty.mpr ⟨rfl, hentity⟩
      trailing := rfl }
  exact hassembled.readDocument?_eq.trans hbuild

end Rollout.Xml
