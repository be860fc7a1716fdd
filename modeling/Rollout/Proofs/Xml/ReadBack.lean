import Rollout.Proofs.Xml.Pieces
import Rollout.Proofs.Xml.Tree

/-!
# Trees that are written and read

The open elements grow with the parts of a tree, and when the last part is read the tree stands
where it was written. Its line ends are unified, which in the text of a document they are, and its
names are what their prefixes stand for where they are read.

- `Node.unified`: the tree with its line ends unified.
- `grow_textPieces`: **text** is put back, however its references cut it.
- `Node.reread`: what a tree is read as in a scope, when its names are written in some way.
- `grow_reread`: **a tree** is read as one more child of the element that is open.
- `buildTree_reread`: **a root** is read from its parts.
- `Writable`: what a node must be for its text to be read as the node.
- `buildTree_pieces`: **a root** whose names are found again is built from its parts.
-/

namespace Rollout.Xml

/-! ## Unified line ends -/

mutual

/-- The tree with the line ends of its texts and tails unified. -/
def Node.unified : Node → Node
  | ⟨label, text, children, tail⟩ =>
    ⟨label, text.map Text.unifyNewlines, unifiedAll children, tail.map Text.unifyNewlines⟩

/-- The trees with the line ends of their texts and tails unified. -/
def unifiedAll : List Node → List Node
  | [] => []
  | node :: nodes => node.unified :: unifiedAll nodes

end

/-- The characters between tags that belong to a node: the text of an element, and what follows the
node. -/
def Node.characterData (node : Node) : List Char :=
  (match node.label with
    | .element _ _ => (node.text.getD "").toList
    | _ => []) ++ (node.tail.getD "").toList

mutual

/-- Unified line ends change no label. -/
theorem labels_unified : (node : Node) → node.unified.labels = node.labels
  | ⟨label, text, children, tail⟩ => by
    rw [Node.unified, Node.labels, Node.labels, labelsAll_unifiedAll children]

theorem labelsAll_unifiedAll : (nodes : List Node) →
    Node.labelsAll (unifiedAll nodes) = Node.labelsAll nodes
  | [] => rfl
  | node :: nodes => by
    rw [unifiedAll, Node.labelsAll, Node.labelsAll, labels_unified node, labelsAll_unifiedAll nodes]

end

theorem unifyNewlines_of_not_mem {s : String} (h : '\r' ∉ s.toList) : Text.unifyNewlines s = s := by
  unfold Text.unifyNewlines
  rw [unifyNewlineChars_of_not_mem h, String.ofList_toList]

theorem map_unifyNewlines_of_not_mem {text : Option String} (h : '\r' ∉ (text.getD "").toList) :
    text.map Text.unifyNewlines = text := by
  cases text with
  | none => rfl
  | some s => exact congrArg some (unifyNewlines_of_not_mem h)

/-- The text of a comment or an instruction has its line ends unified already. -/
theorem SoundComment.not_mem {cs : List Char} (h : SoundComment cs) :
    '\r' ∉ ((some (String.ofList cs)).getD "").toList := by
  rw [Option.getD_some, String.toList_ofList]
  exact h.unified

theorem SoundInstruction.not_mem {target data : List Char} (h : SoundInstruction target data) :
    '\r' ∉ ((some (String.ofList (instructionText target data))).getD "").toList := by
  have htarget : '\r' ∉ target := fun hmem =>
    absurd (h.isName.isNameChar _ hmem) (by decide +kernel)
  rw [Option.getD_some, String.toList_ofList]
  unfold instructionText
  split
  · exact htarget
  · simpa [htarget] using h.unified

theorem unifiedAll_eq_self {nodes : List Node} (h : ∀ node ∈ nodes, node.unified = node) :
    unifiedAll nodes = nodes := by
  induction nodes with
  | nil => rw [unifiedAll]
  | cons node nodes ih =>
    obtain ⟨hfirst, hothers⟩ := List.forall_mem_cons.mp h
    rw [unifiedAll, hfirst, ih hothers]

/-- **Without carriage returns** between tags the tree stays as it is. -/
theorem unified_eq_self {node : Node}
    (h : node.Every fun each => Sound each ∧ '\r' ∉ each.characterData) : node.unified = node := by
  induction h with
  | @intro node here _ ih =>
    obtain ⟨hsound, hdata⟩ := here
    have hchildren := unifiedAll_eq_self ih
    obtain ⟨label, text, children, tail⟩ := node
    have htail := map_unifyNewlines_of_not_mem fun hmem => hdata (List.mem_append_right _ hmem)
    have htext : text.map Text.unifyNewlines = text := by
      refine map_unifyNewlines_of_not_mem ?_
      cases hsound with
      | element => exact fun hmem => hdata (List.mem_append_left _ hmem)
      | comment content => exact content.not_mem
      | instruction content => exact content.not_mem
    rw [Node.unified, htext, htail, hchildren]

/-- Line ends are not unified across a character that is no line end. -/
theorem unifyNewlineChars_append {a b : List Char} (h : b.head? ≠ some '\n') :
    Text.unifyNewlineChars (a ++ b) = Text.unifyNewlineChars a ++ Text.unifyNewlineChars b := by
  induction a using Text.unifyNewlineChars.induct with
  | case1 a ih =>
    show Text.unifyNewlineChars ('\r' :: '\n' :: (a ++ b)) = _
    rw [Text.unifyNewlineChars, Text.unifyNewlineChars, ih]
    rfl
  | case2 a ha ih =>
    have hab : ∀ more, a ++ b ≠ '\n' :: more := by
      intro more heq
      cases a with
      | nil => exact h (by rw [List.nil_append] at heq; rw [heq]; rfl)
      | cons c a => exact ha a (by rw [(List.cons.inj heq).1])
    rw [List.cons_append, unifyNewlineChars_return hab, unifyNewlineChars_return ha, ih]
    rfl
  | case3 c a _ hc ih =>
    rw [List.cons_append, unifyNewlineChars_cons hc, unifyNewlineChars_cons hc, ih]
    rfl
  | case4 => rfl

/-! ## Text -/

theorem addText_nil (node : Node) : node.addText [] = node := by
  have hsame : ∀ text : Option String, appendText text [] = text := fun _ => rfl
  obtain ⟨label, text, children, tail⟩ := node
  unfold Node.addText
  split
  case h_1 last hlast =>
    obtain ⟨lastLabel, lastText, lastChildren, lastTail⟩ := last
    dsimp only at hlast ⊢
    rw [hsame, List.dropLast_append_getLast? _ hlast]
  case h_2 => rfl

theorem appendText_appendText (text : Option String) (a b : List Char) :
    appendText (appendText text a) b = appendText text (a ++ b) := by
  unfold appendText
  cases a with
  | nil => rfl
  | cons c a =>
    cases b with
    | nil =>
      rw [List.append_nil]
      rfl
    | cons d b =>
      show some (text.getD "" ++ String.ofList (c :: a) ++ String.ofList (d :: b)) = _
      rw [String.append_assoc, ← String.ofList_append]
      rfl

/-- Text that is added in two parts is added as one. -/
theorem addText_addText (node : Node) (a b : List Char) :
    (node.addText a).addText b = node.addText (a ++ b) := by
  obtain ⟨label, text, children, tail⟩ := node
  rcases List.eq_nil_or_concat children with rfl | ⟨front, last, rfl⟩
  · exact congrArg (fun text => (⟨label, text, [], tail⟩ : Node)) (appendText_appendText text a b)
  · obtain ⟨lastLabel, lastText, lastChildren, lastTail⟩ := last
    have hadd : ∀ (lastTail : Option String) (more : List Char),
        Node.addText
            ⟨label, text, front ++ [⟨lastLabel, lastText, lastChildren, lastTail⟩], tail⟩ more
          = ⟨label, text, front ++ [⟨lastLabel, lastText, lastChildren, appendText lastTail more⟩],
            tail⟩ := fun lastTail more => by
      unfold Node.addText
      simp
    rw [List.concat_eq_append, hadd, hadd, hadd, appendText_appendText]

/-- **Text** between two tags is put back, with its line ends unified. -/
theorem grow_textPieces (cs : List Char) (frame : Frame) (frames : List Frame) :
    (textPieces cs).foldlM (grow Dtd.empty) ⟨frame :: frames, none⟩
      = some ⟨{ frame with node := frame.node.addText (Text.unifyNewlineChars cs) } :: frames,
          none⟩ := by
  induction cs using textPieces.induct generalizing frame with
  | case1 =>
    rw [textPieces, Text.unifyNewlineChars, addText_nil]
    rfl
  | case2 c cs hc ih =>
    have hcut : c :: cs = (c :: cs.takeWhile isVerbatim) ++ cs.dropWhile isVerbatim := by
      rw [List.cons_append, List.takeWhile_append_dropWhile]
    -- what ends the run is written as a reference, and no line end is
    have hhead : (cs.dropWhile isVerbatim).head? ≠ some '\n' := fun hline => by
      have hstop : StopsAt isVerbatim (cs.dropWhile isVerbatim) :=
        (exists_eq_append_dropWhile isVerbatim cs).choose_spec.2.2
      obtain ⟨more, hmore⟩ := List.head?_eq_some_iff.mp hline
      rw [hmore] at hstop
      exact absurd (stopsAt_cons.mp hstop) (by decide)
    have hunified : Text.unifyNewlineChars (c :: cs)
        = Text.unifyNewlineChars (c :: cs.takeWhile isVerbatim)
          ++ Text.unifyNewlineChars (cs.dropWhile isVerbatim) := by
      conv_lhs => rw [hcut]
      exact unifyNewlineChars_append hhead
    rw [textPieces, if_pos hc, List.foldlM_cons, hunified, ← addText_addText]
    exact ih { frame with
      node := frame.node.addText (Text.unifyNewlineChars (c :: cs.takeWhile isVerbatim)) }
  | case3 c cs hc ih =>
    have hreturn : c ≠ '\r' := by
      rintro rfl
      exact hc (by decide)
    have hadd : frame.node.addText (c :: Text.unifyNewlineChars cs)
        = (frame.node.addText [c]).addText (Text.unifyNewlineChars cs) :=
      (addText_addText frame.node [c] _).symm
    rw [textPieces, if_neg hc, List.foldlM_cons, unifyNewlineChars_cons hreturn, hadd]
    exact ih { frame with node := frame.node.addText [c] }

theorem appendText_none {text : Option String} (h : SoundText text) :
    appendText none (Text.unifyNewlineChars (text.getD "").toList)
      = text.map Text.unifyNewlines := by
  cases text with
  | none => rfl
  | some s =>
    obtain ⟨c, more, hs⟩ := List.exists_cons_of_ne_nil (h s rfl).1
    have hne : ¬ (Text.unifyNewlineChars s.toList).isEmpty = true := by
      rw [hs]
      unfold Text.unifyNewlineChars
      split <;> simp_all
    show appendText none (Text.unifyNewlineChars s.toList) = some (Text.unifyNewlines s)
    unfold appendText Text.unifyNewlines
    rw [if_neg hne, Option.getD_none, String.empty_append]

/-! ## Trees that are read again -/

/-- The scope inside a node and the label it is read with, when names are written as `tagOf` says
and `declarations` stand in the start tag. -/
def reopen (tagOf : QName → TagName) (declarations : List (TagName × String)) (scope : Scope) :
    Label → Option (Scope × Label)
  | .element name attributes =>
    openElement Dtd.empty scope
      ⟨tagOf name, (declarations ++ writtenEntries tagOf attributes).map escapedEntry, false⟩
  | label => some (scope, label)

mutual

/-- What the tree is read as in a scope; nothing when a prefix stands for nothing there. -/
def Node.reread (tagOf : QName → TagName) (declarations : List (TagName × String))
    (scope : Scope) : Node → Option Node
  | ⟨label, text, children, tail⟩ => do
    let (inner, read) ← reopen tagOf declarations scope label
    let inside ← rereadAll tagOf inner children
    pure ⟨read, text.map Text.unifyNewlines, inside, tail.map Text.unifyNewlines⟩

/-- What the trees are read as in a scope. -/
def rereadAll (tagOf : QName → TagName) (scope : Scope) : List Node → Option (List Node)
  | [] => some []
  | node :: nodes => do
    let first ← node.reread tagOf [] scope
    let others ← rereadAll tagOf scope nodes
    pure (first :: others)

end

section Reread

variable {tagOf : QName → TagName}

/-- With the parts of the node one more child is read. -/
def Grows (tagOf : QName → TagName) (node : Node) : Prop :=
  ∀ (frame : Frame) (frames : List Frame),
    (node.pieces tagOf []).foldlM (grow Dtd.empty) ⟨frame :: frames, none⟩
      = (node.reread tagOf [] frame.scope).map fun read =>
          ⟨{ frame with node := frame.node.addChild read } :: frames, none⟩

theorem addText_addChild (node : Node) (label : Label) (text : Option String)
    (children : List Node) (cs : List Char) :
    (node.addChild ⟨label, text, children, none⟩).addText cs
      = node.addChild ⟨label, text, children, appendText none cs⟩ := by
  unfold Node.addChild Node.addText
  simp

/-- What follows a node is put back behind it. -/
theorem grow_tail {label : Label} {text tail : Option String} {children : List Node}
    (htail : SoundText tail) (frame : Frame) (frames : List Frame) :
    (textPieces (tail.getD "").toList).foldlM (grow Dtd.empty)
        ⟨{ frame with node := frame.node.addChild ⟨label, text, children, none⟩ } :: frames, none⟩
      = some ⟨{ frame with
          node := frame.node.addChild ⟨label, text, children, tail.map Text.unifyNewlines⟩ }
            :: frames, none⟩ := by
  rw [grow_textPieces]
  dsimp only
  rw [addText_addChild, appendText_none htail]

theorem grow_piecesAll {nodes : List Node} (hnodes : ∀ node ∈ nodes, Grows tagOf node)
    (frame : Frame) (frames : List Frame) :
    (piecesAll tagOf nodes).foldlM (grow Dtd.empty) ⟨frame :: frames, none⟩
      = (rereadAll tagOf frame.scope nodes).map fun reads =>
          ⟨{ frame with
            node := { frame.node with children := frame.node.children ++ reads } } :: frames,
            none⟩ := by
  induction nodes generalizing frame with
  | nil =>
    rw [piecesAll, rereadAll]
    obtain ⟨tag, ⟨label, text, children, tail⟩, inner⟩ := frame
    dsimp only [Option.map_some]
    rw [List.append_nil]
    rfl
  | cons node nodes ih =>
    obtain ⟨hfirst, hothers⟩ := List.forall_mem_cons.mp hnodes
    rw [piecesAll, rereadAll, List.foldlM_append, hfirst frame frames]
    cases node.reread tagOf [] frame.scope with
    | none => rfl
    | some read =>
      refine (ih hothers { frame with node := frame.node.addChild read }).trans ?_
      dsimp only [Node.addChild, Option.bind_eq_bind, Option.bind_some]
      cases rereadAll tagOf frame.scope nodes with
      | none => rfl
      | some reads =>
        dsimp only [Option.map_some, Option.bind_some, Option.pure_def]
        rw [List.append_assoc]
        rfl

/-- What is inside an element is put back. -/
theorem grow_content {label : Label} {text : Option String} {children : List Node}
    (htext : SoundText text) (hchildren : ∀ child ∈ children, Grows tagOf child)
    (tag : TagName) (scope : Scope) (frames : List Frame) :
    (textPieces (text.getD "").toList ++ piecesAll tagOf children).foldlM (grow Dtd.empty)
        ⟨⟨tag, ⟨label, none, [], none⟩, scope⟩ :: frames, none⟩
      = (rereadAll tagOf scope children).map fun inside =>
          ⟨⟨tag, ⟨label, text.map Text.unifyNewlines, inside, none⟩, scope⟩ :: frames, none⟩ := by
  have hadd : Node.addText ⟨label, none, [], none⟩ (Text.unifyNewlineChars (text.getD "").toList)
      = ⟨label, text.map Text.unifyNewlines, [], none⟩ :=
    congrArg (fun text => (⟨label, text, [], none⟩ : Node)) (appendText_none htext)
  rw [List.foldlM_append, grow_textPieces]
  dsimp only
  rw [hadd]
  exact grow_piecesAll hchildren ⟨tag, ⟨label, text.map Text.unifyNewlines, [], none⟩, scope⟩ frames

/-- A start tag opens its element. -/
theorem grow_startPiece (frames : List Frame) (declarations : List (TagName × String))
    (name : QName) (attributes : Attributes) (closed : Bool) :
    grow Dtd.empty ⟨frames, none⟩ (startPiece tagOf declarations name attributes closed)
      = (reopen tagOf declarations (Growth.scope ⟨frames, none⟩) (.element name attributes)).map
          fun opened =>
            if closed then Growth.place ⟨opened.2, none, [], none⟩ frames
            else ⟨⟨tagOf name, ⟨opened.2, none, [], none⟩, opened.1⟩ :: frames, none⟩ := by
  -- whether the tag is closed does not matter for what it opens
  have hopen : openElement Dtd.empty (Growth.scope ⟨frames, none⟩) ⟨tagOf name,
        (declarations ++ writtenEntries tagOf attributes).map escapedEntry, closed⟩
      = reopen tagOf declarations (Growth.scope ⟨frames, none⟩) (.element name attributes) := rfl
  show Option.bind (openElement Dtd.empty _ _) _ = _
  rw [hopen]
  cases reopen tagOf declarations (Growth.scope ⟨frames, none⟩) (.element name attributes) with
  | none => rfl
  | some opened =>
    dsimp only [Option.map_some, Option.bind_some]
    split <;> rfl

/-- **An element** is read from its start tag on, up to its tail. -/
theorem grow_element {name : QName} {attributes : Attributes} {text tail : Option String}
    {children : List Node} (htext : SoundText text)
    (hchildren : ∀ child ∈ children, Grows tagOf child)
    (declarations : List (TagName × String)) (frames : List Frame) :
    (Node.pieces tagOf declarations ⟨.element name attributes, text, children, tail⟩).foldlM
        (grow Dtd.empty) ⟨frames, none⟩
      = (Node.reread tagOf declarations (Growth.scope ⟨frames, none⟩)
          ⟨.element name attributes, text, children, none⟩).bind fun read =>
            (textPieces (tail.getD "").toList).foldlM (grow Dtd.empty)
              (Growth.place read frames) := by
  have hstart := @grow_startPiece tagOf frames declarations name attributes
  rw [Node.reread]
  by_cases hempty : text = none ∧ children = []
  · obtain ⟨rfl, rfl⟩ := hempty
    rw [pieces_closed, List.foldlM_cons, hstart true]
    cases reopen tagOf declarations (Growth.scope ⟨frames, none⟩) (.element name attributes) <;> rfl
  · rw [pieces_open _ _ _ _ _ hempty, List.foldlM_append, List.cons_append, List.foldlM_cons,
      hstart false]
    cases reopen tagOf declarations (Growth.scope ⟨frames, none⟩) (.element name attributes) with
    | none => rfl
    | some opened =>
      dsimp only [Option.map_some, Option.bind_eq_bind, Option.bind_some]
      rw [if_neg Bool.false_ne_true, List.foldlM_append, grow_content htext hchildren]
      cases rereadAll tagOf opened.1 children with
      | none => rfl
      | some inside =>
        show Option.bind (Option.bind (if _ then _ else _) _) _ = _
        rw [if_pos rfl]
        rfl

/-- **A tree** is read as one more child of the element that is open. -/
theorem grow_reread {node : Node} (h : node.Every Sound) : Grows tagOf node := by
  induction h with
  | @intro node here _ ih =>
    intro frame frames
    obtain ⟨label, text, children, tail⟩ := node
    have htail : SoundText tail := here.behind
    cases here with
    | @comment cs _ content =>
      rw [Node.pieces, Node.reread, List.foldlM_cons, map_unifyNewlines_of_not_mem content.not_mem]
      show List.foldlM _ (Growth.place ⟨.comment, some (String.ofList _), [], none⟩ _) _ = _
      rw [Option.getD_some, String.toList_ofList]
      exact grow_tail htail frame frames
    | @instruction target data _ content =>
      rw [Node.pieces, Node.reread, List.foldlM_cons, map_unifyNewlines_of_not_mem content.not_mem,
        Option.getD_some, String.toList_ofList, instructionPiece_eq content]
      exact grow_tail htail frame frames
    | @element name attributes _ _ _ named content =>
      have hscope : Growth.scope ⟨frame :: frames, none⟩ = frame.scope := rfl
      rw [grow_element content ih, hscope, Node.reread, Node.reread]
      cases reopen tagOf [] frame.scope (.element name attributes) with
      | none => rfl
      | some opened =>
        dsimp only [Option.bind_eq_bind, Option.bind_some]
        cases rereadAll tagOf opened.1 children with
        | none => rfl
        | some inside => exact grow_tail htail frame frames

/-- **A root** is read from its parts. -/
theorem buildTree_reread {root : Node} (hroot : root.IsRoot) (h : root.Every Sound)
    (declarations : List (TagName × String)) :
    buildTree Dtd.empty (root.pieces tagOf declarations)
      = root.reread tagOf declarations Scope.initial := by
  obtain ⟨name, attributes, text, children, rfl⟩ := hroot
  have hnothing : textPieces ((none : Option String).getD "").toList = [] := by
    show textPieces [] = []
    rw [textPieces]
  have hscope : Growth.scope ⟨[], none⟩ = Scope.initial := rfl
  unfold buildTree
  rw [grow_element h.here.content (fun child hchild => grow_reread (h.inside child hchild)),
    hnothing, hscope]
  cases Node.reread tagOf declarations Scope.initial
    ⟨.element name attributes, text, children, none⟩ <;> rfl

end Reread

/-! ## Names that are found again -/

/-- What a node must be for its text to be read as the node: as the grammar allows it, and with
names that are found again in the scope. -/
structure Writable (scope : Scope) (tagOf : QName → TagName) (node : Node) : Prop where
  sound : Sound node
  resolves : ∀ name attributes, node.label = .element name attributes →
    Resolves scope tagOf name attributes

section Writable

variable {scope : Scope} {tagOf : QName → TagName}

theorem rereadAll_eq_unified {nodes : List Node}
    (h : ∀ node ∈ nodes, node.reread tagOf [] scope = some node.unified) :
    rereadAll tagOf scope nodes = some (unifiedAll nodes) := by
  induction nodes with
  | nil => rw [rereadAll, unifiedAll]
  | cons node nodes ih =>
    obtain ⟨hfirst, hothers⟩ := List.forall_mem_cons.mp h
    rw [rereadAll, unifiedAll, hfirst, ih hothers]
    rfl

/-- A node whose names are found again is read as it was, when its inside is. -/
theorem reread_of_reopen {declarations : List (TagName × String)} {scope' : Scope} {node : Node}
    (hopen : reopen tagOf declarations scope' node.label = some (scope, node.label))
    (hinside : ∀ child ∈ node.children, child.reread tagOf [] scope = some child.unified) :
    node.reread tagOf declarations scope' = some node.unified := by
  obtain ⟨label, text, children, tail⟩ := node
  rw [Node.reread, Node.unified, hopen]
  dsimp only [Option.bind_eq_bind, Option.bind_some]
  rw [rereadAll_eq_unified hinside]
  rfl

/-- **A tree** whose names are found again is read as it was, with its line ends unified. -/
theorem reread_eq_unified {node : Node} (h : node.Every (Writable scope tagOf)) :
    node.reread tagOf [] scope = some node.unified := by
  induction h with
  | @intro node here _ ih =>
    refine reread_of_reopen ?_ ih
    have hresolves := here.resolves
    cases here.sound with
    | comment => rfl
    | instruction => rfl
    | element named =>
      exact openElement_written false nofun List.nodup_nil rfl (hresolves _ _ rfl) named.nodup

/-- **A root** whose names are found again is built from its parts. -/
theorem buildTree_pieces {name : QName} {attributes : Attributes} {text : Option String}
    {children : List Node} {declarations : List (TagName × String)}
    (hdeclarations : ∀ entry ∈ declarations, (declaredPrefix? entry.1).isSome = true)
    (hdistinct : (declarations.map Prod.fst).Nodup)
    (hscope : declarations.foldlM Scope.declare Scope.initial = some scope)
    (hroot : Node.Every (Writable scope tagOf) ⟨.element name attributes, text, children, none⟩) :
    buildTree Dtd.empty
        (Node.pieces tagOf declarations ⟨.element name attributes, text, children, none⟩)
      = some (Node.unified ⟨.element name attributes, text, children, none⟩) := by
  have hsound := hroot.mono fun _ heach => heach.sound
  rw [buildTree_reread ⟨name, attributes, text, children, rfl⟩ hsound]
  refine reread_of_reopen ?_ fun child hchild => reread_eq_unified (hroot.inside child hchild)
  cases hsound.here with
  | element named =>
    exact openElement_written false hdeclarations hdistinct hscope
      (hroot.here.resolves _ _ rfl) named.nodup

end Writable

end Rollout.Xml
