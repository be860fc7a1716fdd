import Rollout.Proofs.Xml.Tree
import Rollout.Proofs.Xml.Written

/-!
# Trees as the scanner finds them

The parts that are scanned from the text of a tree depend on the tree and on how its names are
written, but not on what the names stand for where they are read.

- `textPieces`, `Node.pieces`: the parts of a text and of a tree that are written.
- `mem_pieces`: **what the parts are**: start tags of the elements, and parts without a name.
- `Spellable`: the nodes whose text falls into these parts.
- `Scans`: parts are scanned one after the other, and an element stays open.
- `scans_write`: **a tree** is scanned to its parts.
- `scanRoot_write`: **a root** is scanned to its parts, whatever follows it.
- `legal_write`: the text of a tree is made of legal characters.
-/

namespace Rollout.Xml

/-! ## Parts that are written -/

/-- Whether `c` is written as itself. -/
def isVerbatim (c : Char) : Bool :=
  c != '&' && c != '<' && c != '>'

theorem isVerbatim_iff {c : Char} : isVerbatim c = true ↔ c ≠ '&' ∧ c ≠ '<' ∧ c ≠ '>' := by
  unfold isVerbatim
  simp [and_assoc]

/-- The parts of a text: a character that is written as a reference stands alone, and the line ends
of what stands between references are unified. -/
def textPieces : List Char → List Piece
  | [] => []
  | c :: cs =>
    if isVerbatim c then
      .text (Text.unifyNewlineChars (c :: cs.takeWhile isVerbatim))
        :: textPieces (cs.dropWhile isVerbatim)
    else .text [c] :: textPieces cs
termination_by cs => cs.length
decreasing_by
  · exact Nat.lt_succ_of_le (List.dropWhile_suffix isVerbatim).length_le
  · exact Nat.lt_succ_self _

/-- The part of an instruction: its target goes up to the first white space. -/
def instructionPiece (text : List Char) : Piece :=
  .instruction (text.takeWhile fun c => !isSpace c) ((text.dropWhile fun c => !isSpace c).drop 1)

/-- The start tag of an element. -/
def startPiece (tagOf : QName → TagName) (declarations : List (TagName × String)) (name : QName)
    (attributes : Attributes) (closed : Bool) : Piece :=
  .start ⟨tagOf name, (declarations ++ writtenEntries tagOf attributes).map escapedEntry, closed⟩

mutual

/-- The parts of a tree with its tail; `declarations` stand in its start tag. -/
def Node.pieces (tagOf : QName → TagName) (declarations : List (TagName × String)) :
    Node → List Piece
  | ⟨.comment, text, _, tail⟩ =>
    .comment (text.getD "").toList :: textPieces (tail.getD "").toList
  | ⟨.instruction, text, _, tail⟩ =>
    instructionPiece (text.getD "").toList :: textPieces (tail.getD "").toList
  | ⟨.element name attributes, text, children, tail⟩ =>
    let start := startPiece tagOf declarations name attributes
    let whole :=
      if text.isNone && children.isEmpty then [start true]
      else
        start false :: (textPieces (text.getD "").toList ++ piecesAll tagOf children)
          ++ [.finish (tagOf name)]
    whole ++ textPieces (tail.getD "").toList

/-- The parts of a list of trees. -/
def piecesAll (tagOf : QName → TagName) : List Node → List Piece
  | [] => []
  | node :: nodes => node.pieces tagOf [] ++ piecesAll tagOf nodes

end

section Pieces

variable (tagOf : QName → TagName) (name : QName) (attributes : Attributes)
  (declarations : List (TagName × String)) {text : Option String} (tail : Option String)
  {children : List Node}

theorem pieces_closed :
    Node.pieces tagOf declarations ⟨.element name attributes, none, [], tail⟩
      = startPiece tagOf declarations name attributes true :: textPieces (tail.getD "").toList := by
  rw [Node.pieces]
  rfl

theorem pieces_open (hne : ¬ (text = none ∧ children = [])) :
    Node.pieces tagOf declarations ⟨.element name attributes, text, children, tail⟩
      = (startPiece tagOf declarations name attributes false
          :: (textPieces (text.getD "").toList ++ piecesAll tagOf children)
          ++ [.finish (tagOf name)]) ++ textPieces (tail.getD "").toList := by
  have hcontent : ¬ (text.isNone && children.isEmpty) = true := by simpa using hne
  rw [Node.pieces, if_neg hcontent]

end Pieces

/-! ## What the parts are -/

/-- A part that is neither a start tag nor a reference to an entity. -/
def Piece.Plain (piece : Piece) : Prop :=
  (∀ tag, piece ≠ .start tag) ∧ ∀ name, piece ≠ .entity name

theorem plain_of_mem_textPieces {cs : List Char} {piece : Piece} (h : piece ∈ textPieces cs) :
    piece.Plain := by
  have htext : ∀ run, (Piece.text run).Plain := fun run => ⟨nofun, nofun⟩
  induction cs using textPieces.induct with
  | case1 =>
    rw [textPieces] at h
    cases h
  | case2 c cs hc ih =>
    rw [textPieces, if_pos hc] at h
    rcases List.mem_cons.mp h with rfl | h
    · exact htext _
    · exact ih h
  | case3 c cs hc ih =>
    rw [textPieces, if_neg hc] at h
    rcases List.mem_cons.mp h with rfl | h
    · exact htext _
    · exact ih h

mutual

/-- **The parts of a tree** are plain, or start tags of its elements; only that of the root holds
declarations. -/
theorem mem_pieces {tagOf : QName → TagName} {piece : Piece} :
    (node : Node) → (declarations : List (TagName × String)) →
    piece ∈ node.pieces tagOf declarations → piece.Plain ∨
      ∃ declared name attributes closed, (declared = declarations ∨ declared = []) ∧
        Label.element name attributes ∈ node.labels ∧
        piece = startPiece tagOf declared name attributes closed
  | ⟨.comment, text, children, tail⟩, declarations, h => by
    rw [Node.pieces] at h
    rcases List.mem_cons.mp h with rfl | h
    · exact .inl ⟨nofun, nofun⟩
    · exact .inl (plain_of_mem_textPieces h)
  | ⟨.instruction, text, children, tail⟩, declarations, h => by
    rw [Node.pieces] at h
    rcases List.mem_cons.mp h with rfl | h
    · exact .inl ⟨nofun, nofun⟩
    · exact .inl (plain_of_mem_textPieces h)
  | ⟨.element name attributes, text, children, tail⟩, declarations, h => by
    have hstart : ∀ closed, piece = startPiece tagOf declarations name attributes closed →
        piece.Plain ∨ ∃ declared name' attributes' closed,
          (declared = declarations ∨ declared = []) ∧
          Label.element name' attributes' ∈
            Node.labels ⟨.element name attributes, text, children, tail⟩ ∧
          piece = startPiece tagOf declared name' attributes' closed := fun closed heq =>
      .inr ⟨declarations, name, attributes, closed, .inl rfl, Node.mem_labels.mpr (.inl rfl), heq⟩
    by_cases hempty : text = none ∧ children = []
    · obtain ⟨rfl, rfl⟩ := hempty
      rw [pieces_closed] at h
      rcases List.mem_cons.mp h with heq | h
      · exact hstart true heq
      · exact .inl (plain_of_mem_textPieces h)
    · rw [pieces_open _ _ _ _ _ hempty] at h
      simp only [List.mem_append, List.mem_cons, List.not_mem_nil, or_false] at h
      rcases h with ((heq | htext | hchild) | rfl) | htail
      · exact hstart false heq
      · exact .inl (plain_of_mem_textPieces htext)
      · refine (mem_piecesAll children hchild).imp_right ?_
        rintro ⟨name', attributes', closed, hmem, heq⟩
        refine ⟨[], name', attributes', closed, .inr rfl, ?_, heq⟩
        rw [Node.labels]
        exact List.mem_cons_of_mem _ hmem
      · exact .inl ⟨nofun, nofun⟩
      · exact .inl (plain_of_mem_textPieces htail)

theorem mem_piecesAll {tagOf : QName → TagName} {piece : Piece} :
    (nodes : List Node) → piece ∈ piecesAll tagOf nodes → piece.Plain ∨
      ∃ name attributes closed, Label.element name attributes ∈ Node.labelsAll nodes ∧
        piece = startPiece tagOf [] name attributes closed
  | [], h => by
    rw [piecesAll] at h
    cases h
  | node :: nodes, h => by
    rw [piecesAll] at h
    rw [Node.labelsAll]
    rcases List.mem_append.mp h with h | h
    · refine (mem_pieces node [] h).imp_right ?_
      rintro ⟨declared, name, attributes, closed, hdeclared, hmem, heq⟩
      obtain rfl : declared = [] := hdeclared.elim id id
      exact ⟨name, attributes, closed, List.mem_append_left _ hmem, heq⟩
    · refine (mem_piecesAll nodes h).imp_right ?_
      rintro ⟨name, attributes, closed, hmem, heq⟩
      exact ⟨name, attributes, closed, List.mem_append_right _ hmem, heq⟩

end

theorem not_entity_mem_pieces {tagOf : QName → TagName} {declarations : List (TagName × String)}
    {node : Node} (name : List Char) : .entity name ∉ node.pieces tagOf declarations := fun h => by
  rcases mem_pieces node declarations h with hplain | ⟨_, _, _, _, -, -, heq⟩
  · exact hplain.2 name rfl
  · cases heq

/-! ## Parts that are scanned -/

/-- From some open elements and a text, parts are scanned until the rest is left; an element stays
open. -/
inductive Scans : Nat → List Char → List Piece → Nat → List Char → Prop
  | refl {depth : Nat} {cs : List Char} : Scans depth cs [] depth cs
  | step {depth next depth' : Nat} {piece : Piece} {pieces : List Piece} {cs mid rest : List Char}
      (scan : scanPiece cs = some (piece, mid)) (nested : piece.depthAfter? depth = some (next + 1))
      (more : Scans (next + 1) mid pieces depth' rest) :
      Scans depth cs (piece :: pieces) depth' rest

section Scans

variable {depth depth' depth'' : Nat} {cs mid rest : List Char} {pieces pieces' : List Piece}

theorem Scans.trans (h : Scans depth cs pieces depth' mid)
    (h' : Scans depth' mid pieces' depth'' rest) :
    Scans depth cs (pieces ++ pieces') depth'' rest := by
  induction h with
  | refl => exact h'
  | step scan nested _ ih => exact .step scan nested (ih h')

theorem Scans.single {next : Nat} {piece : Piece} (scan : scanPiece cs = some (piece, rest))
    (nested : piece.depthAfter? depth = some (next + 1)) :
    Scans depth cs [piece] (next + 1) rest :=
  .step scan nested .refl

/-- **What is scanned** up to the part that closes the root is scanned as a root. -/
theorem Scans.scanRoot_eq {last : Piece} (h : Scans depth cs pieces depth' mid)
    (hlast : scanPiece mid = some (last, rest)) (hclosed : last.depthAfter? depth' = some 0) :
    ∀ fuel, cs.length < fuel → scanRoot fuel depth cs = some (pieces ++ [last], rest) := by
  induction h with
  | refl =>
    intro fuel hfuel
    obtain ⟨fuel, rfl⟩ := Nat.exists_eq_add_one_of_ne_zero (n := fuel) (by omega)
    rw [scanRoot, hlast]
    show Option.bind (last.depthAfter? _) _ = _
    rw [hclosed]
    rfl
  | @step depth next _ piece pieces cs mid _ scan nested _ ih =>
    intro fuel hfuel
    obtain ⟨fuel, rfl⟩ := Nat.exists_eq_add_one_of_ne_zero (n := fuel) (by omega)
    obtain ⟨used, rfl, hspelled⟩ := scanPiece_eq_some scan
    have hused := List.length_pos_iff.mpr hspelled.ne_nil
    rw [List.length_append] at hfuel
    have hmore := ih hlast hclosed fuel (by omega)
    rw [scanRoot, scan]
    show Option.bind (piece.depthAfter? depth) _ = _
    rw [nested]
    dsimp only [Option.bind_some]
    rw [if_neg (Nat.succ_ne_zero _), hmore]
    rfl

end Scans

/-! ## Text -/

theorem escapeChar_of_isVerbatim {c : Char} (h : isVerbatim c = true) : escapeChar c = [c] := by
  obtain ⟨hamp, hlt, hgt⟩ := isVerbatim_iff.mp h
  unfold escapeChar
  simp only [beq_iff_eq, hamp, hlt, hgt, if_false]

theorem refers_escapeChar {c : Char} (h : isVerbatim c = false) : Refers (escapeChar c) c := by
  rcases escapeChar_cases c with hrefers | ⟨-, hplain⟩
  · exact hrefers
  · rw [isVerbatim_iff.mpr hplain] at h
    cases h

theorem flatMap_escapeChar_of_verbatim {run : List Char} (h : ∀ c ∈ run, isVerbatim c = true) :
    run.flatMap escapeChar = run := by
  have hself : run.flatMap escapeChar = run.flatMap fun c => [c] :=
    List.flatMap_congr fun c hc => escapeChar_of_isVerbatim (h c hc)
  rw [hself, List.flatMap_singleton']

/-- What is written for a text ends a run of plain characters, unless the text goes on with one. -/
theorem stopsAt_escaped {cs : List Char} (h : StopsAt isVerbatim cs) (rest : List Char) :
    StopsAt isPlain (cs.flatMap escapeChar ++ '<' :: rest) := by
  cases cs with
  | nil => exact stopsAt_cons.mpr (by decide)
  | cons c cs =>
    obtain ⟨body, hbody, -⟩ := refers_escapeChar (stopsAt_cons.mp h)
    rw [List.flatMap_cons, hbody]
    exact stopsAt_cons.mpr (by decide)

/-- **Text** between two tags is scanned to its parts. -/
theorem scans_text (cs : List Char) (depth : Nat) (rest : List Char) :
    Scans (depth + 1) (cs.flatMap escapeChar ++ '<' :: rest) (textPieces cs) (depth + 1)
      ('<' :: rest) := by
  induction cs using textPieces.induct with
  | case1 =>
    rw [textPieces]
    exact .refl
  | case2 c cs hc ih =>
    have hrun : ∀ d ∈ c :: cs.takeWhile isVerbatim, isVerbatim d = true :=
      List.forall_mem_cons.mpr ⟨hc, fun d hd => List.mem_takeWhile_imp hd⟩
    have hcut : c :: cs = (c :: cs.takeWhile isVerbatim) ++ cs.dropWhile isVerbatim := by
      rw [List.cons_append, List.takeWhile_append_dropWhile]
    have hstop : StopsAt isVerbatim (cs.dropWhile isVerbatim) :=
      (exists_eq_append_dropWhile isVerbatim cs).choose_spec.2.2
    rw [textPieces, if_pos hc, hcut, List.flatMap_append, flatMap_escapeChar_of_verbatim hrun,
      List.append_assoc]
    exact .step (scanPiece_run (List.cons_ne_nil _ _) (fun d hd => isVerbatim_iff.mp (hrun d hd))
      (stopsAt_escaped hstop rest)) rfl ih
  | case3 c cs hc ih =>
    rw [textPieces, if_neg hc, List.flatMap_cons, List.append_assoc]
    exact .step (scanPiece_refers (refers_escapeChar (by simpa using hc)) _) rfl ih

/-! ## Nodes -/

/-- The nodes whose text falls into their parts: as the grammar allows them, and with names that
tags can write. -/
structure Spellable (tagOf : QName → TagName) (node : Node) : Prop where
  sound : Sound node
  tags : ∀ name attributes, node.label = .element name attributes →
    IsTagName (tagOf name) ∧ ∀ entry ∈ attributes, IsTagName (tagOf entry.1)

/-- A name as tags write it. -/
def rawName (tagOf : QName → TagName) (name : QName) : List Char :=
  (tagOf name).raw

theorem isTagName_of_mem_writtenEntries {tagOf : QName → TagName} {attributes : Attributes}
    (h : ∀ entry ∈ attributes, IsTagName (tagOf entry.1)) :
    ∀ entry ∈ writtenEntries tagOf attributes, IsTagName entry.1 := by
  intro entry hentry
  obtain ⟨original, horiginal, rfl⟩ := List.mem_map.mp hentry
  exact h original horiginal

theorem escapeOptional_eq (text : Option String) :
    escapeOptional text = (text.getD "").toList.flatMap escapeChar := by
  cases text <;> rfl

theorem isEmpty_escapeOptional {text : Option String} (h : SoundText text) :
    (escapeOptional text).isEmpty = text.isNone := by
  cases text with
  | none => rfl
  | some s =>
    obtain ⟨c, more, hs⟩ := List.exists_cons_of_ne_nil (h s rfl).1
    show (s.toList.flatMap escapeChar).isEmpty = false
    rw [hs, List.flatMap_cons]
    rcases escapeChar_cases c with ⟨body, hbody, -⟩ | ⟨hself, -⟩
    · rw [hbody]
      rfl
    · rw [hself]
      rfl

/-- The target and the data of an instruction are found in its text. -/
theorem instructionPiece_eq {target data : List Char} (h : SoundInstruction target data) :
    instructionPiece (instructionText target data) = .instruction target data := by
  have htarget : ∀ c ∈ target, (!isSpace c) = true := fun c hc => by
    rw [not_isSpace_of_isNameChar (h.isName.isNameChar c hc)]
    rfl
  have hspace : (!isSpace ' ') = false := by decide
  unfold instructionPiece instructionText
  split
  case isTrue hempty =>
    obtain rfl : data = [] := List.isEmpty_iff.mp hempty
    have htake : target.takeWhile (fun c => !isSpace c) = target :=
      List.takeWhile_eq_self_iff.mpr htarget
    have hdrop : target.dropWhile (fun c => !isSpace c) = [] :=
      List.dropWhile_eq_nil_iff.mpr htarget
    rw [htake, hdrop]
    rfl
  case isFalse =>
    rw [List.takeWhile_append_of_pos htarget, List.dropWhile_append_of_pos htarget,
      List.takeWhile_cons_of_neg (by rw [hspace]; decide),
      List.dropWhile_cons_of_neg (by rw [hspace]; decide), List.append_nil]
    rfl

section Markup

variable (tagOf : QName → TagName) (name : QName) (attributes : Attributes)
  (declarations : List (TagName × String)) {text : Option String} (tail : Option String)
  {children : List Node}

theorem flatMap_writeAttribute (tagOf : QName → TagName) (attributes : Attributes) :
    attributes.flatMap (writeAttribute (rawName tagOf))
      = (writtenEntries tagOf attributes).flatMap entryText := by
  unfold writtenEntries
  rw [List.flatMap_map]
  rfl

/-- An element without content is one tag. -/
theorem write_closed :
    Node.write (rawName tagOf) (declarations.flatMap entryText)
        ⟨.element name attributes, none, [], tail⟩
      = '<' :: ((tagOf name).raw
        ++ ((declarations ++ writtenEntries tagOf attributes).flatMap entryText
          ++ (tagEnd true ++ escapeOptional tail))) := by
  rw [Node.write, flatMap_writeAttribute, List.flatMap_append]
  show '<' :: (tagOf name).raw ++ _ ++ _ ++ " />".toList ++ _ =
    '<' :: (_ ++ (_ ++ (" />".toList ++ _)))
  simp only [List.cons_append, List.append_assoc]

/-- An element with content is a start tag, its content and an end tag. -/
theorem write_open (hne : ¬ (text = none ∧ children = [])) (htext : SoundText text) :
    Node.write (rawName tagOf) (declarations.flatMap entryText)
        ⟨.element name attributes, text, children, tail⟩
      = '<' :: ((tagOf name).raw
        ++ ((declarations ++ writtenEntries tagOf attributes).flatMap entryText
          ++ (tagEnd false ++ (escapeOptional text ++ writeAll (rawName tagOf) children
            ++ '<' :: '/' :: ((tagOf name).raw ++ '>' :: escapeOptional tail))))) := by
  have hcontent : ¬ ((escapeOptional text).isEmpty && children.isEmpty) = true := by
    rw [isEmpty_escapeOptional htext]
    simpa using hne
  rw [Node.write, flatMap_writeAttribute, List.flatMap_append, if_neg hcontent]
  show '<' :: (tagOf name).raw ++ _ ++ _ ++ ('>' :: escapeOptional text ++ _ ++ ['<', '/']
    ++ (tagOf name).raw ++ ['>']) ++ _ = '<' :: (_ ++ (_ ++ (['>'] ++ _)))
  simp only [List.cons_append, List.append_assoc, List.nil_append]

end Markup

/-- The text of a node begins with markup. -/
theorem exists_write (nameOf : QName → List Char) (declarations : List Char) (node : Node) :
    ∃ more, node.write nameOf declarations = '<' :: more := by
  obtain ⟨label, text, children, tail⟩ := node
  cases label <;>
  · rw [Node.write]
    exact ⟨_, rfl⟩

theorem exists_writeAll (nameOf : QName → List Char) (nodes : List Node) (rest : List Char) :
    ∃ more, writeAll nameOf nodes ++ '<' :: rest = '<' :: more := by
  cases nodes with
  | nil =>
    rw [writeAll]
    exact ⟨rest, rfl⟩
  | cons node nodes =>
    obtain ⟨more, hmore⟩ := exists_write nameOf [] node
    rw [writeAll, hmore]
    exact ⟨_, rfl⟩

/-! ## Trees -/

/-- Inside an element the text of the node is scanned to its parts. -/
def ScansWhole (tagOf : QName → TagName) (node : Node) : Prop :=
  ∀ (depth : Nat) (rest : List Char),
    Scans (depth + 1) (node.write (rawName tagOf) [] ++ '<' :: rest) (node.pieces tagOf [])
      (depth + 1) ('<' :: rest)

section Trees

variable {tagOf : QName → TagName} {name : QName} {attributes : Attributes}
  {text tail : Option String} {children : List Node}

/-- A start tag is scanned as it was written. -/
theorem scanPiece_startPiece {declarations : List (TagName × String)}
    (hdeclarations : ∀ entry ∈ declarations, IsTagName entry.1) (htag : IsTagName (tagOf name))
    (hattributes : ∀ entry ∈ attributes, IsTagName (tagOf entry.1)) (closed : Bool)
    (rest : List Char) :
    scanPiece ('<' :: ((tagOf name).raw
        ++ ((declarations ++ writtenEntries tagOf attributes).flatMap entryText
          ++ (tagEnd closed ++ rest))))
      = some (startPiece tagOf declarations name attributes closed, rest) :=
  scanPiece_start htag (List.forall_mem_append.mpr
    ⟨hdeclarations, isTagName_of_mem_writtenEntries hattributes⟩) closed rest

theorem scans_optional (text : Option String) (depth : Nat) (rest : List Char) :
    Scans (depth + 1) (escapeOptional text ++ '<' :: rest) (textPieces (text.getD "").toList)
      (depth + 1) ('<' :: rest) := by
  rw [escapeOptional_eq]
  exact scans_text _ depth rest

theorem scans_writeAll {nodes : List Node} (hnodes : ∀ node ∈ nodes, ScansWhole tagOf node)
    (depth : Nat) (rest : List Char) :
    Scans (depth + 1) (writeAll (rawName tagOf) nodes ++ '<' :: rest) (piecesAll tagOf nodes)
      (depth + 1) ('<' :: rest) := by
  induction nodes with
  | nil =>
    rw [writeAll, piecesAll]
    exact .refl
  | cons node nodes ih =>
    obtain ⟨hfirst, hothers⟩ := List.forall_mem_cons.mp hnodes
    obtain ⟨more, hmore⟩ := exists_writeAll (rawName tagOf) nodes rest
    have hrest := ih hothers
    rw [hmore] at hrest
    rw [writeAll, piecesAll, List.append_assoc, hmore]
    exact (hfirst depth more).trans hrest

/-- The start tag of an element that stays open, and its content. -/
theorem scans_open (declarations : List (TagName × String)) (depth : Nat)
    (hdeclarations : ∀ entry ∈ declarations, IsTagName entry.1)
    (hspellable : Spellable tagOf ⟨.element name attributes, text, children, tail⟩)
    (hne : ¬ (text = none ∧ children = []))
    (hchildren : ∀ child ∈ children, ScansWhole tagOf child) (rest : List Char) :
    Scans depth
      (Node.write (rawName tagOf) (declarations.flatMap entryText)
        ⟨.element name attributes, text, children, tail⟩ ++ rest)
      (startPiece tagOf declarations name attributes false
        :: (textPieces (text.getD "").toList ++ piecesAll tagOf children)) (depth + 1)
      ('<' :: '/' :: ((tagOf name).raw ++ '>' :: (escapeOptional tail ++ rest))) := by
  obtain ⟨htag, hattributes⟩ := hspellable.tags name attributes rfl
  have htext : SoundText text := hspellable.sound.content
  generalize hend : '/' :: ((tagOf name).raw ++ '>' :: (escapeOptional tail ++ rest)) = ending
  obtain ⟨more, hmore⟩ := exists_writeAll (rawName tagOf) children ending
  have hcontent :=
    (scans_optional text depth more).trans (hmore ▸ scans_writeAll hchildren depth ending)
  have hstart := scanPiece_startPiece hdeclarations htag hattributes false
    (escapeOptional text ++ '<' :: more)
  refine .step ?_ rfl hcontent
  rw [write_open _ _ _ _ _ hne htext, ← hstart, ← hmore, ← hend]
  simp only [List.cons_append, List.append_assoc]

/-- **A tree** is scanned to its parts. -/
theorem scans_write {node : Node} (h : node.Every (Spellable tagOf)) : ScansWhole tagOf node := by
  induction h with
  | @intro node here _ ih =>
    intro depth rest
    obtain ⟨label, text, children, tail⟩ := node
    -- a tail is text of the element around the node
    have htail := scans_optional tail depth rest
    cases here.sound with
    | @comment cs _ content =>
      have hscan := scanPiece_comment content (escapeOptional tail ++ '<' :: rest)
      have hcs : (String.ofList cs).toList = cs := String.toList_ofList
      rw [Node.write, Node.pieces, List.append_assoc, Option.getD_some, hcs]
      exact .step hscan rfl htail
    | @instruction target data _ content =>
      have hscan := scanPiece_instruction content (escapeOptional tail ++ '<' :: rest)
      have hcs : (String.ofList (instructionText target data)).toList
          = instructionText target data := String.toList_ofList
      rw [Node.write, Node.pieces, List.append_assoc, Option.getD_some, hcs,
        instructionPiece_eq content]
      exact .step hscan rfl htail
    | @element name attributes _ _ _ named content =>
      obtain ⟨htag, hattributes⟩ := here.tags name attributes rfl
      have hnothing : ∀ entry ∈ ([] : List (TagName × String)), IsTagName entry.1 :=
        fun _ hentry => absurd hentry List.not_mem_nil
      by_cases hempty : text = none ∧ children = []
      · obtain ⟨rfl, rfl⟩ := hempty
        have hstart := scanPiece_startPiece hnothing htag hattributes true
          (escapeOptional tail ++ '<' :: rest)
        have hwrite := write_closed tagOf name attributes [] tail
        rw [List.flatMap_nil] at hwrite
        rw [pieces_closed, hwrite]
        refine .step ?_ rfl htail
        simpa only [List.cons_append, List.append_assoc] using hstart
      · have hopen := scans_open [] (depth + 1) hnothing here hempty ih ('<' :: rest)
        rw [pieces_open _ _ _ _ _ hempty]
        refine Scans.trans (hopen.trans (.single ?_ rfl)) htail
        exact scanPiece_finish htag _

/-- **A root** is scanned to its parts, whatever follows it. -/
theorem scanRoot_write {declarations : List (TagName × String)}
    (hdeclarations : ∀ entry ∈ declarations, IsTagName entry.1)
    (hroot : Node.Every (Spellable tagOf) ⟨.element name attributes, text, children, none⟩)
    (rest : List Char) :
    let written := Node.write (rawName tagOf) (declarations.flatMap entryText)
      ⟨.element name attributes, text, children, none⟩
    scanRoot ((written ++ rest).length + 1) 0 (written ++ rest)
      = some (Node.pieces tagOf declarations ⟨.element name attributes, text, children, none⟩,
          rest) := by
  intro written
  obtain ⟨htag, hattributes⟩ := hroot.here.tags name attributes rfl
  have hnothing : textPieces ((none : Option String).getD "").toList = [] := by
    show textPieces [] = []
    rw [textPieces]
  by_cases hempty : text = none ∧ children = []
  · obtain ⟨rfl, rfl⟩ := hempty
    have hstart := scanPiece_startPiece hdeclarations htag hattributes true rest
    have hlast : scanPiece (written ++ rest)
        = some (startPiece tagOf declarations name attributes true, rest) := by
      rw [show written = _ from write_closed tagOf name attributes declarations none]
      simpa only [List.cons_append, List.append_assoc, List.append_nil, escapeOptional] using hstart
    rw [pieces_closed, hnothing]
    exact Scans.refl.scanRoot_eq hlast rfl _ (Nat.lt_succ_self _)
  · have hopen := scans_open declarations 0 hdeclarations hroot.here hempty
      (fun child hchild => scans_write (hroot.inside child hchild)) rest
    rw [pieces_open _ _ _ _ _ hempty, hnothing, List.append_nil]
    exact hopen.scanRoot_eq (scanPiece_finish htag _) rfl _ (Nat.lt_succ_self _)

end Trees

/-! ## Legal characters -/

theorem IsTagName.legal_raw {tag : TagName} (h : IsTagName tag) : Legal tag.raw := by
  intro c hc
  have hchar := h.isTagNameChar c hc
  unfold Xml.isTagNameChar at hchar
  rcases Bool.or_eq_true_iff.mp hchar with hname | hcolon
  · exact isLegal_of_isNameChar hname
  · rw [beq_iff_eq.mp hcolon]
    decide

theorem legal_entryText {entry : TagName × String} (htag : IsTagName entry.1)
    (hvalue : Legal entry.2.toList) : Legal (entryText entry) := by
  have hmarks : Legal [' ', '=', '"'] := by decide
  have hescaped := legal_escapeAttribute hvalue
  have hname := htag.legal_raw
  intro c hc
  unfold entryText quotedValue at hc
  simp only [List.cons_append, List.mem_cons, List.mem_append, List.not_mem_nil, or_false] at hc
  rcases hc with rfl | hc | rfl | rfl | hc | rfl
  · decide
  · exact hname c hc
  · decide
  · decide
  · exact hescaped c hc
  · decide

theorem legal_escapeOptional {text : Option String} (h : SoundText text) :
    Legal (escapeOptional text) := by
  cases text with
  | none => exact fun _ hc => absurd hc List.not_mem_nil
  | some s => exact legal_escapeText (h s rfl).2

theorem SoundInstruction.legal_text {target data : List Char} (h : SoundInstruction target data) :
    Legal (instructionText target data) := by
  have htarget : Legal target := fun c hc => isLegal_of_isNameChar (h.isName.isNameChar c hc)
  unfold instructionText
  split
  · exact htarget
  · exact legal_append.mpr ⟨htarget, List.forall_mem_cons.mpr ⟨by decide, h.legal⟩⟩

theorem legal_writeAll {nameOf : QName → List Char} {nodes : List Node}
    (h : ∀ node ∈ nodes, Legal (node.write nameOf [])) : Legal (writeAll nameOf nodes) := by
  induction nodes with
  | nil =>
    rw [writeAll]
    exact fun _ hc => absurd hc List.not_mem_nil
  | cons node nodes ih =>
    obtain ⟨hfirst, hothers⟩ := List.forall_mem_cons.mp h
    rw [writeAll]
    exact legal_append.mpr ⟨hfirst, ih hothers⟩

/-- **The text of a tree** is made of characters that a document may hold. -/
theorem legal_write {tagOf : QName → TagName} {node : Node} (h : node.Every (Spellable tagOf)) :
    ∀ {declarations : List Char}, Legal declarations →
      Legal (node.write (rawName tagOf) declarations) := by
  induction h with
  | @intro node here _ ih =>
    intro declarations hdeclarations
    obtain ⟨label, text, children, tail⟩ := node
    have htail := legal_escapeOptional here.sound.behind
    cases here.sound with
    | @comment cs _ content =>
      have hopen : Legal "<!--".toList := by decide
      have hclose : Legal "-->".toList := by decide
      have hcs : (String.ofList cs).toList = cs := String.toList_ofList
      rw [Node.write, Option.getD_some, hcs]
      simp only [legal_append]
      exact ⟨⟨⟨hopen, content.legal⟩, hclose⟩, htail⟩
    | @instruction target data _ content =>
      have hopen : Legal "<?".toList := by decide
      have hclose : Legal "?>".toList := by decide
      have hcs : (String.ofList (instructionText target data)).toList
          = instructionText target data := String.toList_ofList
      rw [Node.write, Option.getD_some, hcs]
      simp only [legal_append]
      exact ⟨⟨⟨hopen, content.legal_text⟩, hclose⟩, htail⟩
    | @element name attributes _ _ _ named content =>
      obtain ⟨htag, htags⟩ := here.tags name attributes rfl
      have hname : Legal (rawName tagOf name) := htag.legal_raw
      have hattributes : Legal (attributes.flatMap (writeAttribute (rawName tagOf))) := by
        rw [flatMap_writeAttribute]
        intro c hc
        obtain ⟨entry, hentry, hc⟩ := List.mem_flatMap.mp hc
        obtain ⟨original, horiginal, rfl⟩ := List.mem_map.mp hentry
        exact legal_entryText (htags original horiginal)
          (named.entries original horiginal).2.2 c hc
      have hchildren : Legal (writeAll (rawName tagOf) children) :=
        legal_writeAll fun child hchild => ih child hchild fun _ hc => absurd hc List.not_mem_nil
      have hclosed : Legal " />".toList := by decide
      have hend : Legal "</".toList := by decide
      have hbody : Legal (if (escapeOptional text).isEmpty && children.isEmpty then " />".toList
          else '>' :: escapeOptional text ++ writeAll (rawName tagOf) children ++ "</".toList
            ++ rawName tagOf name ++ ['>']) := by
        split
        · exact hclosed
        · simp only [legal_append]
          exact ⟨⟨⟨⟨List.forall_mem_cons.mpr ⟨by decide, legal_escapeOptional content⟩, hchildren⟩,
            hend⟩, hname⟩, List.forall_mem_singleton.mpr (by decide)⟩
      rw [Node.write]
      simp only [legal_append]
      exact ⟨⟨⟨⟨List.forall_mem_cons.mpr ⟨by decide, hname⟩, hdeclarations⟩, hattributes⟩, hbody⟩,
        htail⟩

end Rollout.Xml
