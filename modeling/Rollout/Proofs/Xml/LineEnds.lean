import Rollout.Proofs.Xml.Reread
import Rollout.Proofs.Xml.RootTag

/-!
# Line ends of a written text

A file is read with its line ends unified. In the text of a tree the only carriage returns are those
of its texts, so that it is then the text of the tree with its own line ends unified.

- `unify_escape`: escapes and line ends do not meet.
- `unify_write`, `unify_writeRoot`: **the text of a tree** with its line ends unified; by
  `unify_around` what stands behind a root does not matter for it.
- `every_unified`: line ends that are unified leave a tree sound.
- `legal_of_unified`: unified line ends hide no character that a document may not hold.
-/

namespace Rollout.Xml

/-! ## Characters -/

theorem unifyNewlineChars_append_of_not_mem {a : List Char} (h : '\r' ∉ a) (b : List Char) :
    Text.unifyNewlineChars (a ++ b) = a ++ Text.unifyNewlineChars b := by
  induction a with
  | nil => rfl
  | cons c a ih =>
    have hc : c ≠ '\r' := fun heq => h (heq ▸ List.mem_cons_self ..)
    rw [List.cons_append, unifyNewlineChars_cons hc, ih fun hmem => h (List.mem_cons_of_mem _ hmem)]
    rfl

/-- **A legal character** is all that unified line ends can hide. -/
theorem legal_of_unified {cs : List Char} (h : Legal (Text.unifyNewlineChars cs)) : Legal cs := by
  have hfeed : isLegal '\n' = true := by decide
  have hreturn : isLegal '\r' = true := by decide
  induction cs using Text.unifyNewlineChars.induct with
  | case1 cs ih =>
    rw [Text.unifyNewlineChars] at h
    exact List.forall_mem_cons.mpr ⟨hreturn, List.forall_mem_cons.mpr
      ⟨hfeed, ih (List.forall_mem_cons.mp h).2⟩⟩
  | case2 cs hcs ih =>
    rw [unifyNewlineChars_return hcs] at h
    exact List.forall_mem_cons.mpr ⟨hreturn, ih (List.forall_mem_cons.mp h).2⟩
  | case3 c cs _ hc ih =>
    rw [unifyNewlineChars_cons hc] at h
    obtain ⟨hfirst, hrest⟩ := List.forall_mem_cons.mp h
    exact List.forall_mem_cons.mpr ⟨hfirst, ih hrest⟩
  | case4 => exact h

/-- A character is written as itself or as one of the references. -/
theorem escapeChar_mem (c : Char) :
    escapeChar c = [c] ∨ escapeChar c ∈ ["&amp;".toList, "&lt;".toList, "&gt;".toList] := by
  unfold escapeChar
  split
  · exact .inr (by simp)
  · split
    · exact .inr (by simp)
    · split
      · exact .inr (by simp)
      · exact .inl rfl

theorem return_not_mem_escapeChar {c : Char} (h : c ≠ '\r') : '\r' ∉ escapeChar c := by
  have hreferences :
      ∀ cs ∈ ["&amp;".toList, "&lt;".toList, "&gt;".toList], '\r' ∉ cs := by decide
  rcases escapeChar_mem c with hself | hmem
  · rw [hself]
    exact fun heq => h (List.mem_singleton.mp heq).symm
  · exact hreferences _ hmem

/-- What does not begin with a line feed is not written with one in front. -/
theorem escaped_ne_line {cs : List Char} (h : ∀ more, cs ≠ '\n' :: more) :
    ∀ more, cs.flatMap escapeChar ≠ '\n' :: more := by
  have hreferences : ∀ cs ∈ ["&amp;".toList, "&lt;".toList, "&gt;".toList],
      ∀ rest : List Char, (cs ++ rest).head? = some '&' := by simp
  cases cs with
  | nil => exact nofun
  | cons c cs =>
    intro more heq
    have hhead := congrArg List.head? heq
    rw [List.flatMap_cons] at hhead
    rcases escapeChar_mem c with hself | hmem
    · rw [hself] at hhead
      exact h cs (by rw [Option.some.inj hhead])
    · rw [hreferences _ hmem] at hhead
      exact absurd (Option.some.inj hhead) (by decide)

/-- **Escapes** and line ends do not meet. -/
theorem unify_escape (cs : List Char) : Text.unifyNewlineChars (cs.flatMap escapeChar)
    = (Text.unifyNewlineChars cs).flatMap escapeChar := by
  have hreturn : escapeChar '\r' = ['\r'] := by decide
  have hfeed : escapeChar '\n' = ['\n'] := by decide
  induction cs using Text.unifyNewlineChars.induct with
  | case1 cs ih =>
    rw [List.flatMap_cons, List.flatMap_cons, hreturn, hfeed, Text.unifyNewlineChars,
      List.flatMap_cons, hfeed, ← ih]
    rfl
  | case2 cs hcs ih =>
    rw [List.flatMap_cons, hreturn, List.singleton_append,
      unifyNewlineChars_return (escaped_ne_line hcs), unifyNewlineChars_return hcs,
      List.flatMap_cons, hfeed, ih]
    rfl
  | case3 c cs _ hc ih =>
    rw [List.flatMap_cons, unifyNewlineChars_append_of_not_mem (return_not_mem_escapeChar hc), ih,
      unifyNewlineChars_cons hc, List.flatMap_cons]
  | case4 => rfl

theorem unifyNewlines_comp : Text.unifyNewlines ∘ Text.unifyNewlines = Text.unifyNewlines := by
  funext text
  refine unifyNewlines_of_not_mem ?_
  unfold Text.unifyNewlines
  rw [String.toList_ofList]
  exact not_mem_unifyNewlineChars _

theorem unify_escapeOptional (text : Option String) :
    Text.unifyNewlineChars (escapeOptional text)
      = escapeOptional (text.map Text.unifyNewlines) := by
  cases text with
  | none => rfl
  | some s =>
    show Text.unifyNewlineChars (s.toList.flatMap escapeChar)
      = (String.ofList (Text.unifyNewlineChars s.toList)).toList.flatMap escapeChar
    rw [String.toList_ofList, unify_escape]

/-! ## Trees -/

section Trees

variable {tagOf : QName → TagName}

theorem retexts_unified : Retexts Node.unified where
  label node := by
    obtain ⟨label, text, children, tail⟩ := node
    rw [Node.unified]
  children node := by
    have hall : ∀ nodes : List Node, unifiedAll nodes = nodes.map Node.unified := by
      intro nodes
      induction nodes with
      | nil => rfl
      | cons node nodes ih => rw [unifiedAll, List.map_cons, ih]
    obtain ⟨label, text, children, tail⟩ := node
    rw [Node.unified, hall]

mutual

/-- Unified line ends stay as they are. -/
theorem unified_unified : (node : Node) → node.unified.unified = node.unified
  | ⟨label, text, children, tail⟩ => by
    rw [Node.unified, Node.unified, unifiedAll_unifiedAll children, Option.map_map, Option.map_map,
      unifyNewlines_comp]

theorem unifiedAll_unifiedAll : (nodes : List Node) →
    unifiedAll (unifiedAll nodes) = unifiedAll nodes
  | [] => rfl
  | node :: nodes => by
    rw [unifiedAll, unifiedAll, unified_unified node, unifiedAll_unifiedAll nodes]

end

theorem isEmpty_escapeOptional_unified (text : Option String) :
    (escapeOptional (text.map Text.unifyNewlines)).isEmpty = (escapeOptional text).isEmpty := by
  rw [← unify_escapeOptional]
  generalize escapeOptional text = cs
  cases cs with
  | nil => rfl
  | cons c cs =>
    by_cases hc : c = '\r'
    · subst hc
      obtain ⟨more, hmore⟩ := exists_unifyNewlineChars_return cs
      rw [hmore]
      rfl
    · rw [unifyNewlineChars_cons hc]
      rfl

theorem unify_writeAll {nodes : List Node}
    (h : ∀ node ∈ nodes, Text.unifyNewlineChars (node.write (rawName tagOf) [])
      = node.unified.write (rawName tagOf) []) :
    Text.unifyNewlineChars (writeAll (rawName tagOf) nodes)
      = writeAll (rawName tagOf) (unifiedAll nodes) := by
  induction nodes with
  | nil => rfl
  | cons node nodes ih =>
    obtain ⟨hfirst, hothers⟩ := List.forall_mem_cons.mp h
    have hhead : (writeAll (rawName tagOf) nodes).head? ≠ some '\n' := by
      cases nodes with
      | nil => exact nofun
      | cons next nodes =>
        obtain ⟨more, hmore⟩ := exists_write (rawName tagOf) [] next
        rw [writeAll, hmore]
        exact fun heq => absurd (Option.some.inj heq) (by decide)
    rw [writeAll, unifiedAll, writeAll, unifyNewlineChars_append hhead, hfirst, ih hothers]

/-- What an element has behind its start tag. -/
theorem unify_body {name : List Char} (hname : '\r' ∉ name) (text tail : Option String)
    {children : List Node}
    (hchildren : Text.unifyNewlineChars (writeAll (rawName tagOf) children)
      = writeAll (rawName tagOf) (unifiedAll children)) :
    Text.unifyNewlineChars (('>' :: escapeOptional text ++ writeAll (rawName tagOf) children
        ++ "</".toList ++ name ++ ['>']) ++ escapeOptional tail)
      = ('>' :: escapeOptional (text.map Text.unifyNewlines)
          ++ writeAll (rawName tagOf) (unifiedAll children) ++ "</".toList ++ name ++ ['>'])
        ++ escapeOptional (tail.map Text.unifyNewlines) := by
  have hending : '\r' ∉ "</".toList ++ name ++ ['>'] := by simp [hname]
  generalize hend : "</".toList ++ name ++ ['>'] = ending at hending
  have hmarkup : ∀ rest, (ending ++ rest).head? = some '<' := fun rest => by
    rw [← hend]
    rfl
  -- no text meets a line feed: markup follows it
  have hinner : (ending ++ escapeOptional tail).head? ≠ some '\n' := by
    rw [hmarkup]
    decide
  have houter : (writeAll (rawName tagOf) children
      ++ (ending ++ escapeOptional tail)).head? ≠ some '\n' := by
    rw [← hend]
    obtain ⟨more, hmore⟩ := exists_writeAll (rawName tagOf) children
      ('/' :: name ++ ['>'] ++ escapeOptional tail)
    show (writeAll (rawName tagOf) children
      ++ '<' :: ('/' :: name ++ ['>'] ++ escapeOptional tail)).head? ≠ _
    rw [hmore]
    exact fun heq => absurd (Option.some.inj heq) (by decide)
  have hsplit : ∀ content inside behind : List Char,
      ('>' :: content ++ inside ++ "</".toList ++ name ++ ['>']) ++ behind
        = '>' :: (content ++ (inside ++ (ending ++ behind))) := fun content inside behind => by
    rw [← hend]
    simp only [List.cons_append, List.append_assoc]
  rw [hsplit, hsplit, unifyNewlineChars_cons (by decide), unifyNewlineChars_append houter,
    unifyNewlineChars_append hinner, unifyNewlineChars_append_of_not_mem hending, hchildren,
    unify_escapeOptional, unify_escapeOptional]

/-- **The text of a tree** with its line ends unified is that of the tree with its line ends
unified. -/
theorem unify_write {node : Node} (h : node.Every (Spellable tagOf)) :
    ∀ {declarations : List Char}, '\r' ∉ declarations →
      Text.unifyNewlineChars (node.write (rawName tagOf) declarations)
        = node.unified.write (rawName tagOf) declarations := by
  induction h with
  | @intro node here _ ih =>
    intro declarations hdeclarations
    obtain ⟨label, text, children, tail⟩ := node
    cases here.sound with
    | @comment cs _ content =>
      have hmarkup : '\r' ∉ "<!--".toList ++ cs ++ "-->".toList := by
        simp [content.unified]
      have hcs : (String.ofList cs).toList = cs := String.toList_ofList
      rw [Node.unified, map_unifyNewlines_of_not_mem content.not_mem, Node.write, Node.write,
        Option.getD_some, hcs, unifyNewlineChars_append_of_not_mem hmarkup, unify_escapeOptional]
    | @instruction target data _ content =>
      have hmarkup : '\r' ∉ "<?".toList ++ instructionText target data ++ "?>".toList := by
        have htext := content.not_mem
        rw [Option.getD_some, String.toList_ofList] at htext
        simp [htext]
      have hcs : (String.ofList (instructionText target data)).toList
          = instructionText target data := String.toList_ofList
      rw [Node.unified, map_unifyNewlines_of_not_mem content.not_mem, Node.write, Node.write,
        Option.getD_some, hcs, unifyNewlineChars_append_of_not_mem hmarkup, unify_escapeOptional]
    | @element name attributes _ _ _ named content =>
      obtain ⟨htag, htags⟩ := here.tags name attributes rfl
      have hname : '\r' ∉ rawName tagOf name := htag.not_mem_raw (by decide +kernel)
      have hattributes : '\r' ∉ attributes.flatMap (writeAttribute (rawName tagOf)) := by
        rw [flatMap_writeAttribute]
        exact return_not_mem_entries (isTagName_of_mem_writtenEntries htags)
      have hstart : '\r' ∉ '<' :: rawName tagOf name ++ declarations
          ++ attributes.flatMap (writeAttribute (rawName tagOf)) := by
        simp [hname, hdeclarations, hattributes]
      have hchildren := unify_writeAll fun child hchild => ih child hchild List.not_mem_nil
      have hsame : (unifiedAll children).isEmpty = children.isEmpty := by cases children <;> rfl
      rw [Node.unified, Node.write, Node.write, isEmpty_escapeOptional_unified, hsame]
      generalize '<' :: rawName tagOf name ++ declarations
        ++ attributes.flatMap (writeAttribute (rawName tagOf)) = start at hstart ⊢
      rw [List.append_assoc start, List.append_assoc start,
        unifyNewlineChars_append_of_not_mem hstart]
      refine congrArg _ ?_
      split
      case isTrue =>
        rw [unifyNewlineChars_append_of_not_mem (by decide), unify_escapeOptional]
      case isFalse =>
        exact unify_body hname text tail hchildren

end Trees

theorem soundText_unified {text : Option String} (h : SoundText text) :
    SoundText (text.map Text.unifyNewlines) := by
  intro s hs
  obtain ⟨old, hold, rfl⟩ := Option.map_eq_some_iff.mp hs
  obtain ⟨hne, hlegal⟩ := h old hold
  unfold Text.unifyNewlines
  rw [String.toList_ofList]
  refine ⟨?_, legal_unifyNewlineChars hlegal⟩
  obtain ⟨c, cs, hcs⟩ := List.exists_cons_of_ne_nil hne
  rw [hcs]
  by_cases hc : c = '\r'
  · subst hc
    obtain ⟨more, hmore⟩ := exists_unifyNewlineChars_return cs
    rw [hmore]
    exact List.cons_ne_nil _ _
  · rw [unifyNewlineChars_cons hc]
    exact List.cons_ne_nil _ _

/-- **Line ends** that are unified leave a tree sound. -/
theorem every_unified {node : Node} (h : node.Every Sound) : node.unified.Every Sound := by
  induction h with
  | @intro node here _ ih =>
    refine .intro ?_ ?_
    · cases here with
      | element named content behind =>
        exact .element named (soundText_unified content) (soundText_unified behind)
      | comment content behind =>
        rw [Node.unified, map_unifyNewlines_of_not_mem content.not_mem]
        exact .comment content (soundText_unified behind)
      | instruction content behind =>
        rw [Node.unified, map_unifyNewlines_of_not_mem content.not_mem]
        exact .instruction content (soundText_unified behind)
    · rw [retexts_unified.children]
      exact List.forall_mem_map.mpr ih

/-! ## Roots -/

/-- **A root** that is written has its line ends unified when the text has. -/
theorem unify_writeRoot {register : Prefixes} {root : Node} (hregister : register.Regular)
    (hsound : root.Every Sound) : Text.unifyNewlineChars (writeRoot register root)
      = writeRoot register root.unified := by
  have hdeclared := fun entry hentry => (spelled_declared hregister hsound entry hentry).1
  have hassign := assign_of_labels (labels_unified root) register
  unfold writeRoot
  dsimp only
  rw [hassign, writtenName_eq, writeDeclarations_eq]
  exact unify_write (spellable_register hregister hsound) (return_not_mem_entries hdeclared)

/-- A line end in front of what follows a root is not unified with it. -/
theorem unify_around {root : Node} (hroot : root.IsRoot) (register : Prefixes)
    (epilog : List Char) :
    Text.unifyNewlineChars (writeRoot register root ++ epilog)
      = Text.unifyNewlineChars (writeRoot register root) ++ Text.unifyNewlineChars epilog := by
  obtain ⟨front, hfront⟩ : ∃ front, writeRoot register root = front ++ ['>'] := by
    obtain ⟨name, attributes, text, children, rfl⟩ := hroot
    unfold writeRoot
    dsimp only
    rw [Node.write, escapeOptional]
    split
    · exact ⟨_, (List.append_nil _).trans (List.append_assoc _ " /".toList ['>']).symm⟩
    · exact ⟨_, (List.append_nil _).trans (List.append_assoc _ _ ['>']).symm⟩
  have hclosed : ∀ rest, Text.unifyNewlineChars (front ++ '>' :: rest)
      = Text.unifyNewlineChars front ++ '>' :: Text.unifyNewlineChars rest := fun rest => by
    rw [unifyNewlineChars_append (by simp), unifyNewlineChars_cons (by decide)]
  rw [hfront, List.append_assoc, List.singleton_append, hclosed, hclosed]
  simp [Text.unifyNewlineChars]

end Rollout.Xml
