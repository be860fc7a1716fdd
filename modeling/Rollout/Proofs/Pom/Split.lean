import Rollout.Proofs.Pom.Items
import Rollout.Proofs.Xml.Values

/-!
# The text around the root

A descriptor keeps the text before and after its root, and finds both by looking at characters: the
text before the root by its items, the text after it by the last end tag of the root's name. Here is
said exactly when that is the text around the root that is read.

- `EndsLast`: the last end tag of the root's name is that of the root.
- `epilogOf_iff`: the text after the root, when the one before it is right.
- `split_iff`: **the exact condition** under which both texts are the ones around the root.

The condition is not met by every document: a type declaration may hold `>` before its end, an
encoding mark is no item, a comment behind the root may hold the root's end tag, and a root that is
a single tag has no end tag, so that what follows it is lost.
-/

namespace Rollout.Pom

open Xml

/-! ## The name that is looked for -/

/-- What begins the end tags of a name. -/
def closingMark (name : List Char) : List Char :=
  '<' :: '/' :: name

theorem prefix_takeWhile {p : Char → Bool} {c : Char} (hc : p c = false) (more : List Char) :
    ∀ cs : List Char, (cs ++ c :: more).takeWhile p <+: cs
  | [] => List.prefix_nil.mpr (List.takeWhile_cons_of_neg (Bool.eq_false_iff.mp hc))
  | d :: cs => by
    rw [List.cons_append, List.takeWhile_cons]
    split
    · exact (List.cons_prefix_cons).mpr ⟨rfl, prefix_takeWhile hc more cs⟩
    · exact List.nil_prefix

/-- The name that is looked for is a part of the root's name, and no markup. -/
theorem rootName?_eq_some {tag : StartTag} {text rest name : List Char}
    (htext : Spelled (.start tag) text) (h : rootName? (text ++ rest) = some name) :
    name <+: tag.name.raw ∧ '<' ∉ name := by
  cases htext with
  | @start _ c used after isTag names free =>
    have hc : isRootNameChar c = false := by
      rcases after with rfl | rfl | hspace
      · decide +kernel
      · decide +kernel
      · rcases isSpace_cases hspace with rfl | rfl | rfl | rfl <;> decide +kernel
    have hname : (tag.name.raw ++ c :: (used ++ rest)).takeWhile isRootNameChar = name := by
      have hcs : '<' :: (tag.name.raw ++ c :: used) ++ rest
          = '<' :: (tag.name.raw ++ c :: (used ++ rest)) := by simp
      rw [hcs] at h
      have hread : (if ((tag.name.raw ++ c :: (used ++ rest)).takeWhile isRootNameChar).isEmpty
          then none else some ((tag.name.raw ++ c :: (used ++ rest)).takeWhile isRootNameChar))
          = some name := h
      split at hread
      · cases hread
      · exact Option.some.inj hread
    rw [← hname]
    refine ⟨prefix_takeWhile hc _ _, fun hmem => ?_⟩
    exact absurd (List.mem_takeWhile_imp hmem) (by decide +kernel)

theorem closingMark_ne_nil (name : List Char) : closingMark name ≠ [] := List.cons_ne_nil _ _

/-- Only a `<` begins the mark. -/
theorem head_closingMark {name cs : List Char} (h : '<' ∉ cs) :
    ∀ c ∈ cs, (closingMark name).head? ≠ some c := by
  intro c hc hhead
  cases hhead
  exact h hc

/-! ## The last end tag -/

/-- Behind an end tag that is found there is less text than where it was found. -/
theorem length_after_closing_lt {mark back found : List Char} (hmark : mark ≠ [])
    (h : Text.lastFrom? mark back = some found) :
    ((afterFirst? ['>'] found).getD []).length < back.length := by
  obtain ⟨front, rfl, hpre⟩ := lastFrom?_eq_some h
  have hfound : 0 < found.length := by
    have hpos := List.length_pos_iff.mpr hmark
    have hle := hpre.length_le
    omega
  rw [List.length_append]
  cases hafter : afterFirst? ['>'] found with
  | none =>
    rw [Option.getD_none, List.length_nil]
    omega
  | some rest =>
    obtain ⟨inside, rfl, -⟩ := (afterFirst?_eq_some (List.cons_ne_nil _ _)).mp hafter
    simp only [Option.getD_some, List.length_append, List.length_cons, List.length_nil]
    omega

/-- An end tag behind which its name does not close again is found, and what follows it. -/
theorem lastFrom?_ending {tag : TagName} {name ending after : List Char}
    (hending : Spelled (.finish tag) ending) (hname : name <+: tag.raw)
    (hafter : Text.lastFrom? (closingMark name) after = none) :
    Text.lastFrom? (closingMark name) (ending ++ after) = some (ending ++ after) ∧
      afterFirst? ['>'] (ending ++ after) = some after := by
  cases hending with
  | @finish _ run isTag space =>
    -- between its two marks an end tag holds a name and white space only
    have hfree : ∀ c : Char, isTagNameChar c = false → isSpace c = false → c ∉ tag.raw ++ run := by
      intro c hc hspace hmem
      rcases List.mem_append.mp hmem with hmem | hmem
      · exact isTag.not_mem_raw hc hmem
      · exact absurd (space c hmem) (by rw [hspace]; decide)
    constructor
    · have hnone : Text.lastFrom? (closingMark name)
          ('/' :: (tag.raw ++ (run ++ ['>'])) ++ after) = none := by
        refine lastFrom?_append_none (closingMark_ne_nil name) (head_closingMark ?_) hafter
        have hmem := hfree '<' (by decide +kernel) (by decide)
        simp only [List.mem_append, not_or] at hmem
        simp [hmem]
      have hpre : closingMark name <+: '<' :: ('/' :: (tag.raw ++ (run ++ ['>'])) ++ after) := by
        obtain ⟨more, hmore⟩ := hname
        refine ⟨more ++ (run ++ ['>']) ++ after, ?_⟩
        rw [← hmore]
        simp [closingMark]
      show Text.lastFrom? _ ('<' :: ('/' :: (tag.raw ++ (run ++ ['>'])) ++ after)) = _
      rw [Text.lastFrom?, hnone]
      dsimp only
      rw [if_pos (List.isPrefixOf_iff_prefix.mpr hpre)]
      rfl
    · refine (afterFirst?_eq_some (List.cons_ne_nil _ _)).mpr
        ⟨'<' :: '/' :: (tag.raw ++ run), by simp, ?_⟩
      have hmem := hfree '>' (by decide +kernel) (by decide)
      have hall : ∀ c ∈ '<' :: '/' :: (tag.raw ++ run), ['>'].head? ≠ some c := by
        intro c hc hhead
        cases hhead
        simp only [List.mem_cons] at hc
        rcases hc with hc | hc | hc
        · exact absurd hc (by decide)
        · exact absurd hc (by decide)
        · exact hmem hc
      simpa using (Unmarked.nil ['>']).append_front (List.cons_ne_nil _ _) hall

/-- A part behind that begins with `<` and holds no mark does not change what is found. -/
theorem lastFrom?_append_root {name more : List Char} (hname : '<' ∉ name)
    (hroot : Text.lastFrom? (closingMark name) ('<' :: more) = none) : ∀ before : List Char,
    Text.lastFrom? (closingMark name) (before ++ '<' :: more)
      = (Text.lastFrom? (closingMark name) before).map (· ++ '<' :: more)
  | [] => by
    rw [List.nil_append, hroot]
    rfl
  | c :: before => by
    have hpre : (closingMark name).isPrefixOf (c :: before ++ '<' :: more)
        = (closingMark name).isPrefixOf (c :: before) := by
      rw [Bool.eq_iff_iff, List.isPrefixOf_iff_prefix, List.isPrefixOf_iff_prefix]
      refine ⟨fun h => ?_, fun h => h.trans (List.prefix_append ..)⟩
      by_cases hlength : (closingMark name).length ≤ (c :: before).length
      · exact List.prefix_of_prefix_length_le h (List.prefix_append ..) hlength
      · -- the mark would go on into the part behind, and hold its first character
        obtain ⟨middle, hmiddle⟩ : c :: before <+: closingMark name :=
          List.prefix_of_prefix_length_le (List.prefix_append ..) h (by omega)
        rw [← hmiddle, List.prefix_append_right_inj] at h
        cases middle with
        | nil =>
          rw [← hmiddle, List.append_nil] at hlength
          exact absurd (Nat.le_refl _) hlength
        | cons d middle =>
          obtain ⟨rest, hrest⟩ := h
          obtain rfl : d = '<' := (List.cons.inj hrest).1
          have htail : before ++ '<' :: middle = '/' :: name := (List.cons.inj hmiddle).2
          have hmem : '<' ∈ '/' :: name := by
            rw [← htail]
            simp
          exact absurd ((List.mem_cons.mp hmem).resolve_left (by decide)) hname
    show Text.lastFrom? _ (c :: (before ++ '<' :: more)) = _
    rw [Text.lastFrom?, Text.lastFrom?, lastFrom?_append_root hname hroot before]
    cases Text.lastFrom? (closingMark name) before with
    | some found => rfl
    | none =>
      show (if (closingMark name).isPrefixOf (c :: before ++ '<' :: more) then _ else _) = _
      rw [hpre]
      show _ = Option.map _ (if (closingMark name).isPrefixOf (c :: before) then _ else _)
      split
      · rfl
      · rfl

/-! ## Items and their ends -/

/-- Where markup begins in items, it also ends. -/
theorem mem_of_items {cs found : List Char} (h : Items cs) (hfound : '<' :: found <:+ cs) :
    '>' ∈ found := by
  induction h with
  | nil => exact absurd (List.suffix_nil.mp hfound) (List.cons_ne_nil _ _)
  | @blank c cs hblank _ ih =>
    rcases List.suffix_cons_iff.mp hfound with heq | hfound
    · obtain rfl := (List.cons.inj heq).1
      exact absurd hblank (by decide)
    · exact ih hfound
  | @item opening ending inside cs kind _ _ ih =>
    obtain ⟨front, hfront⟩ : ∃ front, ending = front ++ ['>'] := by
      simp only [itemMarks, List.mem_cons, Prod.mk.injEq, List.not_mem_nil, or_false] at kind
      rcases kind with ⟨-, rfl⟩ | ⟨-, rfl⟩ | ⟨-, rfl⟩
      · exact ⟨['?'], rfl⟩
      · exact ⟨['-', '-'], rfl⟩
      · exact ⟨[], rfl⟩
    have htext : opening ++ (inside ++ ending ++ cs)
        = (opening ++ inside ++ front) ++ '>' :: cs := by
      rw [hfront]
      simp
    rw [htext] at hfound
    -- markup that begins in the item runs over the item's end
    by_cases hlength : ('<' :: found).length ≤ cs.length
    · have hcs : cs <:+ (opening ++ inside ++ front) ++ '>' :: cs :=
        (List.suffix_cons ..).trans (List.suffix_append ..)
      exact ih (List.suffix_of_suffix_length_le hfound hcs hlength)
    · have hend : '>' :: cs <:+ '<' :: found :=
        List.suffix_of_suffix_length_le (List.suffix_append ..) hfound
          (by rw [List.length_cons]; omega)
      have hmem : '>' ∈ '<' :: found := hend.subset (List.mem_cons_self ..)
      exact (List.mem_cons.mp hmem).resolve_left (by decide)

/-! ## The text after the root -/

section Split

variable {text : List Char} {root : Node}

/-- The end tag that is looked for is the end of the root, or there is nothing behind the root and
no end tag to be found. -/
def EndsLast (r : Xml.Reading text root) : Prop :=
  match rootName? r.fromRoot with
  | none => r.after = []
  | some name =>
    if r.selfClosing then r.after = [] ∧ Text.occurs (closingMark name) r.before = false
    else Text.occurs (closingMark name) r.after = false

/-- A root that is one tag holds no end tag. -/
theorem lastFrom?_selfClosing (r : Xml.Reading text root) {tag : StartTag}
    {opening name : List Char}
    (htag : Spelled (.start tag) opening) (hpieces : r.pieces = [.start tag])
    (hafter : Text.lastFrom? (closingMark name) r.after = none) :
    ∃ more, opening = '<' :: more ∧
      Text.lastFrom? (closingMark name) ('<' :: (more ++ r.after)) = none := by
  have hfree : ∀ entry ∈ tag.attributes, '<' ∉ entry.2 := by
    obtain ⟨scope, label, hopened, -⟩ := r.root_of_single hpieces
    exact not_mem_of_openElement hopened
  cases htag with
  | @start _ c used after isTag names free =>
    refine ⟨_, rfl, ?_⟩
    have hnone : Text.lastFrom? (closingMark name) (tag.name.raw ++ c :: used ++ r.after) = none :=
      lastFrom?_append_none (closingMark_ne_nil name) (head_closingMark (free hfree)) hafter
    -- where a start tag begins there is no end tag: a name follows, and no `/`
    have hpre : (closingMark name).isPrefixOf ('<' :: (tag.name.raw ++ c :: used ++ r.after))
        = false := by
      obtain ⟨d, more, hraw, hd⟩ := isTag.exists_raw
      have hslash : ('/' == d) = false := by
        rw [beq_eq_false_iff_ne]
        exact (ne_of_isNameStart hd).2.2.symm
      rw [hraw]
      simp [closingMark, List.isPrefixOf, hslash]
    rw [Text.lastFrom?, hnone]
    dsimp only
    rw [hpre]
    rfl

theorem epilogOf_eq {cs fromRoot name : List Char} (hname : rootName? fromRoot = some name) :
    epilogOf cs fromRoot = match Text.lastFrom? (closingMark name) cs with
      | none => []
      | some closing => (afterFirst? ['>'] closing).getD [] := by
  unfold epilogOf
  rw [hname]
  rfl

/-- An end tag of the root's name behind the root is taken for the end of the root. -/
theorem epilogOf_ne_of_later (r : Xml.Reading text root) {name found : List Char}
    (hname : rootName? r.fromRoot = some name)
    (hlast : Text.lastFrom? (closingMark name) r.after = some found) :
    epilogOf text r.fromRoot ≠ r.after := by
  have hfind : Text.lastFrom? (closingMark name) text = some found :=
    (congrArg (Text.lastFrom? (closingMark name)) r.parts).trans (lastFrom?_append hlast _)
  have hlength := length_after_closing_lt (closingMark_ne_nil name) hlast
  have hepilog : epilogOf text r.fromRoot = (afterFirst? ['>'] found).getD [] := by
    rw [epilogOf_eq hname, hfind]
  rw [hepilog]
  intro heq
  rw [heq] at hlength
  exact Nat.lt_irrefl _ hlength

/-- What follows a root that is one tag is lost, and an end tag before it is taken for its end. -/
theorem epilogOf_selfClosing (r : Xml.Reading text root) (hitems : Items r.before) {tag : StartTag}
    {opening name : List Char} (hname : rootName? r.fromRoot = some name)
    (htag : Spelled (.start tag) opening) (hpieces : r.pieces = [.start tag])
    (hroot : r.fromRoot = opening ++ r.after)
    (hlast : Text.lastFrom? (closingMark name) r.after = none) :
    epilogOf text r.fromRoot = r.after ↔
      r.after = [] ∧ Text.occurs (closingMark name) r.before = false := by
  have hfree := (rootName?_eq_some htag (hroot ▸ hname)).2
  obtain ⟨more, rfl, hnone⟩ := lastFrom?_selfClosing r htag hpieces hlast
  have hfind : Text.lastFrom? (closingMark name) text
      = (Text.lastFrom? (closingMark name) r.before).map (· ++ '<' :: (more ++ r.after)) := by
    refine (congrArg (Text.lastFrom? (closingMark name)) ?_).trans
      (lastFrom?_append_root hfree hnone r.before)
    rw [← List.cons_append, ← hroot]
    exact r.before_append.symm
  rw [epilogOf_eq hname, hfind]
  unfold Text.occurs
  cases hbefore : Text.lastFrom? (closingMark name) r.before with
  | none =>
    constructor
    · exact fun heq => ⟨heq.symm, rfl⟩
    · exact fun hends => hends.1.symm
  | some found =>
    -- the item that holds the end tag ends before the root, which is then taken for its rest
    obtain ⟨start, hstart, back, rfl⟩ := lastFrom?_eq_some hbefore
    have hgt : '>' ∈ closingMark name ++ back :=
      List.mem_cons_of_mem _ (mem_of_items hitems ⟨start, hstart.symm⟩)
    obtain ⟨inside, rest, hsplit, hinside⟩ := List.eq_append_cons_of_mem hgt
    have hafter : afterFirst? ['>'] (closingMark name ++ back ++ '<' :: (more ++ r.after))
        = some (rest ++ '<' :: (more ++ r.after)) := by
      have hunmarked : Unmarked ['>'] (inside ++ []) :=
        (Unmarked.nil ['>']).append_front (List.cons_ne_nil _ _) fun c hc hhead => by
          cases hhead
          exact hinside hc
      refine (afterFirst?_eq_some (List.cons_ne_nil _ _)).mpr ⟨inside, ?_, by simpa using hunmarked⟩
      rw [hsplit]
      simp
    rw [Option.map_some]
    dsimp only
    rw [hafter]
    constructor
    · intro heq
      have hlength := congrArg List.length heq
      simp only [Option.getD_some, List.length_append, List.length_cons] at hlength
      omega
    · exact fun hends => nomatch hends.2

/-- The end tag of a root is found when its name does not close again behind it. -/
theorem epilogOf_open (r : Xml.Reading text root) {tag : StartTag}
    {opening front ending name : List Char} (hname : rootName? r.fromRoot = some name)
    (htag : Spelled (.start tag) opening)
    (hroot : r.fromRoot = opening ++ front ++ ending ++ r.after)
    (hending : Spelled (.finish tag.name) ending)
    (hlast : Text.lastFrom? (closingMark name) r.after = none) :
    epilogOf text r.fromRoot = r.after := by
  have hroot' : r.fromRoot = opening ++ (front ++ ending ++ r.after) := by
    rw [hroot]
    simp only [List.append_assoc]
  have hpre := (rootName?_eq_some htag (hroot' ▸ hname)).1
  obtain ⟨hfound, hrest⟩ := lastFrom?_ending hending hpre hlast
  have hfind : Text.lastFrom? (closingMark name) text = some (ending ++ r.after) := by
    refine (congrArg (Text.lastFrom? (closingMark name)) ?_).trans
      (lastFrom?_append hfound (r.before ++ (opening ++ front)))
    refine r.before_append.symm.trans ?_
    rw [hroot]
    simp only [List.append_assoc]
  rw [epilogOf_eq hname, hfind]
  dsimp only
  rw [hrest]
  rfl

/-- **The text after the root** is kept when the last end tag of the root's name is that of the
root. -/
theorem epilogOf_iff (r : Xml.Reading text root) (hitems : Items r.before) :
    epilogOf text r.fromRoot = r.after ↔ EndsLast r := by
  unfold EndsLast
  cases hname : rootName? r.fromRoot with
  | none =>
    unfold epilogOf
    rw [hname]
    exact eq_comm
  | some name =>
    dsimp only
    cases hlast : Text.lastFrom? (closingMark name) r.after with
    | some found =>
      -- with an end tag behind the root neither side holds
      refine ⟨fun heq => absurd heq (epilogOf_ne_of_later r hname hlast), fun hends => ?_⟩
      split at hends
      · rw [hends.1] at hlast
        cases hlast
      · rw [Text.occurs, hlast] at hends
        cases hends
    | none =>
      obtain ⟨tag, opening, htag, hcases⟩ := r.rootText_cases
      rcases hcases with ⟨-, hpieces, hroot⟩ | ⟨-, hlength, front, ending, hroot, hending⟩
      · have hself : r.selfClosing = true := by
          rw [Xml.Reading.selfClosing, hpieces]
          rfl
        rw [if_pos hself]
        exact epilogOf_selfClosing r hitems hname htag hpieces hroot hlast
      · have hself : ¬ r.selfClosing = true := by simpa [Xml.Reading.selfClosing] using hlength
        rw [if_neg hself, Text.occurs, hlast]
        exact ⟨fun _ => rfl, fun _ => epilogOf_open r hname htag hroot hending hlast⟩

end Split

/-! ## Main statement -/

/-- **The exact condition** under which a descriptor keeps the text around its root: the text before
the root consists of items that end at their first end marks, and the last end tag of the root's
name is the end of the root. -/
theorem split_iff {text : String} {descriptor : Descriptor}
    (h : Descriptor.parse? text = some descriptor) :
    ∃ (root : Node) (r : Xml.Reading text.toList root),
      text.toList = r.before ++ r.rootText ++ r.after ∧
      descriptor.root = { root with tail := none } ∧
      (descriptor.prolog.toList = r.before ∧ descriptor.epilog.toList = r.after ↔
        Items r.before ∧ EndsLast r) := by
  obtain ⟨root, hread, hrest⟩ := Option.bind_eq_some_iff.mp h
  obtain ⟨r⟩ := nonempty_reading_iff.mpr hread
  have hprolog : descriptor.prolog.toList = (splitProlog text.toList).1 := by
    cases hrest
    exact String.toList_ofList
  have hepilog : descriptor.epilog.toList
      = epilogOf text.toList (splitProlog text.toList).2 := by
    cases hrest
    exact String.toList_ofList
  refine ⟨root, r, r.parts, by cases hrest; rfl, ?_⟩
  rw [hprolog, hepilog]
  constructor
  · rintro ⟨hbefore, hafter⟩
    have hitems := (splitProlog_iff r).mp hbefore
    rw [splitProlog_reading r hitems] at hafter
    exact ⟨hitems, (epilogOf_iff r hitems).mp hafter⟩
  · rintro ⟨hitems, hends⟩
    rw [splitProlog_reading r hitems]
    exact ⟨rfl, (epilogOf_iff r hitems).mpr hends⟩

/-- A document whose type declaration holds an end mark before its end. -/
def subsetText : String :=
  "<!DOCTYPE project [<!ENTITY v \"1\">]>\n<project><version>&v;</version></project>\n"

/-- That document as it is read: the text before the root is cut at the first end mark, and the text
after it is lost. -/
def subsetProject : Descriptor :=
  ⟨Node.element ⟨"", "project"⟩ none [Node.element ⟨"", "version"⟩ (some "1") []],
    ⟨"", defaultIndent⟩, "<!DOCTYPE project [<!ENTITY v \"1\">", ""⟩

set_option maxRecDepth 8000 in
/-- The texts that are kept of it are not the ones around its root. -/
theorem split_iff_subset :
    Descriptor.parse? subsetText = some subsetProject ∧
    ∃ (root : Node) (r : Xml.Reading subsetText.toList root),
      subsetText.toList = r.before ++ r.rootText ++ r.after ∧
      subsetProject.prolog.toList ≠ r.before ∧ ¬ (Items r.before ∧ EndsLast r) := by
  have hparse : Descriptor.parse? subsetText = some subsetProject := rfl
  obtain ⟨root, r, hparts, -, hiff⟩ := split_iff hparse
  have hprolog : subsetProject.prolog.toList ≠ r.before := by
    intro heq
    -- a start tag would have to begin with the bracket that closes the subset
    have hrest : r.fromRoot = "]>\n<project><version>&v;</version></project>\n".toList :=
      List.append_cancel_left ((congrArg (· ++ r.fromRoot) heq).trans r.before_append)
    have hstart := r.start
    rw [hrest] at hstart
    exact absurd hstart (by decide)
  exact ⟨hparse, root, r, hparts, hprolog, fun hboth => hprolog (hiff.mpr hboth).1⟩

end Rollout.Pom
