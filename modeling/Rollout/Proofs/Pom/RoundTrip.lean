import Rollout.Proofs.Pom.Split
import Rollout.Proofs.Xml.Declarations

/-!
# Descriptors that are written and read again

A descriptor that was read is written as a document, and what is read of that document is the same
descriptor: the same tree, the same style and the same text around the root.

- `Portable`: the documents for which that holds.
- `Trails`, `assembled_kept`: the text that is kept from before the root of a document stands before
  any other root as well.
- `assembled_written`: the root as it is written stands between the texts that are kept.
- `parse_serialize`: **the round trip**.
-/

namespace Rollout.Pom

open Xml

/-! ## Marks inside other marks -/

/-- A text without a mark does not hold a longer one. -/
theorem occurs_append {mark more cs : List Char} (h : Text.occurs mark cs = false) :
    Text.occurs (mark ++ more) cs = false := by
  rw [occurs_eq_false_iff] at h ⊢
  exact fun hinside => h ((List.prefix_append mark more).isInfix.trans hinside)

/-- A root with content ends last when no end tag begins behind it. -/
theorem endsLast_of_quiet {text : List Char} {root : Node} {r : Xml.Reading text root}
    {name : List Char} (hname : rootName? r.fromRoot = some name)
    (hfilled : ¬ (root.text = none ∧ root.children = []))
    (hquiet : Text.occurs "</".toList r.after = false) : EndsLast r := by
  have hself : ¬ r.selfClosing = true := fun hself => hfilled (r.content_of_selfClosing hself)
  unfold EndsLast
  rw [hname]
  dsimp only
  rw [if_neg hself]
  exact occurs_append hquiet

/-- What a descriptor keeps of a document whose text is split where the reader splits it. -/
theorem parse?_of_reading {text : List Char} {root : Node} (r : Xml.Reading text root)
    (hitems : Items r.before) (hends : EndsLast r) :
    Descriptor.parse? (String.ofList text)
      = some ⟨{ root with tail := none }, ⟨spaceOf root, indentUnit root⟩,
          String.ofList r.before, String.ofList r.after⟩ := by
  have hread : readDocument? (String.ofList text) = some root := by
    refine nonempty_reading_iff.mp ?_
    rw [String.toList_ofList]
    exact ⟨r⟩
  unfold Descriptor.parse?
  rw [hread, String.toList_ofList, splitProlog_reading r hitems]
  dsimp only [Option.bind_eq_bind, Option.bind_some]
  rw [(epilogOf_iff r hitems).mpr hends]
  rfl

/-! ## Documents -/

/-- A document that declares no type, whose root has content and a name of the first characters,
whose elements are in one namespace or in none and whose attributes are in no namespace or in
another well-known one, without carriage returns between its tags, and without the beginning of an
end tag behind its root. -/
structure Portable {text : List Char} {root : Node} (r : Xml.Reading text root) : Prop where
  untyped : r.declaresType = false
  filled : ¬ (root.text = none ∧ root.children = [])
  ascii : ∀ name, root.name? = some name → ∀ c ∈ name.name.toList, c.toNat < 0x80
  reserved : spaceOf root ≠ xmlSpace
  oneSpace : root.Every (OneSpace (spaceOf root))
  unified : root.Every fun node => '\r' ∉ node.characterData
  quiet : Text.occurs "</".toList r.after = false

theorem withoutMark_cons {c : Char} (cs : List Char) :
    withoutMark (c :: cs) = c :: cs ↔ c.toNat ≠ 0xFEFF := by
  unfold withoutMark
  constructor
  · intro h hc
    have hlength := congrArg List.length h
    dsimp only at hlength
    rw [if_pos (beq_iff_eq.mpr hc), List.length_cons] at hlength
    omega
  · intro hc
    dsimp only
    rw [if_neg (by simpa using hc)]

/-- An encoding mark is no item, so that nothing is kept of the text around the root. -/
theorem splitProlog_of_mark {text : List Char} (hmark : withoutMark text ≠ text) :
    splitProlog text = ([], text) ∧ rootName? text = none := by
  cases text with
  | nil => exact absurd rfl hmark
  | cons c cs =>
    have hc : c.toNat = 0xFEFF := Decidable.not_not.mp (mt (withoutMark_cons cs).mpr hmark)
    obtain rfl : c = Char.ofNat 0xFEFF := by rw [← hc, Char.ofNat_toNat]
    have hblank : (Char.ofNat 0xFEFF :: cs).dropWhile Text.isBlank = Char.ofNat 0xFEFF :: cs :=
      List.dropWhile_cons_of_neg (by decide)
    have hitem : afterItem? (Char.ofNat 0xFEFF :: cs) = none := rfl
    have hafter : ∀ fuel, afterItems fuel (Char.ofNat 0xFEFF :: cs) = Char.ofNat 0xFEFF :: cs := by
      intro fuel
      cases fuel with
      | zero => exact hblank
      | succ fuel => rw [afterItems, hblank, hitem]
    refine ⟨?_, rfl⟩
    unfold splitProlog
    rw [hafter]
    dsimp only
    rw [Nat.sub_self, List.take_zero]

section Around

variable {text : List Char} {root : Node} {r : Xml.Reading text root}

/-- The text that is kept from behind the root is that text, or nothing. -/
theorem Portable.epilog_cases (h : Portable r) :
    epilogOf text (splitProlog text).2 = r.after ∨ epilogOf text (splitProlog text).2 = [] := by
  by_cases hmark : withoutMark text = text
  · have hitems := items_before r hmark h.untyped
    rw [splitProlog_reading r hitems]
    dsimp only
    cases hname : rootName? r.fromRoot with
    | none =>
      refine .inr ?_
      unfold epilogOf
      rw [hname]
    | some name =>
      exact .inl ((epilogOf_iff r hitems).mpr (endsLast_of_quiet hname h.filled h.quiet))
  · obtain ⟨hsplit, hname⟩ := splitProlog_of_mark hmark
    refine .inr ?_
    rw [hsplit]
    unfold epilogOf
    rw [hname]

/-- The text that is kept from before the root can stand before any root. -/
theorem exists_prolog (huntyped : r.declaresType = false) :
    Legal (splitProlog text).1 ∧ ∃ misc, Misc misc ∧ ∀ rootOn, atStartTag rootOn = true →
      withoutMark ((splitProlog text).1 ++ rootOn) = (splitProlog text).1 ++ rootOn ∧
      ∃ alone, scanDeclaration ((splitProlog text).1 ++ rootOn) = some (alone, misc ++ rootOn) := by
  -- a root begins with `<`, which is no encoding mark
  have hroots : ∀ rootOn, atStartTag rootOn = true → withoutMark rootOn = rootOn := by
    intro rootOn hroot
    obtain ⟨c, more, rfl, -⟩ := atStartTag_iff.mp hroot
    rfl
  by_cases hmark : withoutMark text = text
  · have hprolog : (splitProlog text).1 = r.before :=
      (splitProlog_iff r).mpr (items_before r hmark huntyped)
    obtain ⟨declaration, misc, hbefore, hmisc, hdeclaration⟩ := r.before_cases hmark huntyped
    have hlegal : Legal r.before := by
      intro c hc
      have hall := List.all_eq_true.mp r.legal c
      rw [hmark] at hall
      exact hall (r.before_append ▸ List.mem_append_left _ hc)
    rw [hprolog]
    refine ⟨hlegal, misc, hmisc, fun rootOn hroot => ⟨?_, ?_⟩⟩
    · -- the text keeps its first character, unless nothing stands before the root
      cases hfront : r.before with
      | nil => exact hroots rootOn hroot
      | cons c front =>
        refine (withoutMark_cons _).mpr ((withoutMark_cons (front ++ r.fromRoot)).mp ?_)
        have htext : c :: (front ++ r.fromRoot) = text := by
          rw [← List.cons_append, ← hfront, r.before_append]
        rw [htext]
        exact hmark
    · rw [hbefore, List.append_assoc]
      rcases hdeclaration with rfl | ⟨-, -, -, hscan⟩
      · rw [List.nil_append]
        exact ⟨false, scanDeclaration_of_misc hmisc (ne_instruction_of_atStartTag hroot)⟩
      · exact ⟨_, hscan _⟩
  · rw [(splitProlog_of_mark hmark).1]
    refine ⟨fun _ hc => absurd hc List.not_mem_nil, [], .nil, fun rootOn hroot => ?_⟩
    exact ⟨hroots rootOn hroot, false,
      scanDeclaration_of_misc .nil (ne_instruction_of_atStartTag hroot)⟩

/-- A text that can stand behind any root. -/
structure Trails (epilog : List Char) : Prop where
  legal : Legal epilog
  skipped : skipMisc (epilog.length + 1) epilog = some []

/-- **Another root** behind the text that is kept makes a document again. -/
theorem assembled_kept (huntyped : r.declaresType = false) {epilog opening : List Char}
    {pieces : List Piece} (htrails : Trails epilog) (hlegal : Legal opening)
    (hstart : ∀ rest, atStartTag (opening ++ rest) = true)
    (hscan : ∀ rest, scanRoot ((opening ++ rest).length + 1) 0 (opening ++ rest)
      = some (pieces, rest))
    (hexpand : expandContent Dtd.empty Dtd.empty.depth pieces = some pieces) :
    Assembled (splitProlog text).1 (opening ++ epilog) epilog pieces := by
  obtain ⟨hprolog, misc, hmisc, hroots⟩ := exists_prolog huntyped
  obtain ⟨hmark, alone, hdeclaration⟩ := hroots _ (hstart epilog)
  exact ⟨legal_append.mpr ⟨hprolog, legal_append.mpr ⟨hlegal, htrails.legal⟩⟩, hmark,
    ⟨alone, misc, hmisc, hdeclaration⟩, hstart epilog, hscan epilog, hexpand, htrails.skipped⟩

end Around

/-! ## The root that is written -/

/-- A name that begins with one of the first characters is found in the root's tag. -/
theorem exists_rootName {name : List Char} (more : List Char) (hname : IsName name)
    (hascii : ∀ c ∈ name, c.toNat < 0x80) :
    ∃ found, rootName? ('<' :: (name ++ more)) = some found := by
  obtain ⟨c, others, rfl, hstart, -⟩ := hname
  -- below 0x80 every character that begins a name is looked for as well
  have hall : ∀ code, code < 0x80 → isNameStart (Char.ofNat code) = true →
      isRootNameChar (Char.ofNat code) = true := by decide +kernel
  have hc : isRootNameChar c = true := by
    have hcode := hall c.toNat (hascii c (List.mem_cons_self ..))
    rw [Char.ofNat_toNat] at hcode
    exact hcode hstart
  refine ⟨c :: (others ++ more).takeWhile isRootNameChar, ?_⟩
  show (if ((c :: (others ++ more)).takeWhile isRootNameChar).isEmpty then none
    else some ((c :: (others ++ more)).takeWhile isRootNameChar)) = _
  rw [List.takeWhile_cons_of_pos hc]
  rfl

theorem space_of_name? {root : Node} {name : QName} (h : root.name? = some name) :
    name.space = spaceOf root := by
  unfold spaceOf
  rw [h]

section Written

variable {text : List Char} {root : Node} {r : Xml.Reading text root}

/-- The root as it is written stands between the texts that are kept. -/
theorem assembled_written (huntyped : r.declaresType = false)
    (hepilog : epilogOf text (splitProlog text).2 = r.after ∨
      epilogOf text (splitProlog text).2 = []) :
    let epilog := epilogOf text (splitProlog text).2
    Assembled (splitProlog text).1 (writeRoot (Prefixes.held (spaceOf root)) root ++ epilog) epilog
      (rootPieces (spaceOf root) root) := by
  have htrails : Trails (epilogOf text (splitProlog text).2) := by
    rcases hepilog with heq | heq
    · rw [heq]
      refine ⟨fun c hc => r.legal_fromRoot c ?_, r.trailing⟩
      rw [← r.rootText_append]
      exact List.mem_append_right _ hc
    · rw [heq]
      exact ⟨nofun, rfl⟩
  obtain ⟨hroot, hsound⟩ := r.sound huntyped
  obtain ⟨hlegal, hopening, hscan⟩ := scanRoot_writeRoot hroot hsound fun _ => space_of_name?
  have hexpand : expandContent Dtd.empty Dtd.empty.depth (rootPieces (spaceOf root) root)
      = some (rootPieces (spaceOf root) root) :=
    expandContent_empty.mpr ⟨rfl, not_entity_mem_pieces⟩
  generalize writeRoot (Prefixes.held (spaceOf root)) root = opening at *
  refine assembled_kept huntyped htrails hlegal (fun rest => ?_) hscan hexpand
  -- the root's name is written without a prefix
  obtain ⟨name, attributes, content, children, rfl⟩ := hroot
  obtain ⟨more, hmore⟩ := hopening name rfl
  obtain ⟨c, others, hname, hc, -⟩ := (hsound.here.named rfl).isName
  rw [hmore, hname]
  exact hc

/-- **The same root** is read between the texts that are kept, and they are the texts around it. -/
theorem Portable.exists_written (h : Portable r) :
    let epilog := epilogOf text (splitProlog text).2
    ∃ r' : Xml.Reading ((splitProlog text).1
        ++ (writeRoot (Prefixes.held (spaceOf root)) root ++ epilog)) root,
      r'.before = (splitProlog text).1 ∧ r'.after = epilog ∧ EndsLast r' := by
  intro epilog
  obtain ⟨hroot, hsound⟩ := r.sound h.untyped
  have hexpress := h.oneSpace.mono fun each heach => heach.expressible
  have hbuild := buildTree_rootPieces h.reserved hroot hsound hexpress
  rw [unified_eq_self (hsound.and h.unified)] at hbuild
  obtain ⟨r', hfromRoot, hafter⟩ :=
    (assembled_written h.untyped h.epilog_cases).exists_reading hbuild
  have hwhole := r'.before_append
  rw [hfromRoot] at hwhole
  refine ⟨r', List.append_cancel_right hwhole, hafter, ?_⟩
  obtain ⟨name, attributes, content, children, rfl⟩ := hroot
  obtain ⟨more, hmore⟩ := (scanRoot_writeRoot ⟨_, _, _, _, rfl⟩ hsound
    fun _ => space_of_name?).2.1 name rfl
  obtain ⟨found, hfound⟩ := exists_rootName (more ++ epilog) (hsound.here.named rfl).isName
    (h.ascii name rfl)
  have hname : rootName? r'.fromRoot = some found := by
    rw [hfromRoot, hmore, List.cons_append, List.append_assoc]
    exact hfound
  refine endsLast_of_quiet hname h.filled ?_
  rw [hafter]
  rcases h.epilog_cases with heq | heq
  · rw [heq]
    exact h.quiet
  · rw [heq]
    rfl

end Written

/-- A descriptor that is written again finds its namespace holding the empty prefix. -/
theorem register_register (descriptor : Descriptor) (register : Prefixes) :
    descriptor.register (descriptor.register register) = descriptor.register register := by
  unfold Descriptor.register
  split
  · rfl
  · exact holdDefault_holdDefault ..

/-! ## Main statement -/

/-- **The round trip.** What a descriptor of a portable document is written as is read as the same
descriptor, with the same tree, style and text around the root, and is written as the same text
under the register that the first writing leaves. -/
theorem parse_serialize {text : String} {descriptor : Descriptor}
    (h : Descriptor.parse? text = some descriptor) {root : Node} {r : Xml.Reading text.toList root}
    (hportable : Portable r) :
    let written := descriptor.serialize Prefixes.standard
    Descriptor.parse? written.1 = some descriptor ∧
      (descriptor.serialize written.2).1 = written.1 := by
  obtain ⟨same, hread, hrest⟩ := Option.bind_eq_some_iff.mp h
  obtain rfl : root = same := by
    have hroot := nonempty_reading_iff.mp ⟨r⟩
    rw [hread] at hroot
    exact (Option.some.inj hroot).symm
  -- a root that is read has no tail, so that the descriptor keeps it as it is
  have hbare : ({ root with tail := none } : Node) = root := by
    obtain ⟨⟨name, attributes, content, children, rfl⟩, -⟩ := r.sound hportable.untyped
    rfl
  obtain ⟨r', hbefore, hafter, hends⟩ := hportable.exists_written
  have hitems : Items r'.before := by
    rw [hbefore]
    exact items_splitProlog text.toList
  have hparse := parse?_of_reading r' hitems hends
  have hdescriptor : descriptor = ⟨root, ⟨spaceOf root, indentUnit root⟩,
      String.ofList r'.before, String.ofList r'.after⟩ := by
    rw [hbefore, hafter, ← hbare]
    exact (Option.some.inj hrest).symm
  rw [hbare, ← hdescriptor] at hparse
  constructor
  · have hwritten : (descriptor.serialize Prefixes.standard).1
        = String.ofList ((splitProlog text.toList).1
          ++ (writeRoot (Prefixes.held (spaceOf root)) root
            ++ epilogOf text.toList (splitProlog text.toList).2)) := by
      have hserialize : (descriptor.serialize Prefixes.standard).1 = String.ofList
          (descriptor.prolog.toList ++ writeRoot (Prefixes.held descriptor.style.space)
            descriptor.root ++ descriptor.epilog.toList) := rfl
      rw [hserialize, hdescriptor]
      dsimp only
      rw [String.toList_ofList, String.toList_ofList, hbefore, hafter, List.append_assoc]
    rw [hwritten]
    exact hparse
  · show (String.ofList (_ ++ writeRoot (descriptor.register (descriptor.register _)) _ ++ _))
      = String.ofList (_ ++ writeRoot (descriptor.register _) _ ++ _)
    rw [register_register]

/-! ## A project with a prefix -/

/-- A project that names its namespace by a prefix, and a character by its number. -/
def prefixedText : String :=
  "<p:project xmlns:p=\"u\"><p:version>1 &#38; 2</p:version></p:project>\n"

/-- The version of that project. -/
def prefixedVersion : Node :=
  Node.element ⟨"u", "version"⟩ (some "1 & 2") []

/-- That project as it is read. -/
def prefixedProject : Descriptor :=
  ⟨Node.element ⟨"u", "project"⟩ none [prefixedVersion], ⟨"u", defaultIndent⟩, "", "\n"⟩

/-- The steps by which it is read. -/
def prefixedReading : Xml.Reading prefixedText.toList prefixedProject.root where
  standalone := false
  afterDeclaration := prefixedText.toList
  afterMisc := prefixedText.toList
  dtd := Dtd.empty
  afterType := prefixedText.toList
  fromRoot := prefixedText.toList
  pieces := [.start ⟨⟨['p'], "project".toList⟩, [(⟨"xmlns".toList, ['p']⟩, ['u'])], false⟩,
    .start ⟨⟨['p'], "version".toList⟩, [], false⟩, .text ['1', ' '], .text ['&'], .text [' ', '2'],
    .finish ⟨['p'], "version".toList⟩, .finish ⟨['p'], "project".toList⟩]
  after := ['\n']
  whole := [.start ⟨⟨['p'], "project".toList⟩, [(⟨"xmlns".toList, ['p']⟩, ['u'])], false⟩,
    .start ⟨⟨['p'], "version".toList⟩, [], false⟩, .text ['1', ' '], .text ['&'], .text [' ', '2'],
    .finish ⟨['p'], "version".toList⟩, .finish ⟨['p'], "project".toList⟩]
  legal := by decide +kernel
  declaration := rfl
  misc := rfl
  doctype := rfl
  moreMisc := rfl
  start := by decide +kernel
  scan := by decide +kernel
  expand := rfl
  trailing := rfl
  build := rfl

theorem portable_prefixedReading : Portable prefixedReading := by
  have hleaf : ∀ {P : Node → Prop}, P prefixedVersion → prefixedVersion.Every P := fun hversion =>
    .intro hversion fun _ hchild => absurd hchild List.not_mem_nil
  have hinside : ∀ {P : Node → Prop}, P prefixedProject.root → P prefixedVersion →
      prefixedProject.root.Every P := fun hroot hversion =>
    .intro hroot (List.forall_mem_singleton.mpr (hleaf hversion))
  have hspace : ∀ {name : String} {text : Option String} {children : List Node},
      OneSpace "u" (Node.element ⟨"u", name⟩ text children) := by
    rintro name text children _ _ ⟨⟩
    exact ⟨rfl, fun _ hentry => absurd hentry List.not_mem_nil⟩
  refine ⟨by decide +kernel, by simp [prefixedProject, Node.element], ?_, by decide, ?_, ?_, ?_⟩
  · rintro name ⟨⟩
    simp
  · exact hinside hspace hspace
  · exact hinside (by decide) (by decide)
  · decide

set_option maxRecDepth 8000 in
/-- It is written with its namespace as the default one, and read as the same project. -/
theorem parse_serialize_prefixed :
    Descriptor.parse? prefixedText = some prefixedProject ∧ Portable prefixedReading ∧
    let written := prefixedProject.serialize Prefixes.standard
    written.1 = "<project xmlns=\"u\"><version>1 &amp; 2</version></project>\n" ∧
      Descriptor.parse? written.1 = some prefixedProject ∧
      (prefixedProject.serialize written.2).1 = written.1 := by
  have hparse : Descriptor.parse? prefixedText = some prefixedProject := rfl
  exact ⟨hparse, portable_prefixedReading, by decide +kernel,
    parse_serialize hparse portable_prefixedReading⟩

end Rollout.Pom
