import Rollout.Proofs.Files.Shapes
import Rollout.Proofs.Pom.Additions
import Rollout.Proofs.Pom.FileEdits
import Rollout.Proofs.Pom.History
import Rollout.Proofs.Pom.Retexted

/-!
# Descriptors that stay readable

A descriptor that is read again after it is written unchanged is read again after a dependency is
added, unless a text of the dependency has a character that no document may hold. Such a character
is written as it is.

- `readDocument?_kept_iff`: when a root is read behind the text that is kept from before another.
- `readDocument?_written_iff`: when a tree is read that is written for a descriptor.
- `legal_of_insertDependency`: the texts of a dependency stand in the text that is written.
- `exists_rereadRoot_added`: a dependency brings no prefix.
- `parse?_insertDependency_iff`: **a dependency added to a descriptor**.
- `dependency_readable_iff`: **a dependency added to a descriptor on disk** is read back.

A text is read back without the blanks around it and with its line ends unified, and an empty one is
absent.
-/

namespace Rollout.Pom

open Xml

/-! ## Between the texts that are kept -/

section Around

variable {text : List Char} {original root read : Node} {r : Xml.Reading text original}
  {register : Prefixes} {epilog : List Char}

theorem legal_of_withoutMark {cs : List Char} (h : Legal (withoutMark cs)) : Legal cs := by
  cases cs with
  | nil => exact h
  | cons c cs =>
    rw [withoutMark] at h
    split at h
    case isTrue hmark =>
      refine List.forall_mem_cons.mpr ⟨?_, h⟩
      have hcode : c.toNat = 0xFEFF := by simpa using hmark
      rw [isLegal, hcode]
      rfl
    case isFalse => exact h

/-- Every character of a text that is read may stand in a document. -/
theorem legal_of_readDocument? {text : String} (h : readDocument? text = some read) :
    Legal text.toList := by
  obtain ⟨r⟩ := nonempty_reading_iff.mpr h
  exact legal_of_withoutMark (List.all_eq_true.mp r.legal)

/-- **A root that is written** behind the text that is kept is read again when the text behind it
can stand there and its prefixes stand for something. -/
theorem readDocument?_kept_iff (huntyped : r.declaresType = false) (hregister : register.Regular)
    (hroot : root.IsRoot) (hsound : root.Every Sound) :
    readDocument? (String.ofList ((splitProlog text).1 ++ (writeRoot register root ++ epilog)))
        = some read ↔
      Trails epilog ∧ rereadRoot register root = some read := by
  obtain ⟨hlegal, hstart, hscan⟩ := scanRoot_register hregister hroot hsound
  have hexpand : expandContent Dtd.empty Dtd.empty.depth (piecesUnder register root)
      = some (piecesUnder register root) := expandContent_empty.mpr ⟨rfl, not_entity_mem_pieces⟩
  constructor
  · intro h
    have hreading := nonempty_reading_iff.mpr h
    rw [String.toList_ofList] at hreading
    obtain ⟨r'⟩ := hreading
    obtain ⟨-, misc, hmisc, hroots⟩ := exists_prolog huntyped
    obtain ⟨hmark, alone, hdeclaration⟩ := hroots _ (hstart epilog)
    obtain ⟨huntyped', hfrom⟩ := r'.fromRoot_eq hmark hmisc hdeclaration (hstart epilog)
    have hscan' := r'.scan
    rw [hfrom, hscan] at hscan'
    obtain ⟨hpieces, hafter⟩ := Prod.mk.inj (Option.some.inj hscan')
    refine ⟨⟨fun c hc => r'.legal_fromRoot c ?_, hafter ▸ r'.trailing⟩, ?_⟩
    · rw [hfrom]
      exact List.mem_append_right _ hc
    · have hwhole := r'.expand
      have hbuild := r'.build
      rw [(r'.dtd_eq_empty huntyped').1] at hwhole hbuild
      rw [← hpieces, hexpand] at hwhole
      rw [← Option.some.inj hwhole, buildTree_register hroot hsound] at hbuild
      exact hbuild
  · rintro ⟨htrails, hread⟩
    rw [(assembled_kept huntyped htrails hlegal hstart hscan hexpand).readDocument?_eq,
      buildTree_register hroot hsound, hread]

end Around

/-! ## Registers -/

section Registers

variable {descriptor : Descriptor} {register : Prefixes}

theorem regular_register (h : register.Regular) : (descriptor.register register).Regular := by
  unfold Descriptor.register
  split
  · exact h
  · exact h.holdDefault _

/-- The namespace of a descriptor holds the empty prefix once the descriptor is written. -/
theorem ownsPrefix_register {name : QName} (h : name.space = descriptor.style.space) :
    OwnsPrefix (descriptor.register register) name := by
  unfold Descriptor.register
  split
  case isTrue hempty => exact .inl (h.trans (by simpa using hempty))
  case isFalse => exact .inr (h ▸ lookup_holdDefault_self ..)

end Registers

/-! ## The text that is written -/

theorem epilogOf_subset (cs fromRoot : List Char) : epilogOf cs fromRoot ⊆ cs := by
  unfold epilogOf
  split
  · exact List.nil_subset _
  · split
    · exact List.nil_subset _
    case h_2 closing hclosing =>
      obtain ⟨front, rfl, -⟩ := lastFrom?_eq_some hclosing
      cases hafter : afterFirst? ['>'] closing with
      | none => exact List.nil_subset _
      | some rest =>
        obtain ⟨inside, rfl, -⟩ := (afterFirst?_eq_some (by decide)).mp hafter
        exact fun c hc => by simp [show c ∈ rest from hc]

section Written

variable {text : String} {descriptor : Descriptor} {register : Prefixes} {after read : Node}

/-- **A tree that is written** for a descriptor is read again when the text behind it can stand
there and its prefixes stand for something. -/
theorem readDocument?_written_iff (r : Xml.Reading text.toList descriptor.root)
    (h : Descriptor.parse? text = some descriptor) (huntyped : r.declaresType = false)
    (hreturn : '\r' ∉ text.toList) (hregister : register.Regular) (hroot : after.IsRoot)
    (hlegible : after.Every Legible) :
    readDocument? (Text.unifyNewlines
        (({ descriptor with root := after } : Descriptor).serialize register).1) = some read ↔
      Trails descriptor.epilog.toList ∧
        rereadRoot (descriptor.register register) after.terse.unified = some read := by
  have hdescriptor := eq_of_reading r h huntyped
  have hprolog : descriptor.prolog.toList = (splitProlog text.toList).1 := by
    rw [hdescriptor]
    exact String.toList_ofList
  have hepilog : descriptor.epilog.toList
      = epilogOf text.toList (splitProlog text.toList).2 := by
    rw [hdescriptor]
    exact String.toList_ofList
  have hbefore : '\r' ∉ (splitProlog text.toList).1 := fun hmem =>
    hreturn (List.mem_of_mem_take hmem)
  have hbehind : '\r' ∉ descriptor.epilog.toList := fun hmem =>
    hreturn (epilogOf_subset _ _ (hepilog ▸ hmem))
  have hsound := every_terse hlegible
  have hregular := @regular_register descriptor register hregister
  have hterse : after.terse.unified.IsRoot := by
    obtain ⟨name, attributes, content, children, rfl⟩ := hroot
    exact ⟨name, attributes, _, _, rfl⟩
  have hwritten : Text.unifyNewlines
        (({ descriptor with root := after } : Descriptor).serialize register).1
      = String.ofList ((splitProlog text.toList).1
          ++ (writeRoot (descriptor.register register) after.terse.unified
            ++ descriptor.epilog.toList)) := by
    have hserialize : (({ descriptor with root := after } : Descriptor).serialize register).1
        = String.ofList (descriptor.prolog.toList ++ writeRoot (descriptor.register register) after
            ++ descriptor.epilog.toList) := rfl
    unfold Text.unifyNewlines
    rw [hserialize, String.toList_ofList, hprolog, List.append_assoc,
      unifyNewlineChars_append_of_not_mem hbefore, unify_around hroot,
      unifyNewlineChars_of_not_mem hbehind, ← writeRoot_terse, unify_writeRoot hregular hsound]
  rw [hwritten]
  exact readDocument?_kept_iff huntyped hregular hterse (every_unified hsound)

/-- A root has nothing but legal characters when it is read. -/
theorem legal_of_written (h : readDocument? (Text.unifyNewlines
    (({ descriptor with root := after } : Descriptor).serialize register).1) = some read) :
    Legal (writeRoot (descriptor.register register) after) := by
  have hwritten : (({ descriptor with root := after } : Descriptor).serialize register).1.toList
      = descriptor.prolog.toList ++ writeRoot (descriptor.register register) after
        ++ descriptor.epilog.toList := String.toList_ofList
  have hlegal := legal_of_readDocument? h
  unfold Text.unifyNewlines at hlegal
  rw [String.toList_ofList, hwritten] at hlegal
  exact (legal_append.mp (legal_append.mp (legal_of_unified hlegal)).1).2

/-- Texts do not matter for whether a root is read again. -/
theorem exists_rereadRoot_iff (register : Prefixes) (root : Node) :
    (∃ read, rereadRoot register root.terse.unified = some read) ↔
      Opens (writtenTag register (assign register root))
        (declaredEntries (assign register root)) Scope.initial root := by
  have hretexts : Retexts fun node => node.terse.unified := retexts_unified.comp retexts_terse
  have hassign : assign register root.terse.unified = assign register root :=
    assign_of_labels (hretexts.labels_eq root) register
  unfold rereadRoot
  rw [hassign, ← Option.isSome_iff_exists, isSome_reread_iff]
  exact hretexts.opens_iff root

end Written

/-! ## A dependency that is read back -/

section Legal

variable {nameOf : QName → List Char} {declarations : List Char} {node : Node}

/-- The texts inside the items of a tree whose text is legal. -/
theorem legal_of_mem_itemsOf {container item : String}
    (h : Legal (node.write nameOf declarations)) (helement : node.name?.isSome = true) :
    ∀ each ∈ itemsOf container item node, ∀ child ∈ each.children,
      child.name?.isSome = true → LegalText child.text := by
  intro each heach child hchild hname
  unfold itemsOf at heach
  cases hblock : node.child? container with
  | none =>
    rw [hblock] at heach
    cases heach
  | some block =>
    rw [hblock] at heach
    obtain ⟨hmem, hnamed⟩ := List.mem_filter.mp heach
    have hblocks := (legal_inside h helement).2 block (List.mem_of_find?_eq_some hblock)
    have hitems := (legal_inside hblocks (isSome_name?_of_isNamed (List.find?_some hblock))).2
    have hinside := (legal_inside (hitems each hmem) (isSome_name?_of_isNamed hnamed)).2
    exact (legal_inside (hinside child hchild) hname).1

/-- **The texts of a dependency** that is added to a tree whose text is legal. -/
theorem legal_of_insertDependency {group artifact version : String} {style : Style}
    (h : Legal ((insertDependency group artifact version style node).write nameOf declarations))
    (helement : node.name?.isSome = true) :
    Legal group.toList ∧ Legal artifact.toList ∧ Legal version.toList := by
  have hlabel : (insertDependency group artifact version style node).label = node.label :=
    (inPlace_within ..).label node
  have hname : (insertDependency group artifact version style node).name?.isSome = true := by
    unfold Node.name? at helement ⊢
    rwa [hlabel]
  have hitems := @legal_of_mem_itemsOf _ _ _ "dependencies" "dependency" h hname
  -- the element that is added is the last one, seen by the texts of its children
  have hfree : TailFree fun node : Node =>
      node.children.map fun child => (child.name?.isSome, child.text) := fun _ _ => rfl
  have hadded : (itemsOf "dependencies" "dependency"
        (insertDependency group artifact version style node)).map
          (fun node => node.children.map fun child => (child.name?.isSome, child.text))
      = _ ++ [[(true, some group), (true, some artifact), (true, some version)]] :=
    map_itemsOf_within hfree style 0 (isNamed_dependency ..) node
  obtain ⟨item, hitem, hchildren⟩ := List.mem_map.mp
    (hadded ▸ List.mem_append_right _ (List.mem_singleton_self _))
  have htexts : ∀ text ∈ [group, artifact, version], Legal text.toList := by
    intro text htext
    have hmem : (true, some text) ∈ item.children.map
        fun child => (child.name?.isSome, child.text) := by
      rw [hchildren]
      simpa using htext
    obtain ⟨child, hchild, hpair⟩ := List.mem_map.mp hmem
    obtain ⟨hname, hfound⟩ := Prod.mk.inj hpair
    have hlegal := hitems item hitem child hchild hname
    rwa [hfound] at hlegal
  simpa using htexts

end Legal

/-- A descriptor is held by the texts that a document is read from, with its dependencies. -/
theorem exists_parsed_iff {text : String} {found : List Coordinates} :
    (∃ parsed, Descriptor.parse? text = some parsed ∧ dependencies parsed.root = found) ↔
      ∃ read, readDocument? text = some read ∧ dependencies read = found := by
  have hsame : (Descriptor.parse? text).map (fun descriptor => dependencies descriptor.root)
      = (readDocument? text).map dependencies := by
    unfold Descriptor.parse?
    cases readDocument? text <;> rfl
  rw [← Option.map_eq_some_iff, hsame, Option.map_eq_some_iff]

theorem dependencies_rereadRoot {register : Prefixes} {root read : Node}
    (h : rereadRoot register root.terse.unified = some read) :
    dependencies read = dependencies root.terse.unified := by
  rw [dependencies_reread (fun _ => rfl) h, unified_unified]

section Descriptors

variable {text : String} {descriptor again : Descriptor} {register : Prefixes}
  (group artifact version : String)

theorem isRoot_insertDependency {style : Style} {root : Node} (h : root.IsRoot) :
    (insertDependency group artifact version style root).IsRoot := by
  have hlabel : (insertDependency group artifact version style root).label = root.label :=
    (inPlace_within ..).label root
  have htail : (insertDependency group artifact version style root).tail = root.tail :=
    (inPlace_within ..).tail_eq root
  obtain ⟨name, attributes, content, children, rfl⟩ := h
  generalize insertDependency group artifact version style _ = after at hlabel htail
  obtain ⟨label, text, inside, tail⟩ := after
  obtain rfl : label = .element name attributes := hlabel
  obtain rfl : tail = none := htail
  exact ⟨name, attributes, text, inside, rfl⟩

/-- A dependency of legal characters leaves the root of a descriptor legible. -/
theorem legible_added (r : Xml.Reading text.toList descriptor.root)
    (h : Descriptor.parse? text = some descriptor) (huntyped : r.declaresType = false)
    (hgroup : Legal group.toList) (hartifact : Legal artifact.toList)
    (hversion : Legal version.toList) :
    (insertDependency group artifact version descriptor.style descriptor.root).Every Legible := by
  obtain ⟨-, hsound⟩ := r.sound huntyped
  obtain ⟨name, attributes, hlabel, hspace⟩ := exists_label_of_parse? h
  have helement : descriptor.root.name?.isSome = true := by
    unfold Node.name?
    rw [hlabel]
    rfl
  have hlegible := hsound.mono fun _ heach => heach.legible
  have hindent : descriptor.style.indent = indentUnit descriptor.root :=
    congrArg (fun each => each.style.indent) (eq_of_reading r h huntyped)
  refine legible_insertDependency group artifact version
    (hspace ▸ (hsound.here.named hlabel).space) ?_ hlegible helement hgroup hartifact hversion
  rw [hindent]
  exact forall_mem_indentUnit (by decide) (legalText_text hlegible.here helement)

/-- A dependency brings no prefix, so that the root is read again when it was before. -/
theorem exists_rereadRoot_added (h : Descriptor.parse? text = some descriptor)
    (hreread : ∃ read, rereadRoot (descriptor.register register) descriptor.root.terse.unified
      = some read) :
    ∃ read, rereadRoot (descriptor.register register)
      (insertDependency group artifact version descriptor.style
        descriptor.root).terse.unified = some read := by
  obtain ⟨name, attributes, hlabel, hspace⟩ := exists_label_of_parse? h
  have hassign : assign (descriptor.register register)
        (insertDependency group artifact version descriptor.style descriptor.root)
      = assign (descriptor.register register) descriptor.root := by
    refine assign_of_outside hlabel ((inPlace_within ..).label _) (ownsPrefix_register hspace) ?_
    rw [hspace]
    exact outside_insertDependency group artifact version
  rw [exists_rereadRoot_iff, hassign]
  refine opens_insertDependency group artifact version (fun own => ?_)
    ((exists_rereadRoot_iff ..).mp hreread)
  exact (ownsPrefix_register rfl).pfx_writtenTag
    fun entry hentry => (fits_assign _ _ entry hentry).1

/-- The document that is written with a dependency. -/
theorem readDocument?_added_iff (r : Xml.Reading text.toList descriptor.root)
    (h : Descriptor.parse? text = some descriptor) (huntyped : r.declaresType = false)
    (hreturn : '\r' ∉ text.toList) (hregister : register.Regular)
    (htrails : Trails descriptor.epilog.toList) {read : Node} :
    readDocument? (Text.unifyNewlines
        ((descriptor.edit (insertDependency group artifact version)).serialize register).1)
        = some read ↔
      (Legal group.toList ∧ Legal artifact.toList ∧ Legal version.toList) ∧
        rereadRoot (descriptor.register register)
          (insertDependency group artifact version descriptor.style
            descriptor.root).terse.unified = some read := by
  obtain ⟨hroot, -⟩ := r.sound huntyped
  have helement : descriptor.root.name?.isSome = true := by
    obtain ⟨name, attributes, content, children, hparts⟩ := hroot
    rw [hparts]
    rfl
  have hadded := @isRoot_insertDependency group artifact version descriptor.style _ hroot
  have hiff := fun hlegible =>
    @readDocument?_written_iff _ _ _ _ read r h huntyped hreturn hregister hadded hlegible
  constructor
  · intro hread
    obtain ⟨hgroup, hartifact, hversion⟩ :=
      legal_of_insertDependency (legal_of_written hread) helement
    have hlegible := legible_added group artifact version r h huntyped hgroup hartifact hversion
    exact ⟨⟨hgroup, hartifact, hversion⟩, ((hiff hlegible).mp hread).2⟩
  · rintro ⟨⟨hgroup, hartifact, hversion⟩, hreread⟩
    exact (hiff (legible_added group artifact version r h huntyped hgroup hartifact hversion)).mpr
      ⟨htrails, hreread⟩

/-- **A dependency added to a descriptor** that is read again when nothing is added. What is written
is read again just when every character of the dependency may stand in a document, and the
dependency is the last one then. -/
theorem parse?_insertDependency_iff (r : Xml.Reading text.toList descriptor.root)
    (h : Descriptor.parse? text = some descriptor) (huntyped : r.declaresType = false)
    (hreturn : '\r' ∉ text.toList) (hregister : register.Regular)
    (hagain : Descriptor.parse? (Text.unifyNewlines (descriptor.serialize register).1)
      = some again) :
    let written := Text.unifyNewlines
      ((descriptor.edit (insertDependency group artifact version)).serialize register).1
    ((∃ added, Descriptor.parse? written = some added) ↔
        Legal group.toList ∧ Legal artifact.toList ∧ Legal version.toList) ∧
      ∀ added, Descriptor.parse? written = some added →
        dependencies added.root = dependencies again.root
          ++ [⟨readBack group, readBack artifact, readBack version⟩] := by
  intro written
  obtain ⟨hroot, hsound⟩ := r.sound huntyped
  obtain ⟨before, hbefore, hkept⟩ := exists_parsed_iff.mp ⟨again, hagain, rfl⟩
  obtain ⟨htrails, hreread⟩ := (readDocument?_written_iff r h huntyped hreturn hregister hroot
    (hsound.mono fun _ heach => heach.legible)).mp hbefore
  have hiff := fun read => @readDocument?_added_iff _ _ _ group artifact version r h huntyped
    hreturn hregister htrails read
  refine ⟨⟨fun ⟨added, hadded⟩ => ?_, fun hlegal => ?_⟩, fun added hadded => ?_⟩
  · obtain ⟨read, hread, -⟩ := exists_parsed_iff.mp ⟨added, hadded, rfl⟩
    exact ((hiff read).mp hread).1
  · obtain ⟨read, hread⟩ := exists_rereadRoot_added group artifact version h ⟨before, hreread⟩
    obtain ⟨added, hadded, -⟩ := exists_parsed_iff.mpr ⟨read, (hiff read).mpr ⟨hlegal, hread⟩, rfl⟩
    exact ⟨added, hadded⟩
  · obtain ⟨read, hread, hsame⟩ := exists_parsed_iff.mp ⟨added, hadded, rfl⟩
    rw [← hsame, ← hkept, dependencies_rereadRoot ((hiff read).mp hread).2,
      dependencies_rereadRoot hreread, dependencies_retexted]

end Descriptors

/-! ## Main statement -/

section Disk

variable {pom place : Path} {disk : Disk} {text : String} {descriptor : Descriptor}

/-- What is written for a descriptor is what is read next. -/
theorem readDescriptor_holding {content : Content} (hplace : disk.files.resolve pom = .ok place)
    (hfile : disk.files.get? place = some (.file content)) (written : String × Prefixes) :
    readDescriptor pom (disk.holding place written) = .ok descriptor (disk.holding place written) ↔
      Descriptor.parse? (Text.unifyNewlines written.1) = some descriptor := by
  have hsame := Files.sameShape_put hfile (.text written.1)
  have hleads : (disk.holding place written).files.resolve pom = .ok place :=
    (hsame.resolve_eq pom).trans hplace
  have htop : Files.isTop place = false := Files.not_isTop_of_get? hfile nofun
  have hentry : (disk.holding place written).files.get? place = some (.file (.text written.1)) :=
    Files.get?_put_self _ htop _
  have htext : (disk.holding place written).files.readText pom
      = .ok (Text.unifyNewlines written.1) := by
    rw [Files.readText_of_resolve hleads, hentry]
    rfl
  rw [readDescriptor_eq_ok]
  constructor
  · rintro ⟨-, found, hfound, hparse⟩
    rw [htext] at hfound
    cases hfound
    exact hparse
  · exact fun hparse => ⟨rfl, _, htext, hparse⟩

/-- An edit of a file that holds a descriptor. -/
theorem editFile_holding (hplace : disk.files.resolve pom = .ok place)
    (htext : Files.textAt (disk.files.get? place) = .ok text)
    (h : Descriptor.parse? text = some descriptor) (edit : Style → Node → Node) :
    editFile pom (fun style root => .ok (edit style root)) disk
      = .ok () (disk.holding place ((descriptor.edit edit).serialize disk.register)) := by
  rw [editFile_eq hplace, htext]
  dsimp only [Except.bind]
  unfold rewritten
  rw [h]
  rfl

/-- **A dependency that is added is read back.** A descriptor on disk without a type declaration
that is read again after it is written unchanged takes any dependency. What is written is read again
just when every character of the dependency may stand in a document; the dependencies are then those
that are read when nothing is added, with the new one behind them.

With a type declaration this does not hold. The text that is kept from before the root may then end
inside the declaration, and what is left of the declaration may hide the root that is written, and
the dependency with it, although a root is read behind it. -/
theorem dependency_readable_iff {root : Node} {kept : Disk} {again : Descriptor}
    (htext : disk.files.readText pom = .ok text) (r : Xml.Reading text.toList root)
    (huntyped : r.declaresType = false) (hregister : disk.register.Regular)
    (hkept : editFile pom (fun _ root => .ok root) disk = .ok () kept)
    (hagain : readDescriptor pom kept = .ok again kept) (group artifact version : String) :
    ∃ added, addDependencyFile pom group artifact version disk = .ok () added ∧
      ((∃ read, readDescriptor pom added = .ok read added) ↔
        Legal group.toList ∧ Legal artifact.toList ∧ Legal version.toList) ∧
      ∀ read, readDescriptor pom added = .ok read added →
        dependencies read.root = dependencies again.root
          ++ [⟨readBack group, readBack artifact, readBack version⟩] := by
  obtain ⟨place, content, hplace, hfile, hentry⟩ := Files.exists_place htext
  obtain ⟨descriptor, hparse, hroot⟩ : ∃ descriptor, Descriptor.parse? text = some descriptor ∧
      descriptor.root = root := by
    have hread := nonempty_reading_iff.mp ⟨r⟩
    obtain ⟨descriptor, hparse⟩ : ∃ descriptor, Descriptor.parse? text = some descriptor := by
      unfold Descriptor.parse?
      rw [hread]
      exact ⟨_, rfl⟩
    exact ⟨descriptor, hparse, by rw [eq_of_reading r hparse huntyped]⟩
  subst hroot
  have hunchanged := editFile_holding hplace hentry hparse fun _ root => root
  obtain rfl : disk.holding place (descriptor.serialize disk.register) = kept := by
    rw [hunchanged] at hkept
    cases hkept
    rfl
  have hmain := parse?_insertDependency_iff group artifact version r hparse huntyped
    (return_not_mem_textAt hentry) hregister ((readDescriptor_holding hplace hfile _).mp hagain)
  refine ⟨_, editFile_holding hplace hentry hparse (insertDependency group artifact version), ?_⟩
  simp only [readDescriptor_holding hplace hfile]
  exact hmain

end Disk

/-! ## Two dependencies -/

/-- The place of a project with an element and an attribute of another namespace. -/
def mixedPom : Path := ⟨.working, ["pom.xml"]⟩

/-- A disk with that project. -/
def mixedDisk : Disk :=
  ⟨⟨[(mixedPom, .file (.text mixedText))]⟩, Prefixes.standard⟩

/-- A control character in a group leaves a file that is not read again. Line ends, blanks and
markup in a group are read back, and so are texts that are empty or blank. -/
theorem dependency_readable_iff_mixedDisk :
    (∃ added, addDependencyFile mixedPom "\x01" "a" "1" mixedDisk = .ok () added ∧
      ∀ read, readDescriptor mixedPom added ≠ .ok read added) ∧
    ∃ added read, addDependencyFile mixedPom " g\r\n<&>" "" " " mixedDisk = .ok () added ∧
      readDescriptor mixedPom added = .ok read added ∧
      dependencies read.root = [⟨some "g\n<&>", none, some ""⟩] := by
  have hplace : mixedDisk.files.resolve mixedPom = .ok mixedPom := rfl
  have hentry : Files.textAt (mixedDisk.files.get? mixedPom) = .ok mixedText :=
    congrArg Except.ok (unifyNewlines_of_not_mem (by unfold mixedText; simp))
  have htext : mixedDisk.files.readText mixedPom = .ok mixedText :=
    (Files.readText_of_resolve hplace).trans hentry
  have hread : (Descriptor.parse? mixedText).any (fun descriptor =>
      (Descriptor.parse? (Text.unifyNewlines (descriptor.serialize Prefixes.standard).1)).any
        fun again => (dependencies again.root).isEmpty) = true := by
    decide +kernel
  obtain ⟨descriptor, hparse, hrest⟩ := (Option.any_eq_true ..).mp hread
  obtain ⟨again, hagain, hnone⟩ := (Option.any_eq_true ..).mp hrest
  have hkept : editFile mixedPom (fun _ root => .ok root) mixedDisk
      = .ok () (mixedDisk.holding mixedPom (descriptor.serialize Prefixes.standard)) :=
    editFile_holding hplace hentry hparse fun _ root => root
  have hreadable := (readDescriptor_holding hplace rfl
    (descriptor.serialize Prefixes.standard)).mpr hagain
  have huntyped : mixedReading.declaresType = false := by decide +kernel
  refine ⟨?_, ?_⟩
  · obtain ⟨added, hadded, hiff, -⟩ := dependency_readable_iff htext mixedReading huntyped
      regular_standard hkept hreadable "\x01" "a" "1"
    refine ⟨added, hadded, fun read hread => ?_⟩
    exact absurd (hiff.mp ⟨read, hread⟩).1 (by decide)
  · obtain ⟨added, hadded, hiff, hlast⟩ := dependency_readable_iff htext mixedReading huntyped
      regular_standard hkept hreadable " g\r\n<&>" "" " "
    obtain ⟨read, hread⟩ := hiff.mpr (by decide)
    refine ⟨added, read, hadded, hread, (hlast read hread).trans ?_⟩
    rw [List.isEmpty_iff.mp hnone]
    decide +kernel

end Rollout.Pom
