import Rollout.Proofs.Files.Entries
import Rollout.Proofs.Pom.Names
import Rollout.Proofs.Pom.OnDisk
import Rollout.Proofs.Pom.Sequence
import Rollout.Proofs.Xml.LineEnds

/-!
# Namespaces that stay

A descriptor without a type declaration stays in its namespace however often it is read, edited and
written, so that the register of prefixes is the same before and after every edit but the first.

- `Settled`: a text that is read in one namespace, without a type declaration.
- `settled_serialize`: **what is written** of a settled text is settled again.
- `rewritten`: the text of a descriptor after an edit; `editFile_eq` says that an edit of a file is
  this and nothing else.
- `rewritten_settled`: **an edit of a settled text** does not depend on the register.
-/

namespace Rollout

namespace Xml

/-! ## Where a root is read -/

namespace Reading

variable {before fromRoot misc : List Char} {alone : Bool} {root : Node}

/-- Behind an XML declaration, comments and instructions the root begins where a start tag does. -/
theorem fromRoot_eq (r : Reading (before ++ fromRoot) root)
    (hmark : withoutMark (before ++ fromRoot) = before ++ fromRoot) (hmisc : Misc misc)
    (hdeclaration : scanDeclaration (before ++ fromRoot) = some (alone, misc ++ fromRoot))
    (hstart : atStartTag fromRoot = true) : r.declaresType = false ∧ r.fromRoot = fromRoot := by
  have hfirst := r.declaration
  rw [hmark, hdeclaration] at hfirst
  have hafter := (Prod.mk.inj (Option.some.inj hfirst)).2
  have hsecond := r.misc
  rw [← hafter, skipMisc_misc hmisc hstart] at hsecond
  have hroot := Option.some.inj hsecond
  have huntyped : r.declaresType = false := by
    unfold declaresType
    rw [← hroot]
    exact not_doctype_of_atStartTag hstart
  refine ⟨huntyped, ?_⟩
  have hlast := r.moreMisc
  rw [(r.dtd_eq_empty huntyped).2, ← hroot, skipMisc_of_atStartTag hstart] at hlast
  exact (Option.some.inj hlast).symm

/-- A text that begins with a start tag declares no type. -/
theorem untyped_of_atStartTag {text : List Char} (r : Reading text root)
    (hmark : withoutMark text = text) (hdeclaration : scanDeclaration text = some (alone, text))
    (hstart : atStartTag text = true) : r.declaresType = false :=
  (@fromRoot_eq [] text [] alone root r hmark .nil hdeclaration hstart).1

/-- The root that is read has the label of the element that its start tag opens. -/
theorem exists_openElement {text mid : List Char} (r : Reading text root)
    (huntyped : r.declaresType = false) {tag : StartTag}
    (hpiece : scanPiece r.fromRoot = some (.start tag, mid)) :
    ∃ scope, openElement Dtd.empty Scope.initial tag = some (scope, root.label) := by
  have hexpand := r.expand
  have hbuild := r.build
  rw [(r.dtd_eq_empty huntyped).1] at hexpand hbuild
  obtain ⟨hwhole, -⟩ := expandContent_empty.mp hexpand
  rw [hwhole] at hbuild
  exact label_of_scanRoot hpiece r.scan hbuild

end Reading

end Xml

namespace Pom

open Xml

/-! ## Settled texts -/

/-- A text that declares no type and has its root in the namespace, when it is read at all. -/
def Settled (space : String) (text : String) : Prop :=
  ∀ root (r : Xml.Reading text.toList root), r.declaresType = false ∧ spaceOf root = space

/-- A text without a type declaration is settled in the namespace of its root. -/
theorem settled_of_untyped {text : String} {root : Node} (r : Xml.Reading text.toList root)
    (huntyped : r.declaresType = false) : Settled (spaceOf root) text := by
  intro root' r'
  have hroot : root' = root := Option.some.inj
    ((nonempty_reading_iff.mp ⟨r'⟩).symm.trans (nonempty_reading_iff.mp ⟨r⟩))
  have hdeclaration := Option.some.inj (r'.declaration.symm.trans r.declaration)
  have hmisc := r'.misc
  rw [(Prod.mk.inj hdeclaration).2, r.misc] at hmisc
  refine ⟨?_, by rw [hroot]⟩
  unfold Xml.Reading.declaresType at huntyped ⊢
  rwa [← Option.some.inj hmisc]

/-- The register of a new process, or the one that writing a descriptor of the namespace leaves. -/
def KnownRegister (space : String) (register : Prefixes) : Prop :=
  register = Prefixes.standard ∨ register = Prefixes.held space

/-- Under a known register the namespace of the descriptor gets to hold the empty prefix. -/
theorem serialize_of_known {descriptor : Descriptor} {register : Prefixes}
    (h : KnownRegister descriptor.style.space register) :
    (descriptor.serialize register).2 = Prefixes.held descriptor.style.space ∧
      (descriptor.serialize register).1.toList = descriptor.prolog.toList
        ++ (writeRoot (Prefixes.held descriptor.style.space) descriptor.root
          ++ descriptor.epilog.toList) := by
  have hheld : descriptor.register register = Prefixes.held descriptor.style.space := by
    have hstandard : descriptor.register Prefixes.standard
      = Prefixes.held descriptor.style.space := rfl
    rcases h with rfl | rfl
    · exact hstandard
    · rw [← hstandard, register_register]
  refine ⟨hheld, ?_⟩
  unfold Descriptor.serialize
  rw [hheld, String.toList_ofList, List.append_assoc]

section Written

variable {space text : String} {descriptor : Descriptor}

/-- A text is settled when the start tag of a written root stands where its root begins. -/
theorem settled_of_rootTag {before again misc : List Char} {alone closed : Bool}
    {assigned : Prefixes} {name : QName} {attributes : Attributes}
    (hchosen : ∀ entry ∈ assigned, Chosen space assigned.length entry)
    (hcovered : Covered space assigned name) (hname : name.space = space)
    (hspelling : Spelling name attributes) (hmisc : Misc misc)
    (htext : text.toList = before ++ (rootTagText space assigned name attributes closed ++ again))
    (hmark : withoutMark text.toList = text.toList)
    (hdeclaration : scanDeclaration text.toList
      = some (alone, misc ++ (rootTagText space assigned name attributes closed ++ again))) :
    Settled space text := by
  unfold Settled
  rw [htext] at hmark hdeclaration ⊢
  intro root r
  have hstart := atStartTag_rootTagText hchosen hspelling closed again
  obtain ⟨huntyped, hroot⟩ := r.fromRoot_eq hmark hmisc hdeclaration hstart
  refine ⟨huntyped, ?_⟩
  have hpiece := scanPiece_rootTagText hchosen hspelling closed again
  rw [← hroot] at hpiece
  obtain ⟨scope, hopened⟩ := r.exists_openElement huntyped hpiece
  obtain ⟨read, entries, hlabel, hspace⟩ :=
    space_of_openElement hchosen hcovered hname hspelling hopened
  unfold spaceOf Node.name?
  rw [hlabel]
  exact hspace

/-- What a descriptor keeps of a settled text. -/
theorem parts_of_settled (h : Descriptor.parse? text = some descriptor)
    (hsettled : Settled space text) :
    ∃ r : Xml.Reading text.toList descriptor.root, r.declaresType = false ∧
      descriptor.style.space = space ∧ spaceOf descriptor.root = space ∧
      descriptor.prolog.toList = (splitProlog text.toList).1 := by
  obtain ⟨root, hread, -⟩ := Option.bind_eq_some_iff.mp h
  obtain ⟨r⟩ := nonempty_reading_iff.mpr hread
  obtain ⟨huntyped, hspace⟩ := hsettled root r
  obtain rfl := eq_of_reading r h huntyped
  exact ⟨r, huntyped, hspace, hspace, String.toList_ofList⟩

/-- **What is written** of a settled text, with a root of the same label, is settled again. -/
theorem settled_serialize (h : Descriptor.parse? text = some descriptor)
    (hsettled : Settled space text) (hunified : '\r' ∉ text.toList) {root : Node}
    (hlabel : root.label = descriptor.root.label) {register : Prefixes}
    (hregister : KnownRegister space register) :
    Settled space (Text.unifyNewlines
      (({ descriptor with root := root } : Descriptor).serialize register).1) := by
  obtain ⟨r, huntyped, hstyle, hspace, hkept⟩ := parts_of_settled h hsettled
  obtain ⟨hroot, hsound⟩ := r.sound huntyped
  obtain ⟨name, attributes, content, children, hparts⟩ := hroot
  have hdescriptor : descriptor.root.label = .element name attributes := by rw [hparts]
  have hname : name.space = space :=
    (space_of_name? (by unfold Node.name?; rw [hdescriptor]; rfl)).trans hspace
  have hspelling := (hsound.here.named hdescriptor).spelling
  have hlabel := hlabel.trans hdescriptor
  have hchosen := chosen_assign space root
  have hcovered := covered_root hlabel space
  obtain ⟨closed, rest, hwritten⟩ := exists_rootTag hlabel space
  -- the text is what was kept before the root, the start tag of the root, and some rest
  have hserialized := (@serialize_of_known { descriptor with root := root } register
    (hstyle.symm ▸ hregister)).2
  dsimp only at hserialized
  rw [hstyle, hkept, hwritten, List.append_assoc] at hserialized
  obtain ⟨-, misc, hmisc, hroots⟩ := exists_prolog huntyped
  have hprolog : '\r' ∉ (splitProlog text.toList).1 := fun hmem =>
    hunified (List.mem_of_mem_take hmem)
  have htag := return_not_mem_rootTagText hchosen hspelling closed
  have htext := String.toList_ofList.trans (congrArg Text.unifyNewlineChars hserialized)
  rw [unifyNewlineChars_append_of_not_mem hprolog,
    unifyNewlineChars_append_of_not_mem htag] at htext
  have hstart := atStartTag_rootTagText hchosen hspelling closed
  obtain ⟨hmark, alone, hdeclaration⟩ := hroots _ (hstart _)
  rw [← htext] at hmark
  exact settled_of_rootTag hchosen hcovered hname hspelling hmisc htext hmark
    ((congrArg scanDeclaration htext).trans hdeclaration)

end Written

/-! ## Edits -/

/-- The text of a descriptor after an edit, with the register of prefixes that writing it leaves. -/
def rewritten (edit : Style → Node → Except Failure Node) (register : Prefixes) (text : String) :
    Except Failure (String × Prefixes) :=
  match Descriptor.parse? text with
  | none => .error .malformedDescriptor
  | some descriptor =>
    (edit descriptor.style descriptor.root).map fun root =>
      ({ descriptor with root := root } : Descriptor).serialize register

/-- An edit keeps the label of the root. -/
def KeepsRoot (edit : Style → Node → Except Failure Node) : Prop :=
  ∀ style project after, edit style project = .ok after → after.label = project.label

theorem readDescriptor_eq {pom place : Path} {disk : Disk}
    (hplace : disk.files.resolve pom = .ok place) :
    readDescriptor pom disk =
      match Files.textAt (disk.files.get? place) with
      | .ok text =>
        match Descriptor.parse? text with
        | some descriptor => .ok descriptor disk
        | none => .error .malformedDescriptor disk
      | .error failure => .error failure disk := by
  unfold readDescriptor Disk.reading
  dsimp only
  rw [Files.readText_of_resolve hplace]
  cases Files.textAt (disk.files.get? place) with
  | error failure => rfl
  | ok text =>
    simp only [bind, Except.bind]
    cases Descriptor.parse? text <;> rfl

/-- **An edit of a file** rewrites its text, and changes nothing when it fails. -/
theorem editFile_eq {pom place : Path} {disk : Disk} (hplace : disk.files.resolve pom = .ok place)
    (edit : Style → Node → Except Failure Node) :
    editFile pom edit disk =
      match (Files.textAt (disk.files.get? place)).bind (rewritten edit disk.register) with
      | .ok written => .ok () (disk.holding place written)
      | .error failure => .error failure disk := by
  show EStateM.bind (readDescriptor pom) _ disk = _
  unfold EStateM.bind
  rw [readDescriptor_eq hplace]
  cases htext : Files.textAt (disk.files.get? place) with
  | error failure => rfl
  | ok text =>
    unfold Except.bind rewritten
    dsimp only
    cases Descriptor.parse? text with
    | none => rfl
    | some descriptor =>
      dsimp only
      cases edit descriptor.style descriptor.root with
      | error failure => rfl
      | ok root => exact changing_of_ok (Files.writeText_of_resolve hplace htext _)

/-- **An edit of a settled text** does not depend on the register, and what it writes is settled. -/
theorem rewritten_settled {edit : Style → Node → Except Failure Node} (hedit : KeepsRoot edit)
    {space text : String} (hsettled : Settled space text) (hunified : '\r' ∉ text.toList)
    {register : Prefixes} (hregister : KnownRegister space register) :
    rewritten edit register text = rewritten edit Prefixes.standard text ∧
      ∀ written, rewritten edit register text = .ok written →
        written.2 = Prefixes.held space ∧ Settled space (Text.unifyNewlines written.1) := by
  unfold rewritten
  cases hparse : Descriptor.parse? text with
  | none => exact ⟨rfl, nofun⟩
  | some descriptor =>
    -- the results are compared once nothing but the written texts is left of them
    dsimp only
    unfold Except.map
    cases hafter : edit descriptor.style descriptor.root with
    | error failure => exact ⟨rfl, nofun⟩
    | ok root =>
      obtain ⟨-, -, hstyle, -, -⟩ := parts_of_settled hparse hsettled
      have hknown : ∀ {register}, KnownRegister space register →
          KnownRegister ({ descriptor with root := root } : Descriptor).style.space register :=
        fun h => hstyle.symm ▸ h
      have hserialize := serialize_of_known (hknown hregister)
      have hstandard := serialize_of_known (hknown (.inl rfl))
      refine ⟨congrArg Except.ok (Prod.ext ?_ ?_), ?_⟩
      · exact String.toList_inj.mp (hserialize.2.trans hstandard.2.symm)
      · exact hserialize.1.trans hstandard.1.symm
      · rintro written hwritten
        obtain rfl : _ = written := Except.ok.inj hwritten
        exact ⟨hserialize.1.trans (congrArg Prefixes.held hstyle),
          settled_serialize hparse hsettled hunified (hedit _ _ _ hafter) hregister⟩

end Pom

end Rollout
