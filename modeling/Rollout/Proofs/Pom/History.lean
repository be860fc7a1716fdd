import Mathlib.Data.List.Induction
import Rollout.Proofs.Files.Entries
import Rollout.Proofs.Pom.RoundTrip
import Rollout.Proofs.Xml.Registers

/-!
# What earlier documents change

The register of prefixes outlives a document. A descriptor that is written in a process where others
were written before may get other prefixes than in a new process.

- `registerAfter`: the register after descriptors were written; `lookup_registerAfter` says what is
  left of it.
- `Lost`: a namespace whose prefix is another one than in a new process.
- `serialize_after_iff`: **the text of a descriptor is that of a new process** exactly when no name
  of it is in a namespace that is lost.

A document in a namespace loses the prefixes from the start that earlier documents took for theirs.
A document in no namespace has, besides, the names in the namespace of the document before it
written without a prefix.
-/

namespace Rollout.Xml

/-! ## The root of a document -/

/-- The open nodes and the root are elements. -/
structure Growth.Named (growth : Growth) : Prop where
  frames : ∀ frame ∈ growth.frames, frame.node.name?.isSome = true
  root : ∀ root ∈ growth.root, root.name?.isSome = true

theorem named_place {node : Node} {frames : List Frame}
    (hframes : ∀ frame ∈ frames, frame.node.name?.isSome = true)
    (hnode : frames = [] → node.name?.isSome = true) : (Growth.place node frames).Named := by
  cases frames with
  | nil =>
    refine ⟨nofun, ?_⟩
    rintro _ ⟨⟩
    exact hnode rfl
  | cons frame frames =>
    obtain ⟨hframe, hothers⟩ := List.forall_mem_cons.mp hframes
    exact ⟨List.forall_mem_cons.mpr ⟨hframe, hothers⟩, nofun⟩

theorem named_of_grow {dtd : Dtd} {growth growth' : Growth} {piece : Piece} (h : growth.Named)
    (hgrow : grow dtd growth piece = some growth') : growth'.Named := by
  obtain ⟨frames, root⟩ := growth
  have hframes := h.frames
  cases piece with
  | start tag =>
    obtain ⟨⟨scope, label⟩, hopened, hread⟩ := Option.bind_eq_some_iff.mp hgrow
    obtain ⟨-, attributes, name, -, -, -, -, -, -, rfl⟩ := openElement_eq_some.mp hopened
    dsimp only at hread
    split at hread
    case isTrue =>
      cases hread
      exact named_place hframes fun _ => rfl
    case isFalse =>
      cases hread
      exact ⟨List.forall_mem_cons.mpr ⟨rfl, hframes⟩, nofun⟩
  | finish name =>
    obtain _ | ⟨frame, frames⟩ := frames
    · cases hgrow
    obtain ⟨hframe, hothers⟩ := List.forall_mem_cons.mp hframes
    dsimp only [grow] at hgrow
    split at hgrow
    case isTrue =>
      cases hgrow
      exact named_place hothers fun _ => hframe
    case isFalse => cases hgrow
  | text cs =>
    obtain _ | ⟨frame, frames⟩ := frames
    · cases hgrow
    obtain ⟨hframe, hothers⟩ := List.forall_mem_cons.mp hframes
    cases hgrow
    have hnamed : (frame.node.addText cs).name? = frame.node.name? := by
      unfold Node.addText
      split <;> rfl
    exact ⟨List.forall_mem_cons.mpr ⟨(congrArg Option.isSome hnamed).trans hframe, hothers⟩, nofun⟩
  | comment cs =>
    obtain _ | ⟨frame, frames⟩ := frames
    · cases hgrow
    cases hgrow
    exact named_place hframes nofun
  | instruction target data =>
    obtain _ | ⟨frame, frames⟩ := frames
    · cases hgrow
    cases hgrow
    exact named_place hframes nofun
  | entity name => cases hgrow

/-- **The root of a document** is an element. -/
theorem isSome_name?_of_buildTree {dtd : Dtd} {pieces : List Piece} {root : Node}
    (h : buildTree dtd pieces = some root) : root.name?.isSome = true := by
  have hfold : ∀ (pieces : List Piece) (growth growth' : Growth), growth.Named →
      pieces.foldlM (grow dtd) growth = some growth' → growth'.Named := by
    intro pieces
    induction pieces with
    | nil =>
      intro growth growth' hnamed hgrow
      cases hgrow
      exact hnamed
    | cons piece pieces ih =>
      intro growth growth' hnamed hgrow
      rw [List.foldlM_cons] at hgrow
      obtain ⟨next, hnext, hrest⟩ := Option.bind_eq_some_iff.mp hgrow
      exact ih next growth' (named_of_grow hnamed hnext) hrest
  obtain ⟨growth, hgrow, hroot⟩ := Option.bind_eq_some_iff.mp h
  exact (hfold pieces ⟨[], none⟩ growth ⟨nofun, nofun⟩ hgrow).root root hroot

end Rollout.Xml

namespace Rollout.Pom

open Xml

theorem exists_label_of_parse? {text : String} {descriptor : Descriptor}
    (h : Descriptor.parse? text = some descriptor) :
    ∃ name attributes, descriptor.root.label = .element name attributes ∧
      name.space = descriptor.style.space := by
  obtain ⟨root, hread, hdescriptor⟩ := Option.bind_eq_some_iff.mp h
  obtain ⟨r⟩ := nonempty_reading_iff.mpr hread
  obtain ⟨name, hname⟩ := Option.isSome_iff_exists.mp (isSome_name?_of_buildTree r.build)
  have hlabel : ∃ attributes, root.label = .element name attributes := by
    unfold Node.name? at hname
    cases hroot : root.label with
    | element other attributes =>
      rw [hroot] at hname
      cases hname
      exact ⟨attributes, rfl⟩
    | comment | instruction =>
      rw [hroot] at hname
      cases hname
  obtain ⟨attributes, hlabel⟩ := hlabel
  cases hdescriptor
  exact ⟨name, attributes, hlabel, space_of_name? hname⟩

/-! ## The register after earlier documents -/

/-- The namespaces that documents are in, without those that are in none. -/
def spacesOf (history : List Descriptor) : List String :=
  (history.map fun earlier => earlier.style.space).filter (· ≠ "")

/-- The register after descriptors were written in a row, in a process that was new. -/
def registerAfter (history : List Descriptor) : Prefixes :=
  history.foldl (fun register earlier => (earlier.serialize register).2) Prefixes.standard

section History

variable {history : List Descriptor} {descriptor : Descriptor} {space : String}

theorem registerAfter_append (history : List Descriptor) (descriptor : Descriptor) :
    registerAfter (history ++ [descriptor]) = descriptor.register (registerAfter history) := by
  unfold registerAfter
  rw [List.foldl_append]
  rfl

theorem spacesOf_append (history : List Descriptor) (descriptor : Descriptor) :
    spacesOf (history ++ [descriptor])
      = spacesOf history ++ (if descriptor.style.space = "" then [] else [descriptor.style.space])
    := by
  unfold spacesOf
  rw [List.map_append, List.filter_append]
  refine congrArg _ ?_
  by_cases hspace : descriptor.style.space = "" <;> simp [hspace]

theorem not_mem_spacesOf (history : List Descriptor) : "" ∉ spacesOf history := by
  intro hmem
  exact absurd rfl (of_decide_eq_true (List.mem_filter.mp hmem).2)

theorem registerAfter_of_empty (h : descriptor.style.space = "") (history : List Descriptor) :
    registerAfter (history ++ [descriptor]) = registerAfter history := by
  rw [registerAfter_append]
  unfold Descriptor.register
  rw [h]
  rfl

theorem registerAfter_of_ne (h : descriptor.style.space ≠ "") (history : List Descriptor) :
    registerAfter (history ++ [descriptor])
      = (registerAfter history).holdDefault descriptor.style.space := by
  have hempty : ¬ descriptor.style.space.isEmpty = true := by simpa using h
  rw [registerAfter_append]
  unfold Descriptor.register
  rw [if_neg hempty]

/-- A register that documents leave is a regular one. -/
theorem regular_registerAfter (history : List Descriptor) : (registerAfter history).Regular := by
  induction history using List.reverseRecOn with
  | nil => exact regular_standard
  | append_singleton history descriptor ih =>
    by_cases hspace : descriptor.style.space = ""
    · rwa [registerAfter_of_empty hspace]
    · rw [registerAfter_of_ne hspace]
      exact ih.holdDefault _

/-- The prefixes from the start that no document took, and the empty one for the last document. -/
theorem registerAfter_eq (history : List Descriptor) :
    registerAfter history
      = Prefixes.standard.filter (fun entry => !(spacesOf history).contains entry.1)
        ++ (spacesOf history).getLast?.toList.map (·, "") := by
  induction history using List.reverseRecOn with
  | nil => rfl
  | append_singleton history descriptor ih =>
    by_cases hspace : descriptor.style.space = ""
    · rw [registerAfter_of_empty hspace, ih, spacesOf_append, if_pos hspace, List.append_nil]
    · -- what held the empty prefix loses it
      have hlast : ((spacesOf history).getLast?.toList.map (·, "")).filter
          (fun entry : String × String =>
            entry.1 != descriptor.style.space && entry.2 != "") = [] := by
        simp
      have hstandard : ∀ entry ∈ Prefixes.standard, entry.2 ≠ "" := by decide
      rw [registerAfter_of_ne hspace, ih, spacesOf_append, if_neg hspace, List.getLast?_concat]
      unfold Prefixes.holdDefault
      rw [List.filter_append, hlast, List.append_nil, List.filter_filter]
      refine congrArg (· ++ _) (List.filter_congr fun entry hentry => ?_)
      rw [Bool.eq_iff_iff]
      simp [hstandard entry hentry, and_comm]

/-- **What is left of the register.** -/
theorem lookup_registerAfter (history : List Descriptor) (space : String) :
    (registerAfter history).lookup space
      = if (spacesOf history).getLast? = some space then some ""
        else if space ∈ spacesOf history then none
        else Prefixes.standard.lookup space := by
  have hkept : (Prefixes.standard.filter
        fun entry => !(spacesOf history).contains entry.1).lookup space
      = if space ∈ spacesOf history then none else Prefixes.standard.lookup space := by
    rw [Files.lookup_filter fun key => !(spacesOf history).contains key]
    by_cases hmem : space ∈ spacesOf history <;> simp [hmem]
  rw [registerAfter_eq, List.lookup_append, hkept]
  cases hlast : (spacesOf history).getLast? with
  | none =>
    have hnil : spacesOf history = [] := List.getLast?_eq_none_iff.mp hlast
    simp [hnil]
  | some last =>
    have hmem : last ∈ spacesOf history := List.mem_of_getLast? hlast
    by_cases hspace : last = space
    · subst hspace
      simp [hmem]
    · have hne : (space == last) = false := beq_eq_false_iff_ne.mpr (Ne.symm hspace)
      simp [hspace, hne]

/-! ## Namespaces that are lost -/

/-- A namespace that gets another prefix than in a new process, in a document of the namespace
`space`: an earlier document took it, so that the prefix it has from the start is gone, or the last
one did and left it the empty prefix. -/
def Lost (history : List Descriptor) (space other : String) : Prop :=
  other ≠ space ∧
    ((Prefixes.standard.lookup other).isSome = true ∧ other ∈ spacesOf history ∨
      space = "" ∧ (spacesOf history).getLast? = some other)

theorem not_lost_empty (history : List Descriptor) (space : String) : ¬ Lost history space "" := by
  rintro ⟨-, ⟨-, hmem⟩ | ⟨-, hlast⟩⟩
  · exact not_mem_spacesOf history hmem
  · exact not_mem_spacesOf history (List.mem_of_getLast? hlast)

/-- **The prefixes that differ** are those of lost namespaces. -/
theorem lookup_registerAfter_eq_iff (history : List Descriptor) (descriptor : Descriptor)
    (other : String) :
    (registerAfter (history ++ [descriptor])).lookup other
        = (registerAfter [descriptor]).lookup other ↔
      ¬ Lost history descriptor.style.space other := by
  have hstandard : Prefixes.standard.lookup other ≠ some "" := fun hempty =>
    absurd (mem_of_lookup hempty) (by simp [Prefixes.standard])
  have hsingle : spacesOf [descriptor]
      = if descriptor.style.space = "" then [] else [descriptor.style.space] := by
    by_cases hspace : descriptor.style.space = "" <;> simp [spacesOf, hspace]
  rw [lookup_registerAfter, lookup_registerAfter, spacesOf_append, hsingle]
  unfold Lost
  generalize Prefixes.standard.lookup other = known at hstandard ⊢
  have hne : other ∈ spacesOf history → other ≠ "" := fun hmem heq =>
    not_mem_spacesOf history (heq ▸ hmem)
  by_cases hspace : descriptor.style.space = ""
  · -- the document leaves the register as it is
    rw [hspace, if_pos rfl, List.append_nil]
    by_cases hlast : (spacesOf history).getLast? = some other
    · have hmem := List.mem_of_getLast? hlast
      simp [hlast, hne hmem, Ne.symm hstandard]
    · by_cases hmem : other ∈ spacesOf history
      · simp [hlast, hmem, hne hmem, @eq_comm _ none known]
      · simp [hlast, hmem]
  · -- the document takes the empty prefix
    rw [if_neg hspace, List.getLast?_concat]
    by_cases hother : other = descriptor.style.space
    · simp [hother]
    · have hother' : ¬ descriptor.style.space = other := Ne.symm hother
      by_cases hmem : other ∈ spacesOf history <;>
        simp [hspace, hother, hother', hmem, @eq_comm _ none known]

end History

/-! ## Main statement -/

/-- **The text of a descriptor after earlier ones** is that of a new process exactly when no name of
the descriptor is in a lost namespace. -/
theorem serialize_after_iff {text : String} {descriptor : Descriptor}
    (h : Descriptor.parse? text = some descriptor) (history : List Descriptor) :
    (descriptor.serialize (registerAfter history)).1
        = (descriptor.serialize Prefixes.standard).1 ↔
      ∀ name ∈ descriptor.root.names, ¬ Lost history descriptor.style.space name.space := by
  obtain ⟨name, attributes, hlabel, hspace⟩ := exists_label_of_parse? h
  have hown : ∀ earlier : List Descriptor,
      OwnsPrefix (registerAfter (earlier ++ [descriptor])) name := by
    intro earlier
    by_cases hempty : name.space = ""
    · exact .inl hempty
    · rw [OwnsPrefix, registerAfter_of_ne (hspace ▸ hempty), hspace]
      exact .inr (lookup_holdDefault_self ..)
  have htext : (descriptor.serialize (registerAfter history)).1
        = (descriptor.serialize Prefixes.standard).1 ↔
      writeRoot (registerAfter (history ++ [descriptor])) descriptor.root
        = writeRoot (registerAfter [descriptor]) descriptor.root := by
    rw [registerAfter_append]
    show String.ofList (_ ++ writeRoot _ _ ++ _) = String.ofList (_ ++ writeRoot _ _ ++ _) ↔ _
    rw [String.ofList_inj, List.append_cancel_right_eq, List.append_cancel_left_eq]
    rfl
  have hfresh : OwnsPrefix (registerAfter [descriptor]) name := hown []
  rw [htext, writeRoot_eq_iff (regular_registerAfter _) (regular_registerAfter _) hlabel
    (hown history) hfresh]
  refine forall₂_congr fun other _ => ?_
  rw [lookup_registerAfter_eq_iff]
  by_cases hempty : other.space = ""
  · rw [hempty]
    exact iff_of_true (fun hne => absurd rfl hne) (not_lost_empty _ _)
  · exact ⟨fun hlost => hlost hempty, fun hlost _ => hlost⟩

/-! ## A namespace that two documents use -/

/-- A project in a namespace. -/
def ownText : String := "<project xmlns=\"urn:a\"/>"

/-- That project as it is read. -/
def ownProject : Descriptor :=
  ⟨Node.element ⟨"urn:a", "project"⟩ none [], ⟨"urn:a", defaultIndent⟩, "", ""⟩

/-- A project in no namespace, with an element in the namespace of the other one. -/
def guestText : String := "<project xmlns:p=\"urn:a\"><p:x/></project>"

/-- That project as it is read. -/
def guestProject : Descriptor :=
  ⟨Node.element ⟨"", "project"⟩ none [Node.element ⟨"urn:a", "x"⟩ none []], ⟨"", defaultIndent⟩, "",
    ""⟩

set_option maxRecDepth 8000 in
/-- Once the project in the namespace was written, the other one gets another text. -/
theorem serialize_after_iff_guestProject :
    Descriptor.parse? ownText = some ownProject ∧
    Descriptor.parse? guestText = some guestProject ∧
    (guestProject.serialize (registerAfter [ownProject])).1
      ≠ (guestProject.serialize Prefixes.standard).1 := by
  have hguest : Descriptor.parse? guestText = some guestProject := rfl
  refine ⟨rfl, hguest, fun hsame => ?_⟩
  have hkept := (serialize_after_iff hguest [ownProject]).mp hsame
  have hname : (⟨"urn:a", "x"⟩ : QName) ∈ guestProject.root.names := by decide
  exact hkept _ hname ⟨by decide, .inr ⟨rfl, rfl⟩⟩

end Rollout.Pom
