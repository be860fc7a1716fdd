import Rollout.Proofs.Pom.RoundTrip
import Rollout.Proofs.Pom.Seen
import Rollout.Proofs.Xml.Gaps

/-!
# Comments and instructions in descriptors

A descriptor with a comment or an instruction put into its root is read, and its views are those of
the descriptor without it, but for the one text that is parted: an element has the text in front of
its first child, and a comment is a child.

- `projectView_inserted`: **the views** of the descriptor with a comment or an instruction.
-/

namespace Rollout.Pom

open Xml

/-- A document that is read is a descriptor. -/
theorem exists_parse? {text : List Char} {root : Node} (r : Xml.Reading text root) :
    ∃ descriptor, Descriptor.parse? (String.ofList text) = some descriptor ∧
      descriptor.root = { root with tail := none } := by
  have hread : readDocument? (String.ofList text) = some root := by
    refine nonempty_reading_iff.mp ?_
    rw [String.toList_ofList]
    exact ⟨r⟩
  unfold Descriptor.parse?
  rw [hread]
  exact ⟨_, rfl, rfl⟩

/-- **The views of a descriptor** with a comment or an instruction, at any place of its root, are
those of the descriptor where the one text that is parted ends at that place. They are those of the
descriptor without it when the text loses but blanks, and wherever no text of an element is parted:
behind a child, and in front of a tag, a comment or an instruction. -/
theorem projectView_inserted {text : List Char} {root : Node} (r : Xml.Reading text root)
    {front mark back : List Char} {node : Node} (hremark : Remark mark node) (hgap : Gap front back)
    (hroot : front ++ back = r.fromRoot) :
    ∃ before after whole part cut, Descriptor.parse? (String.ofList text) = some before ∧
      Descriptor.parse? (String.ofList (r.before ++ (front ++ (mark ++ back)))) = some after ∧
      Inserted node whole part before.root after.root ∧ Shortened whole part before.root cut ∧
      projectView after.root = projectView cut ∧
      (part.map Text.strip = whole.map Text.strip ∨ ChildLast front back ∨ MarkupFirst back →
        projectView after.root = projectView before.root) := by
  obtain ⟨marked, whole, part, ⟨r'⟩, hinserted, hquiet⟩ := r.exists_inserted hremark hgap hroot
  obtain ⟨before, hbefore, hbare⟩ := exists_parse? r
  obtain ⟨after, hafter, hbare'⟩ := exists_parse? r'
  obtain ⟨piece, -, hpiece⟩ := hremark.scan
  have hroots : Inserted node whole part before.root after.root := by
    rw [hbare, hbare']
    exact hinserted.withTail none
  obtain ⟨cut, hcut, hviews, hsame⟩ := exists_projectView_eq (name?_of_remark? hpiece) hroots
  refine ⟨before, after, whole, part, cut, hbefore, hafter, hroots, hcut, hviews, fun hplace => ?_⟩
  rcases hplace with hstrip | hplace
  · exact hsame hstrip
  · exact hsame (by rw [hquiet hplace])

/-! ## A version with a comment -/

/-- A comment as it is written, and its node. -/
theorem remark_and : Remark "<!-- and -->".toList ⟨.comment, some " and ", [], none⟩ :=
  ⟨by decide, .comment " and ".toList, by decide +kernel, rfl⟩

/-- A comment may stand in the text of the version. -/
theorem gap_inside_version : Gap "<p:project xmlns:p=\"u\"><p:version>1".toList
    " &#38; 2</p:version></p:project>\n".toList := by
  have hproject : scanPiece ("<p:project xmlns:p=\"u\"><p:version>1".toList
      ++ " &#38; 2</p:version></p:project>\n".toList)
      = some (.start ⟨⟨['p'], "project".toList⟩, [(⟨"xmlns".toList, ['p']⟩, ['u'])], false⟩,
        "<p:version>1 &#38; 2</p:version></p:project>\n".toList) := by decide +kernel
  have hversion : scanPiece "<p:version>1 &#38; 2</p:version></p:project>\n".toList
      = some (.start ⟨⟨['p'], "version".toList⟩, [], false⟩,
        ['1'] ++ " &#38; 2</p:version></p:project>\n".toList) := by decide +kernel
  exact ⟨_, 1, ['1'], .step hproject rfl (.step hversion rfl .refl), List.all_eq_true.mp rfl⟩

/-- A comment may stand behind the text of the version. -/
theorem gap_behind_version : Gap "<p:project xmlns:p=\"u\"><p:version>1 &#38; 2".toList
    "</p:version></p:project>\n".toList := by
  have hproject : scanPiece ("<p:project xmlns:p=\"u\"><p:version>1 &#38; 2".toList
      ++ "</p:version></p:project>\n".toList)
      = some (.start ⟨⟨['p'], "project".toList⟩, [(⟨"xmlns".toList, ['p']⟩, ['u'])], false⟩,
        "<p:version>1 &#38; 2</p:version></p:project>\n".toList) := by decide +kernel
  have hversion : scanPiece "<p:version>1 &#38; 2</p:version></p:project>\n".toList
      = some (.start ⟨⟨['p'], "version".toList⟩, [], false⟩,
        "1 &#38; 2</p:version></p:project>\n".toList) := by decide +kernel
  have hfront : scanPiece "1 &#38; 2</p:version></p:project>\n".toList
      = some (.text ['1', ' '], "&#38; 2</p:version></p:project>\n".toList) := by decide +kernel
  have hsign : scanPiece "&#38; 2</p:version></p:project>\n".toList
      = some (.text ['&'], [' ', '2'] ++ "</p:version></p:project>\n".toList) := by decide +kernel
  exact ⟨_, 1, [' ', '2'], .step hproject rfl (.step hversion rfl (.step hfront rfl
    (.step hsign rfl .refl))), List.all_eq_true.mp rfl⟩

/-- **A comment in the text of the version** parts it, so that another version is read; one behind
the text does not. -/
theorem projectView_inserted_prefixed :
    let parsed (front back : String) : Option Descriptor :=
      Descriptor.parse? (String.ofList (front.toList ++ ("<!-- and -->".toList ++ back.toList)))
    version prefixedProject.root = some "1 & 2" ∧
    (∃ after whole part cut, parsed "<p:project xmlns:p=\"u\"><p:version>1"
        " &#38; 2</p:version></p:project>\n" = some after ∧ version after.root = some "1" ∧
      Shortened whole part prefixedProject.root cut ∧ projectView after.root = projectView cut) ∧
    ∃ after, parsed "<p:project xmlns:p=\"u\"><p:version>1 &#38; 2"
        "</p:version></p:project>\n" = some after ∧
      projectView after.root = projectView prefixedProject.root := by
  intro parsed
  obtain ⟨prefixed, hparse, hroot⟩ := exists_parse? prefixedReading
  have hend : MarkupFirst "</p:version></p:project>\n".toList :=
    ⟨.finish ⟨['p'], "version".toList⟩, "</p:project>\n".toList, by decide +kernel, nofun, nofun⟩
  refine ⟨by decide +kernel, ?_, ?_⟩
  · obtain ⟨before, after, whole, part, cut, hbefore, hafter, -, hcut, hviews, -⟩ :=
      projectView_inserted prefixedReading remark_and gap_inside_version (by decide +kernel)
    have hversion : (parsed "<p:project xmlns:p=\"u\"><p:version>1"
        " &#38; 2</p:version></p:project>\n").bind (fun descriptor => version descriptor.root)
          = some "1" := by decide +kernel
    obtain rfl : prefixed = before := Option.some.inj (hparse.symm.trans hbefore)
    rw [hroot] at hcut
    refine ⟨after, whole, part, cut, hafter, ?_, hcut, hviews⟩
    rw [← hversion]
    exact (congrArg (Option.bind · fun descriptor => version descriptor.root) hafter).symm
  · obtain ⟨before, after, whole, part, cut, hbefore, hafter, -, -, -, hsame⟩ :=
      projectView_inserted prefixedReading remark_and gap_behind_version (by decide +kernel)
    obtain rfl : prefixed = before := Option.some.inj (hparse.symm.trans hbefore)
    rw [hroot] at hsame
    exact ⟨after, hafter, hsame (.inr (.inr hend))⟩

end Rollout.Pom
