import Rollout.Pom.OnDisk
import Rollout.Proofs.Files.Entries

/-!
# Edits of files

An edit of a file reads, edits and writes. What can be read can be written, so that the only
failures of an edit are those of reading and of the edit itself.

- `Disk.holding`: the disk once a serialized descriptor is written.
- `readDescriptor_eq_ok`: when a descriptor is read, and that reading changes nothing.
- `editFile_run`, `pinFile_run`: what an edit and a pin of a file that can be read do.
-/

namespace Rollout

/-- The disk with a text at a place, and with the register of prefixes that writing it left. -/
def Disk.holding (place : Path) (written : String × Xml.Prefixes) (disk : Disk) : Disk :=
  ⟨disk.files.put place (.file (.text written.1)), written.2⟩

namespace Pom

open Disk

/-- A file that was read can be written. -/
theorem writeText_of_readText {files : Files} {path : Path} {old : String}
    (h : files.readText path = .ok old) (text : String) :
    ∃ place, Files.writeText path text files = .ok (files.put place (.file (.text text))) := by
  -- reading and writing go through the same links to the same place
  obtain ⟨place, -, hplace, -, hold⟩ := Files.exists_place h
  exact ⟨place, Files.writeText_of_resolve hplace hold text⟩

/-- A descriptor is read where the file holds the text of one; the disk stays as it is. -/
theorem readDescriptor_eq_ok {pom : Path} {disk disk' : Disk} {descriptor : Descriptor} :
    readDescriptor pom disk = .ok descriptor disk' ↔
      disk' = disk ∧ ∃ text, disk.files.readText pom = .ok text ∧
        Descriptor.parse? text = some descriptor := by
  unfold readDescriptor reading
  cases hread : disk.files.readText pom with
  | error failure => simp [bind, Except.bind, hread]
  | ok text =>
    cases hparse : Descriptor.parse? text with
    | none => simp [bind, Except.bind, hread, hparse]
    | some parsed =>
      simp only [bind, Except.bind, hread, hparse, EStateM.Result.ok.injEq, Except.ok.injEq]
      constructor
      · rintro ⟨rfl, rfl⟩
        exact ⟨rfl, text, rfl, hparse⟩
      · rintro ⟨rfl, other, rfl, hother⟩
        rw [hparse] at hother
        exact ⟨Option.some.inj hother, rfl⟩

theorem changing_of_ok {change : Files → Except FileProblem Files} {disk : Disk} {files : Files}
    (h : change disk.files = .ok files) :
    changing change disk = .ok () { disk with files := files } := by
  unfold changing
  rw [h]

/-- **An edit of a file**: what the edit makes of the descriptor is written. -/
theorem editFile_run {pom : Path} {disk : Disk} {descriptor : Descriptor} {root : Xml.Node}
    {edit : Style → Xml.Node → Except Failure Xml.Node}
    (hread : readDescriptor pom disk = .ok descriptor disk)
    (hedit : edit descriptor.style descriptor.root = .ok root) :
    ∃ place, editFile pom edit disk
      = .ok () (disk.holding place
          (({ descriptor with root := root } : Descriptor).serialize disk.register)) := by
  obtain ⟨-, text, htext, -⟩ := readDescriptor_eq_ok.mp hread
  obtain ⟨place, hwrite⟩ := writeText_of_readText htext
    (({ descriptor with root := root } : Descriptor).serialize disk.register).1
  refine ⟨place, ?_⟩
  show EStateM.bind (readDescriptor pom) _ disk = _
  unfold EStateM.bind
  rw [hread]
  dsimp only
  rw [hedit]
  exact changing_of_ok hwrite

/-- **A pin of a file** gives the version that was read. -/
theorem pinFile_run {pom source : Path} {disk : Disk} {descriptor : Descriptor} {value : String}
    (hversion : readVersion source disk = .ok value disk)
    (hread : readDescriptor pom disk = .ok descriptor disk) :
    ∃ place, pinFile pom source disk
      = .ok value (disk.holding place
          ((descriptor.edit (pin value)).serialize disk.register)) := by
  obtain ⟨place, hedit⟩ : ∃ place, editFile pom (fun style root => .ok (pin value style root)) disk
      = .ok () (disk.holding place ((descriptor.edit (pin value)).serialize disk.register)) :=
    editFile_run hread rfl
  refine ⟨place, ?_⟩
  show EStateM.bind (readVersion source) _ disk = _
  unfold EStateM.bind
  rw [hversion]
  show EStateM.bind (editFile pom _) _ disk = _
  unfold EStateM.bind
  rw [hedit]
  rfl

end Pom

end Rollout
