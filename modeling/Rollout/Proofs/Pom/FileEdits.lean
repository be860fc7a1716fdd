import Rollout.Proofs.Pom.Settled

/-!
# Edits of one file

What an edit of a descriptor on disk does depends on the text of the descriptor and, for a
configuration, on the text of its template.

- `textAt_rewritten`: **a settled text rewritten** is settled again, whatever the register was.
- `FileEdit`: the edits that are made of a copy; `FileEdit.perform` makes one.
- `FileEdit.outcome`: what an edit writes, or why it fails.
- `FileEdit.perform_eq`: **an edit** writes its outcome and changes nothing else.
- `pinFile_settled`: **a pin** is where settled descriptors come from.
-/

namespace Rollout.Pom

open Xml

/-- What is at a place has a settled text, if it has a text at all. -/
def SettledAt (space : String) (entry : Option Entry) : Prop :=
  ∀ text, Files.textAt entry = .ok text → Settled space text

theorem return_not_mem_textAt {entry : Option Entry} {text : String}
    (h : Files.textAt entry = .ok text) : '\r' ∉ text.toList := by
  unfold Files.textAt at h
  split at h
  case h_1 raw _ =>
    obtain rfl : Text.unifyNewlines raw = text := Except.ok.inj h
    unfold Text.unifyNewlines
    rw [String.toList_ofList]
    exact not_mem_unifyNewlineChars _
  case h_2 => cases h
  case h_3 => cases h

theorem settledAt_text {space s : String} (h : Settled space s) (hreturn : '\r' ∉ s.toList) :
    SettledAt space (some (.file (.text s))) := by
  intro text htext
  obtain rfl : Text.unifyNewlines s = text := Except.ok.inj htext
  rwa [unifyNewlines_of_not_mem hreturn]

/-- **A settled text rewritten**: what is written does not depend on the register, and it is settled
again. -/
theorem textAt_rewritten {space : String} {register : Prefixes} {descriptor : Option Entry}
    (hsettled : SettledAt space descriptor) (hregister : KnownRegister space register)
    {change : Style → Node → Except Failure Node} (hchange : KeepsRoot change) :
    (Files.textAt descriptor).bind (rewritten change register)
        = (Files.textAt descriptor).bind (rewritten change Prefixes.standard) ∧
      ∀ written, (Files.textAt descriptor).bind (rewritten change register) = .ok written →
        written.2 = Prefixes.held space ∧ SettledAt space (some (.file (.text written.1))) := by
  unfold Except.bind
  cases htext : Files.textAt descriptor with
  | error failure => exact ⟨rfl, nofun⟩
  | ok text =>
    dsimp only
    obtain ⟨hsame, hwritten⟩ := rewritten_settled hchange (hsettled text htext)
      (return_not_mem_textAt htext) hregister
    refine ⟨hsame, fun written h => ?_⟩
    obtain ⟨hheld, hafter⟩ := hwritten written h
    refine ⟨hheld, fun unified hunified => ?_⟩
    obtain rfl : Text.unifyNewlines written.1 = unified := Except.ok.inj hunified
    exact hafter

/-! ## Edits of a copy -/

/-- A configuration set in a project, which fails where no profile declares the deployment
plugin. -/
def configureRoot (pom : Path) (fragment : Node) (style : Style) (project : Node) :
    Except Failure Node :=
  match configure? fragment style project with
  | some configured => .ok configured
  | none => .error (.noHost pom.text)

/-- The fragment that a template gives. -/
def stampedFragment (key value : String) (template : Path) (files : Files) :
    Except Failure Node := do
  readFragment (filledTemplate (← files.readText template) key value)

theorem keepsRoot_insertDependency (group artifact version : String) :
    KeepsRoot fun style root => .ok (insertDependency group artifact version style root) := by
  intro style project after h
  obtain rfl := Except.ok.inj h
  exact (inPlace_within ..).label project

theorem keepsRoot_configureRoot (pom : Path) (fragment : Node) :
    KeepsRoot (configureRoot pom fragment) := by
  intro style project after h
  unfold configureRoot configure? at h
  cases hosted : (hosting deployPlugin project).isEmpty with
  | true =>
    rw [hosted, if_pos rfl] at h
    cases h
  | false =>
    rw [hosted, if_neg Bool.false_ne_true] at h
    obtain rfl := Except.ok.inj h
    exact label_configure hosted (configure?_eq_some hosted)

/-- An edit of the descriptor of a copy. -/
inductive FileEdit
  | dependency (group artifact version : String)
  | configuration (key value : String) (template : Path)
  deriving DecidableEq, Repr

namespace FileEdit

/-- The edit made of the descriptor at a path. -/
def perform (pom : Path) : FileEdit → Disk.Action Unit
  | dependency group artifact version => addDependencyFile pom group artifact version
  | configuration key value template => configureFile pom key value template

/-- The template of a configuration. -/
def template? : FileEdit → Option Path
  | dependency .. => none
  | configuration _ _ template => some template

/-- What the edit does to the root of a descriptor, once its template is read. -/
def change (pom : Path) (files : Files) :
    FileEdit → Except Failure (Style → Node → Except Failure Node)
  | dependency group artifact version =>
    .ok fun style root => .ok (insertDependency group artifact version style root)
  | configuration key value template =>
    (stampedFragment key value template files).map (configureRoot pom)

/-- What the edit writes over what is at the place of the descriptor, with the register of prefixes
that it leaves. -/
def outcome (pom : Path) (files : Files) (register : Prefixes) (descriptor : Option Entry)
    (fileEdit : FileEdit) : Except Failure (String × Prefixes) :=
  (fileEdit.change pom files).bind fun change =>
    (Files.textAt descriptor).bind (rewritten change register)

variable {pom place : Path} {files other : Files} {fileEdit : FileEdit}

/-- An edit looks at nothing but its template and the descriptor. -/
theorem change_congr
    (h : ∀ template ∈ fileEdit.template?, other.readText template = files.readText template) :
    fileEdit.change pom other = fileEdit.change pom files := by
  cases fileEdit with
  | dependency group artifact version => rfl
  | configuration key value template =>
    have htemplate : other.readText template = files.readText template := h template rfl
    unfold change stampedFragment
    dsimp only
    rw [htemplate]

theorem keepsRoot_change {change : Style → Node → Except Failure Node}
    (h : fileEdit.change pom files = .ok change) : KeepsRoot change := by
  cases fileEdit with
  | dependency group artifact version =>
    obtain rfl := Except.ok.inj h
    exact keepsRoot_insertDependency group artifact version
  | configuration key value template =>
    unfold FileEdit.change at h
    dsimp only at h
    cases hfragment : stampedFragment key value template files with
    | error failure =>
      rw [hfragment] at h
      cases h
    | ok fragment =>
      rw [hfragment] at h
      obtain rfl := Except.ok.inj h
      exact keepsRoot_configureRoot pom fragment

variable {disk : Disk}

/-- **An edit** writes its outcome, and changes nothing when it fails. -/
theorem perform_eq (hplace : disk.files.resolve pom = .ok place) (fileEdit : FileEdit) :
    fileEdit.perform pom disk =
      match fileEdit.outcome pom disk.files disk.register (disk.files.get? place) with
      | .ok written => .ok () (disk.holding place written)
      | .error failure => .error failure disk := by
  cases fileEdit with
  | dependency group artifact version =>
    exact editFile_eq hplace fun style root =>
      .ok (insertDependency group artifact version style root)
  | configuration key value template =>
    show EStateM.bind (Disk.reading (stampedFragment key value template)) _ disk = _
    unfold EStateM.bind Disk.reading outcome change
    dsimp only
    cases stampedFragment key value template disk.files with
    | error failure => rfl
    | ok fragment => exact editFile_eq hplace (configureRoot pom fragment)

variable {space : String} {register : Prefixes} {descriptor : Option Entry}

/-- **An edit of a settled text** does not depend on the register, and what it writes is settled. -/
theorem outcome_settled (pom : Path) (files : Files) (hsettled : SettledAt space descriptor)
    (hregister : KnownRegister space register) (fileEdit : FileEdit) :
    fileEdit.outcome pom files register descriptor
        = fileEdit.outcome pom files Prefixes.standard descriptor ∧
      ∀ written, fileEdit.outcome pom files register descriptor = .ok written →
        written.2 = Prefixes.held space ∧ SettledAt space (some (.file (.text written.1))) := by
  unfold outcome
  cases hchange : fileEdit.change pom files with
  | error failure =>
    unfold Except.bind
    exact ⟨rfl, nofun⟩
  | ok change => exact textAt_rewritten hsettled hregister (keepsRoot_change hchange)

end FileEdit

/-! ## Pins -/

theorem label_declareHost (style : Style) (project : Node) :
    (declareHost style project).label = project.label := by
  show (if (profileOf? deployProfile project).isSome then project
    else insertProfile deployProfile style project).label = project.label
  split
  · rfl
  · exact (inPlace_within ..).label project

/-- A pin leaves the label of the root. -/
theorem label_pin (value : String) (style : Style) (project : Node) :
    (pin value style project).label = project.label := by
  have hhosted : (if (hosting deployPlugin project).isEmpty then declareHost style project
      else project).label = project.label := by
    split
    · exact label_declareHost style project
    · rfl
  unfold pin
  -- both ways of setting the version go into children
  generalize (if (hosting deployPlugin project).isEmpty then declareHost style project
    else project) = hosted at *
  dsimp only
  split <;> exact hhosted

/-- Reading a version changes nothing. -/
theorem eq_of_readVersion {source : Path} {disk after : Disk} {value : String}
    (h : readVersion source disk = .ok value after) : after = disk := by
  change EStateM.bind (readDescriptor source) _ disk = _ at h
  unfold EStateM.bind at h
  cases hread : readDescriptor source disk with
  | error failure failed =>
    rw [hread] at h
    cases h
  | ok descriptor read =>
    obtain ⟨rfl, -⟩ := readDescriptor_eq_ok.mp hread
    rw [hread] at h
    dsimp only at h
    cases hversion : nonEmpty (version descriptor.root) with
    | none =>
      rw [hversion] at h
      cases h
    | some found =>
      rw [hversion] at h
      cases h
      rfl

/-- **A pinned descriptor** is settled when it was settled before, and its namespace holds the empty
prefix from then on. -/
theorem pinFile_settled {space value : String} {pom source place : Path} {disk pinned : Disk}
    (hplace : disk.files.resolve pom = .ok place)
    (hsettled : SettledAt space (disk.files.get? place))
    (hregister : KnownRegister space disk.register)
    (h : pinFile pom source disk = .ok value pinned) :
    ∃ written, pinned = disk.holding place written ∧ written.2 = Prefixes.held space ∧
      SettledAt space (some (.file (.text written.1))) := by
  change EStateM.bind (readVersion source) _ disk = _ at h
  unfold EStateM.bind at h
  cases hversion : readVersion source disk with
  | error failure failed =>
    rw [hversion] at h
    cases h
  | ok version read =>
    obtain rfl := eq_of_readVersion hversion
    rw [hversion] at h
    change EStateM.bind (editFile pom _) _ read = _ at h
    unfold EStateM.bind at h
    rw [editFile_eq hplace] at h
    have hkeeps : KeepsRoot fun style root => .ok (pin version style root) := by
      intro style project after hafter
      obtain rfl := Except.ok.inj hafter
      exact label_pin version style project
    obtain ⟨-, hwritten⟩ := textAt_rewritten hsettled hregister hkeeps
    cases hresult : (Files.textAt (read.files.get? place)).bind
        (rewritten (fun style root => .ok (pin version style root)) read.register) with
    | error failure =>
      rw [hresult] at h
      cases h
    | ok written =>
      rw [hresult] at h
      cases h
      exact ⟨written, rfl, hwritten written hresult⟩

end Rollout.Pom
