import Rollout.Proofs.Files.Places

/-!
# What is at a place

Every change of files is described by what is at each place afterwards.

- `Files.get?_put_self`, `Files.get?_put_of_ne`: something put at a place.
- `Files.get?_without`: a directory removed with what is in it.
- `Files.lookup_copies`: what is inside a directory, moved to another one.
- `Files.contentAt`, `Files.textAt`: what is read from a place; `Files.exists_place` gives the place
  of a text that was read.
-/

namespace Rollout

namespace Path

/-- A place with a name that goes down is not where paths start. -/
theorem not_isTop_descend (place : Path) {name : String} (hname : name ≠ "..")
    (names : List String) : Files.isTop ((place.below name).descend names) = false := by
  simp [Files.isTop, descend, below, hname]

theorem not_isTop_below (place : Path) {name : String} (hname : name ≠ "..") :
    Files.isTop (place.below name) = false := by
  simpa using not_isTop_descend place hname []

end Path

namespace Files

variable {files : Files} {place other : Path}

theorem get?_of_not_top (files : Files) (h : isTop place = false) :
    files.get? place = files.entries.lookup place := by
  rw [get?, h, if_neg Bool.false_ne_true]

/-- What is at a place below the one where paths start is one of the entries. -/
theorem mem_of_get? (h : isTop place = false) {entry : Entry}
    (hentry : files.get? place = some entry) : (place, entry) ∈ files.entries := by
  rw [get?_of_not_top _ h] at hentry
  obtain ⟨front, back, hentries, -⟩ := List.lookup_eq_some_iff.mp hentry
  rw [hentries]
  simp

/-- Nothing is found inside a place that none of the entries is inside of. -/
theorem get?_descend_eq_none (h : files.entries.all (fun entry => !place.contains entry.1) = true)
    (names : List String) (htop : isTop (place.descend names) = false) :
    files.get? (place.descend names) = none := by
  rw [get?_of_not_top _ htop]
  refine List.lookup_eq_none_iff.mpr fun entry hentry => bne_iff_ne.mpr ?_
  rintro heq
  have hinside := Path.contains_descend place names
  rw [heq] at hinside
  simpa [hinside] using List.all_eq_true.mp h entry hentry

/-! ## Something put at a place -/

theorem lookup_putEntry (place : Path) (entry : Entry) (other : Path) :
    ∀ entries : List (Path × Entry), (putEntry place entry entries).lookup other
      = if other == place then some entry else entries.lookup other
  | [] => by
    rw [putEntry, List.lookup_cons]
    cases other == place <;> rfl
  | (p, e) :: rest => by
    rw [putEntry]
    by_cases hp : p = place
    · subst hp
      rw [if_pos BEq.rfl, List.lookup_cons, List.lookup_cons]
      cases other == p <;> rfl
    · rw [if_neg (by simpa using hp), List.lookup_cons, List.lookup_cons,
        lookup_putEntry place entry other rest]
      by_cases hother : other = p
      · subst hother
        rw [beq_eq_false_iff_ne.mpr hp, BEq.rfl]
        rfl
      · rw [beq_eq_false_iff_ne.mpr hother]

theorem get?_put_self (files : Files) (h : isTop place = false) (entry : Entry) :
    (files.put place entry).get? place = some entry := by
  rw [get?_of_not_top _ h, put, lookup_putEntry, if_pos BEq.rfl]

theorem get?_put_of_ne (h : other ≠ place) (entry : Entry) :
    (files.put place entry).get? other = files.get? other := by
  have hbeq : ¬ (other == place) = true := by simpa using h
  unfold get? put
  dsimp only
  rw [lookup_putEntry, if_neg hbeq]

/-! ## A directory removed -/

theorem lookup_filter {α β : Type} [BEq α] [LawfulBEq α] (keep : α → Bool) (key : α) :
    ∀ entries : List (α × β), (entries.filter fun entry => keep entry.1).lookup key
      = if keep key then entries.lookup key else none
  | [] => by simp
  | (k, e) :: rest => by
    have ih := lookup_filter keep key rest
    rw [List.filter_cons, List.lookup_cons]
    dsimp only
    by_cases hk : key = k
    · subst hk
      cases hkeep : keep key with
      | true => simp
      | false => simp [ih, hkeep]
    · rw [beq_eq_false_iff_ne.mpr hk]
      cases keep k with
      | true => rw [if_pos rfl, List.lookup_cons, beq_eq_false_iff_ne.mpr hk, ih]
      | false => rw [if_neg Bool.false_ne_true, ih]

/-- Without the directory at a place nothing is inside it, and all else is where it was. -/
theorem get?_without (files : Files) (h : isTop other = false) :
    (⟨files.entries.filter fun entry => !place.contains entry.1⟩ : Files).get? other
      = if place.contains other then none else files.get? other := by
  rw [get?_of_not_top _ h, get?_of_not_top _ h, lookup_filter fun path => !place.contains path]
  cases place.contains other <;> simp

/-! ## A directory copied -/

/-- What is inside a directory is found at the corresponding place, and nothing is found at the
place of the directory itself. -/
theorem lookup_copies (source target : Path) (names : List String) (files : Files) :
    (files.copies source target).lookup (target.descend names)
      = if names = [] then none else files.entries.lookup (source.descend names) := by
  obtain ⟨entries⟩ := files
  unfold copies
  dsimp only
  induction entries with
  | nil => simp
  | cons entry entries ih =>
    obtain ⟨p, e⟩ := entry
    rw [List.filterMap_cons]
    by_cases hinside : (source.contains p && p != source) = true
    · obtain ⟨hcontains, hne⟩ := Bool.and_eq_true_iff.mp hinside
      obtain ⟨below, rfl⟩ := Path.contains_iff_descend.mp hcontains
      have hbelow : below ≠ [] := by
        rintro rfl
        simp at hne
      rw [if_pos hinside]
      dsimp only
      rw [Path.moved_descend, List.lookup_cons, List.lookup_cons, ih]
      by_cases hsame : names = below
      · subst hsame
        simp [hbelow]
      · have hmoved : ¬ target.descend names = target.descend below := by simpa using hsame
        have hkept : ¬ source.descend names = source.descend below := by simpa using hsame
        rw [beq_eq_false_iff_ne.mpr hmoved, beq_eq_false_iff_ne.mpr hkept]
    · rw [if_neg hinside]
      dsimp only
      rw [ih, List.lookup_cons]
      by_cases hnames : names = []
      · rw [if_pos hnames, if_pos hnames]
      · -- what was passed over is not below the source
        have hne : ¬ source.descend names = p := by
          rintro rfl
          refine hinside (Bool.and_eq_true_iff.mpr ⟨Path.contains_descend .., bne_iff_ne.mpr ?_⟩)
          exact fun heq => hnames (by simpa [Path.descend] using congrArg Path.parts heq)
        rw [if_neg hnames, if_neg hnames, beq_eq_false_iff_ne.mpr hne]

theorem lookup_copies_of_not_contains (source : Path) {target : Path}
    (h : target.contains place = false) (files : Files) :
    (files.copies source target).lookup place = none := by
  refine List.lookup_eq_none_iff.mpr fun copied hcopied => bne_iff_ne.mpr ?_
  rintro rfl
  obtain ⟨⟨p, e⟩, -, hcopy⟩ := List.mem_filterMap.mp hcopied
  dsimp only at hcopy
  split at hcopy
  case isTrue =>
    cases hcopy
    have hinside := Path.contains_descend target (p.parts.drop source.parts.length)
    rw [Bool.eq_false_iff] at h
    exact h hinside
  case isFalse => cases hcopy

/-! ## Reading -/

/-- What is read from what is at a place. -/
def contentAt : Option Entry → Except FileProblem Content
  | none => .error .missing
  | some (.file content) => .ok content
  | some .dir => .error .isDirectory
  | some (.link _) => .error .other

/-- The text that is read from what is at a place. -/
def textAt (entry : Option Entry) : Except Failure String :=
  match contentAt entry with
  | .ok (.text s) => .ok (Text.unifyNewlines s)
  | .ok (.undecodable _) => .error .notText
  | .error problem => .error (.file problem)

variable {path : Path}

theorem find_of_resolve (h : files.resolve path = .ok place) :
    files.find path = match files.get? place with
      | some entry => .ok entry
      | none => .error .missing := by
  unfold find
  rw [h]
  rfl

theorem content_of_resolve (h : files.resolve path = .ok place) :
    files.content path = contentAt (files.get? place) := by
  unfold content
  rw [find_of_resolve h]
  cases files.get? place with
  | none => rfl
  | some entry => cases entry <;> rfl

theorem readText_of_resolve (h : files.resolve path = .ok place) :
    files.readText path = textAt (files.get? place) := by
  unfold readText
  rw [content_of_resolve h]
  rfl

theorem content_of_unresolved {problem : FileProblem} (h : files.resolve path = .error problem) :
    files.content path = .error problem := by
  unfold content find
  rw [h]
  rfl

theorem exists_file_of_textAt {entry : Option Entry} {text : String} (h : textAt entry = .ok text) :
    ∃ content, entry = some (.file content) := by
  match entry with
  | none => cases h
  | some .dir => cases h
  | some (.link target) => cases h
  | some (.file content) => exact ⟨content, rfl⟩

/-- A file that is read as a text stands somewhere. -/
theorem exists_place {text : String} (h : files.readText path = .ok text) :
    ∃ place content, files.resolve path = .ok place ∧ files.get? place = some (.file content) ∧
      textAt (files.get? place) = .ok text := by
  cases hplace : files.resolve path with
  | error problem =>
    unfold readText at h
    rw [content_of_unresolved hplace] at h
    cases h
  | ok place =>
    rw [readText_of_resolve hplace] at h
    obtain ⟨content, hfile⟩ := exists_file_of_textAt h
    exact ⟨place, content, rfl, hfile, h⟩

/-- Where a text was read, another one is written. -/
theorem writeText_of_resolve (h : files.resolve path = .ok place) {old : String}
    (hold : textAt (files.get? place) = .ok old) (text : String) :
    writeText path text files = .ok (files.put place (.file (.text text))) := by
  unfold writeText
  rw [h]
  cases hentry : files.get? place with
  | none => simp [bind, Except.bind, hentry]
  | some entry =>
    cases entry with
    | dir =>
      rw [hentry] at hold
      cases hold
    | file content => simp [bind, Except.bind, hentry]
    | link target => simp [bind, Except.bind, hentry]

end Files

end Rollout
