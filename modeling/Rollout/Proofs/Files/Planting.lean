import Rollout.Proofs.Files.Directories

/-!
# Files put below a directory

Files put below a directory where nothing was are all that is there afterwards, with the
directories they need.

- `Files.Plantable`: files that can be put below a directory one after the other.
- `Files.held`: what names lead to below a directory that holds such files.
- `Files.exists_plantOne`, `Files.Holds.exists_plantOne`: one file, and one file more.
- `Files.plant_run`: **files put below a directory**; `Files.exists_filled` makes the directory
  first.
-/

namespace Rollout

namespace Path

/-- Of two places that something is inside of, one contains the other. -/
theorem contains_or_contains {place other path : Path} (h : place.contains path = true)
    (h' : other.contains path = true) :
    place.contains other = true ∨ other.contains place = true := by
  obtain ⟨hanchor, hparts⟩ := contains_iff.mp h
  obtain ⟨hanchor', hparts'⟩ := contains_iff.mp h'
  rw [contains_iff, contains_iff, hanchor, hanchor']
  exact (List.prefix_or_prefix_of_prefix hparts hparts').imp (⟨rfl, ·⟩) (⟨rfl, ·⟩)

/-- A path that starts in the working directory, taken from another one. -/
theorem join_of_working {path : Path} (h : path.anchor = .working) (base : Path) :
    base.join path = base.descend path.parts := by
  unfold join
  rw [h]
  rfl

theorem contains_descend_iff {base : Path} {names names' : List String} :
    (base.descend names).contains (base.descend names') = true ↔ names <+: names' := by
  rw [contains_iff, descend, descend, List.prefix_append_right_inj]
  exact and_iff_right rfl

theorem contains_trans {place other path : Path} (h : place.contains other = true)
    (h' : other.contains path = true) : place.contains path = true := by
  obtain ⟨hanchor, hparts⟩ := contains_iff.mp h
  obtain ⟨hanchor', hparts'⟩ := contains_iff.mp h'
  exact contains_iff.mpr ⟨hanchor.trans hanchor', hparts.trans hparts'⟩

theorem contains_below (place : Path) (name : String) :
    place.contains (place.below name) = true :=
  contains_below_iff.mpr (.inl (contains_self place))

/-- What contains a place below a directory is in the way to that directory, or inside it. -/
theorem above_or_inside {place home : Path} {name : String} {names : List String}
    (h : place.contains ((home.below name).descend names) = true) :
    place.contains home = true ∨
      ∃ front, place = (home.below name).descend front ∧ front <+: names := by
  rcases contains_or_contains h (contains_descend (home.below name) names) with habove | hinside
  · rcases contains_below_iff.mp habove with habove | rfl
    · exact .inl habove
    · exact .inr ⟨[], (descend_nil _).symm, List.nil_prefix⟩
  · obtain ⟨front, rfl⟩ := contains_iff_descend.mp hinside
    exact .inr ⟨front, rfl, contains_descend_iff.mp h⟩

/-- What is in the way to a directory is not inside a place in it. -/
theorem not_contains_above {place home : Path} {name : String} (h : place.contains home = true) :
    ¬ (home.below name).contains place = true := by
  intro hinside
  have hlength := (contains_iff.mp h).2.length_le
  have hlength' := (contains_iff.mp hinside).2.length_le
  rw [below, List.length_append, List.length_singleton] at hlength'
  omega

theorem descend_concat (base : Path) (names : List String) (name : String) :
    base.descend (names ++ [name]) = (base.descend names).below name := by
  simp [descend, below]

end Path

namespace Files

variable {files : Files} {base home place path : Path} {name : String}

/-! ## What is held -/

/-- Files that can be put below a directory one after the other: each has a name and a path of its
own, and only directories have something inside them. -/
structure Plantable (planted : List (Path × Entry)) : Prop where
  working : ∀ item ∈ planted, item.1.anchor = .working
  named : ∀ item ∈ planted, item.1.parts ≠ []
  down : ∀ item ∈ planted, ".." ∉ item.1.parts
  once : (planted.map Prod.fst).Nodup
  dirs : ∀ item ∈ planted, ∀ inner ∈ planted,
    item.1.contains inner.1 = true → item.1 ≠ inner.1 → item.2 = .dir

/-- What a path leads to from a directory that holds some files. -/
def held (planted : List (Path × Entry)) (path : Path) : Option Entry :=
  if planted.any fun item => path.contains item.1 && item.1 != path then some .dir
  else planted.lookup path

@[simp] theorem held_nil (path : Path) : held [] path = none := rfl

theorem held_concat (front : List (Path × Entry)) (item : Path × Entry) (path : Path) :
    held (front ++ [item]) path
      = if path = item.1 then (held front path).or (some item.2)
        else if path.contains item.1 = true then some .dir
        else held front path := by
  have hlast : [item].lookup path = if path = item.1 then some item.2 else none := by
    rw [List.lookup_cons, List.lookup_nil]
    by_cases hitem : path = item.1
    · rw [if_pos hitem, beq_iff_eq.mpr hitem]
    · rw [if_neg hitem, beq_eq_false_iff_ne.mpr hitem]
  unfold held
  rw [List.any_append, List.lookup_append, hlast, List.any_cons, List.any_nil, Bool.or_false]
  by_cases hitem : path = item.1
  · rw [if_pos hitem, if_pos hitem, hitem, bne_self_eq_false, Bool.and_false, Bool.or_false]
    split <;> rfl
  · have hne : (item.1 != path) = true := by simpa using Ne.symm hitem
    rw [if_neg hitem, if_neg hitem, hne, Bool.and_true, Option.or_none]
    cases path.contains item.1 with
    | true => simp
    | false => rw [Bool.or_false, if_neg Bool.false_ne_true]

namespace Plantable

variable {planted front : List (Path × Entry)} {item : Path × Entry}

theorem of_concat (h : Plantable (front ++ [item])) : Plantable front where
  working := fun other hother => h.working other (List.mem_append_left _ hother)
  named := fun other hother => h.named other (List.mem_append_left _ hother)
  down := fun other hother => h.down other (List.mem_append_left _ hother)
  once := (List.map_append ▸ h.once).sublist (List.sublist_append_left ..)
  dirs := fun other hother inner hinner =>
    h.dirs other (List.mem_append_left _ hother) inner (List.mem_append_left _ hinner)

/-- What holds one more file is a directory, or was not there before. -/
theorem held_above (h : Plantable (front ++ [item])) (hcontains : path.contains item.1 = true)
    (hne : path ≠ item.1) : held front path = none ∨ held front path = some .dir := by
  unfold held
  split
  · exact .inr rfl
  · cases hlookup : front.lookup path with
    | none => exact .inl rfl
    | some entry =>
      obtain ⟨before, behind, hfront, -⟩ := List.lookup_eq_some_iff.mp hlookup
      have hmem : (path, entry) ∈ front := by
        rw [hfront]
        simp
      have hdir := h.dirs _ (List.mem_append_left _ hmem) item (by simp) hcontains hne
      exact .inr (congrArg some hdir)

/-- Nothing was at the path of one more file, except the directory that it is. -/
theorem held_self (h : Plantable (front ++ [item])) :
    held front item.1 = none ∨ held front item.1 = some .dir ∧ item.2 = .dir := by
  unfold held
  split
  case isTrue hany =>
    obtain ⟨inner, hinner, hinside⟩ := List.any_eq_true.mp hany
    obtain ⟨hcontains, hne⟩ := Bool.and_eq_true_iff.mp hinside
    exact .inr ⟨rfl, h.dirs item (by simp) inner (List.mem_append_left _ hinner) hcontains
      (Ne.symm (bne_iff_ne.mp hne))⟩
  case isFalse =>
    refine .inl (List.lookup_eq_none_iff.mpr fun other hother => bne_iff_ne.mpr fun heq => ?_)
    have honce := h.once
    rw [List.map_append, List.nodup_append] at honce
    exact honce.2.2 other.1 (List.mem_map_of_mem hother) item.1 (by simp) heq.symm

end Plantable

/-! ## One file -/

/-- **One file**, with the directories it needs. -/
theorem exists_plantOne {entry : Entry} (hfull : base.join path = place.below name)
    (hclear : files.Clear place) (hname : name ≠ "..")
    (hfree : files.get? (place.below name) = none ∨
      files.get? (place.below name) = some .dir ∧ entry = .dir) :
    ∃ grown, plantOne base path entry files = .ok grown ∧
      grown.get? (place.below name) = some entry ∧ grown.Standing place ∧
      files.SameOutside (·.contains (place.below name) = true) grown := by
  obtain ⟨made, hmade, hstanding, hsame⟩ := makeDirs_run hclear
  have hkept := hsame _ (Path.not_contains_of_below place name)
  rw [← hkept] at hfree
  have hlink := ne_link_of_free (hfree.imp_right And.left)
  -- a file or a link is put where nothing is
  have hput : ∀ entry, (made.put (place.below name) entry).get? (place.below name) = some entry ∧
      (made.put (place.below name) entry).Standing place ∧
      files.SameOutside (·.contains (place.below name) = true)
        (made.put (place.below name) entry) := fun entry =>
    ⟨get?_put_self made (Path.not_isTop_below place hname) entry,
      hstanding.put_below name entry,
      (hsame.below name).trans (sameOutside_put (Path.contains_self _) made entry)⟩
  unfold plantOne
  dsimp only
  rw [hfull, Path.below_parent, hmade]
  cases entry with
  | dir =>
    obtain ⟨grown, hgrown, hthere, hmore⟩ := makeDirs_run
      (clear_below_iff.mpr ⟨hstanding.clear, hname, hfree.imp_right And.left⟩)
    obtain ⟨hplace, -, hdir⟩ := standing_below_iff.mp hthere
    exact ⟨grown, hgrown, hdir, hplace, (hsame.below name).trans hmore⟩
  | file content =>
    refine ⟨_, ?_, hput (.file content)⟩
    show Except.bind (made.resolve _) _ = _
    rw [hstanding.leads.resolve hname hlink]
    rfl
  | link target =>
    refine ⟨_, ?_, hput (.link target)⟩
    show Except.bind (made.resolveEntry _) _ = _
    rw [hstanding.leads.resolveEntry hname hlink]
    rfl

/-- The path of one file more: a name in a directory below the one where files are put. -/
theorem Plantable.exists_below {front : List (Path × Entry)} {item : Path × Entry}
    (h : Plantable (front ++ [item])) :
    ∃ names last, item.1 = (⟨.working, names⟩ : Path).below last ∧
      ".." ∉ names ∧ last ≠ ".." := by
  obtain ⟨⟨anchor, parts⟩, entry⟩ := item
  have hworking := h.working _ (List.mem_append_right _ (List.mem_singleton_self _))
  have hnamed := h.named _ (List.mem_append_right _ (List.mem_singleton_self _))
  have hdown := h.down _ (List.mem_append_right _ (List.mem_singleton_self _))
  obtain ⟨names, last, rfl⟩ := (List.eq_nil_or_concat' parts).resolve_left hnamed
  obtain rfl : anchor = .working := hworking
  have hdown : ".." ∉ ((⟨.working, names⟩ : Path).below last).parts := hdown
  exact ⟨names, last, rfl, down_below.mp hdown⟩

/-! ## One after the other -/

/-- The files below a directory are these. -/
def Holds (files : Files) (base : Path) (planted : List (Path × Entry)) : Prop :=
  ∀ names, files.get? (base.descend names) = held planted ⟨.working, names⟩

section Grow

variable {front : List (Path × Entry)} {item : Path × Entry}

theorem Standing.of_sameOutside {grown : Files} (h : files.Standing home)
    (hsame : files.SameOutside ((home.below name).contains ·) grown) : grown.Standing home :=
  ⟨h.down, fun place hplace =>
    (hsame place (Path.not_contains_above hplace)).trans (h.dirs place hplace)⟩

/-- What changes nothing but a place below a directory and the directories in the way to it changes
nothing outside the directory, when the way to it was there. -/
theorem Standing.sameOutside {grown : Files} {init : List String} {last : String}
    (hhome : files.Standing home) (hstanding : grown.Standing ((home.below name).descend init))
    (hsame : files.SameOutside (·.contains ((home.below name).descend (init ++ [last])) = true)
      grown) : files.SameOutside ((home.below name).contains ·) grown := by
  intro place houtside
  by_cases habove : place.contains ((home.below name).descend (init ++ [last])) = true
  · rcases Path.above_or_inside habove with habove | ⟨names, rfl, -⟩
    · rw [hhome.dirs place habove]
      exact hstanding.dirs place (Path.contains_trans habove
        (Path.contains_trans (Path.contains_below ..) (Path.contains_descend ..)))
    · exact absurd (Path.contains_descend ..) houtside
  · exact hsame place habove

variable (hplanted : Plantable (front ++ [item])) (h : files.Holds (home.below name) front)
  (hhome : files.Standing home) (hname : name ≠ "..")

include hplanted h hhome hname

/-- The way to one file more goes over directories, as far as it is there. -/
theorem Holds.clear {init : List String} {last : String}
    (hitem : item.1 = (⟨.working, init⟩ : Path).below last) (hinit : ".." ∉ init) :
    files.Clear ((home.below name).descend init) := by
  refine ⟨?_, fun place hplace => ?_⟩
  · simpa [Path.descend, Path.below, hinit, eq_comm] using ⟨hhome.down, hname⟩
  · rcases Path.above_or_inside hplace with habove | ⟨names, rfl, hnames⟩
    · exact .inr (hhome.dirs place habove)
    · rw [h]
      refine hplanted.held_above ?_ ?_
      · rw [hitem]
        exact Path.contains_below_iff.mpr (.inl (Path.contains_iff.mpr ⟨rfl, hnames⟩))
      · intro heq
        have hlength := hnames.length_le
        have hparts := congrArg (fun path => path.parts.length) (heq.trans hitem)
        simp only [Path.below, List.length_append, List.length_singleton] at hparts
        omega

/-- **One file more** below a directory, and nothing else changes. -/
theorem Holds.exists_plantOne : ∃ grown,
    plantOne (home.below name) item.1 item.2 files = .ok grown ∧
      files.SameOutside ((home.below name).contains ·) grown ∧
      grown.Holds (home.below name) (front ++ [item]) := by
  obtain ⟨init, last, hitem, hinit, hlast⟩ := hplanted.exists_below
  have hpath : item.1 = ⟨.working, init ++ [last]⟩ := hitem
  have hplace : ((home.below name).descend init).below last
      = (home.below name).descend (init ++ [last]) := (Path.descend_concat ..).symm
  have hparts : (home.below name).join item.1
      = ((home.below name).descend init).below last := by
    rw [hpath, Path.join_of_working rfl, hplace]
  have hself := h (init ++ [last])
  rw [← hplace, ← hpath] at hself
  obtain ⟨grown, hgrown, hentry, hstanding, hsame⟩ := Files.exists_plantOne hparts
    (h.clear hplanted hhome hname hitem hinit) hlast (hself ▸ hplanted.held_self)
  rw [hplace] at hentry hsame hself
  refine ⟨grown, hgrown, hhome.sameOutside hstanding hsame, fun names => ?_⟩
  rw [held_concat, hpath]
  by_cases hnames : names = init ++ [last]
  · rw [if_pos (by rw [hnames]), hnames, hentry, ← hpath]
    rcases hplanted.held_self with hnone | ⟨hdir, hentry⟩
    · rw [hnone, Option.none_or]
    · rw [hdir, hentry, Option.some_or]
  · rw [if_neg (by simpa using hnames)]
    split
    case isTrue hcontains =>
      have hfront := (Path.contains_iff.mp hcontains).2
      rw [List.prefix_concat_iff] at hfront
      exact hstanding.dirs _ (Path.contains_descend_iff.mpr (hfront.resolve_left hnames))
    case isFalse hcontains =>
      rw [hsame _ fun hinside => ?_, h]
      exact hcontains (Path.contains_iff.mpr ⟨rfl, Path.contains_descend_iff.mp hinside⟩)

end Grow

/-- **Files put below a directory** where nothing was are what is there, and nothing else
changes. -/
theorem plant_run {planted : List (Path × Entry)} (hplanted : Plantable planted)
    (hhome : files.Standing home) (hname : name ≠ "..")
    (hnone : files.Holds (home.below name) []) :
    ∃ grown, plant (home.below name) planted files = .ok grown ∧
      files.SameOutside ((home.below name).contains ·) grown ∧
      grown.Holds (home.below name) planted := by
  induction planted using List.reverseRecOn with
  | nil => exact ⟨files, rfl, SameOutside.refl files, hnone⟩
  | append_singleton front item ih =>
    obtain ⟨grown, hgrown, hsame, hholds⟩ := ih hplanted.of_concat
    obtain ⟨more, hmore, hsame', hholds'⟩ :=
      hholds.exists_plantOne hplanted (hhome.of_sameOutside hsame) hname
    refine ⟨more, ?_, hsame.trans hsame', hholds'⟩
    unfold plant at hgrown ⊢
    rw [List.foldlM_append, hgrown]
    show Except.bind (plantOne (home.below name) item.1 item.2 grown) _ = _
    rw [hmore]
    rfl

/-- **A new directory filled with files**, with the directories it needs; what is next to it stays
as it is. -/
theorem exists_filled {planted : List (Path × Entry)} (hplanted : Plantable planted)
    (hclear : files.Clear home) (hname : name ≠ "..") (hnone : files.Holds (home.below name) []) :
    ∃ made grown, makeDirs home files = .ok made ∧
      plant (home.below name) planted made = .ok grown ∧ grown.Standing home ∧
      grown.Holds (home.below name) planted ∧
      ∀ name' ≠ name, ∀ names, grown.get? ((home.below name').descend names)
        = files.get? ((home.below name').descend names) := by
  obtain ⟨made, hmade, hstanding, hsame⟩ := makeDirs_run hclear
  have hbelow : ∀ name names, made.get? ((home.below name).descend names)
      = files.get? ((home.below name).descend names) := fun name names =>
    hsame _ fun habove => Path.not_contains_above habove (Path.contains_descend ..)
  obtain ⟨grown, hgrown, hsame', hholds⟩ := plant_run hplanted hstanding hname
    fun names => (hbelow name names).trans (hnone names)
  exact ⟨made, grown, hmade, hgrown, hstanding.of_sameOutside hsame', hholds,
    fun name' hne names => (hsame'.sibling (Ne.symm hne) names).trans (hbelow name' names)⟩

end Files

end Rollout
