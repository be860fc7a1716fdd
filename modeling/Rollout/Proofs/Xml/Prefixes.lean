import Mathlib.Data.List.Nodup
import Rollout.Proofs.Xml.Sound
import Rollout.Proofs.Xml.Tree

/-!
# Prefixes of a document

A document is written with the empty prefix for the namespace of its root, with well-known prefixes
for a few other namespaces, and with numbered prefixes for the rest.

- `Expressible`: the names that such prefixes can express; `OneSpace` are those of a document in
  one namespace.
- `numbered_inj`, `isName_numbered`: numbered prefixes differ, and are names.
- `assignName_cases`: what one name adds to the prefixes that are assigned.
- `Assigned`, `assigned_assign`: **the prefixes that are assigned** are names, and differ.
-/

namespace Rollout.Xml

/-- The namespace of attributes that tell where schemas are. -/
def schemaSpace : String := "http://www.w3.org/2001/XMLSchema-instance"

/-- An attribute without a namespace, or in one of two that have a prefix from the start. -/
def PlainAttribute (space : String) (name : QName) : Prop :=
  name.space = "" ∨ name.space ≠ space ∧ (name.space = xmlSpace ∨ name.space = schemaSpace)

/-- The element is in the namespace, and its attributes are in no namespace or in other ones that
have a prefix from the start. -/
def OneSpace (space : String) (node : Node) : Prop :=
  ∀ name attributes, node.label = .element name attributes →
    name.space = space ∧ ∀ entry ∈ attributes, PlainAttribute space entry.1

/-- The names of the element can be written where `space` has the empty prefix: the element is in
some namespace, unless `space` is none, and no attribute is in that namespace. -/
def Expressible (space : String) (node : Node) : Prop :=
  ∀ name attributes, node.label = .element name attributes →
    (name.space = "" → space = "") ∧
      ∀ entry ∈ attributes, entry.1.space = "" ∨ entry.1.space ≠ space

theorem OneSpace.expressible {space : String} {node : Node} (h : OneSpace space node) :
    Expressible space node := by
  intro name attributes hlabel
  obtain ⟨hname, hplain⟩ := h name attributes hlabel
  exact ⟨fun hempty => hname.symm.trans hempty, fun entry hentry =>
    (hplain entry hentry).imp_right And.left⟩

/-! ## The register -/

/-- The first register once a namespace, if there is one, holds the empty prefix. -/
def Prefixes.held (space : String) : Prefixes :=
  if space.isEmpty then Prefixes.standard else Prefixes.standard.holdDefault space

theorem lookup_holdDefault_self (space : String) (register : Prefixes) :
    (register.holdDefault space).lookup space = some "" := by
  refine List.lookup_eq_some_iff.mpr ⟨_, [], rfl, fun entry hentry => ?_⟩
  obtain ⟨-, hkept⟩ := List.mem_filter.mp hentry
  have hne : entry.1 ≠ space := bne_iff_ne.mp (Bool.and_eq_true_iff.mp hkept).1
  exact bne_iff_ne.mpr hne.symm

/-- Other namespaces keep their prefixes. -/
theorem lookup_holdDefault_of_ne {space other found : String} {register : Prefixes}
    (h : register.lookup other = some found) (hother : other ≠ space) (hfound : found ≠ "") :
    (register.holdDefault space).lookup other = some found := by
  obtain ⟨front, back, rfl, hfront⟩ := List.lookup_eq_some_iff.mp h
  unfold Prefixes.holdDefault
  rw [List.filter_append, List.filter_cons_of_pos, List.append_assoc, List.cons_append]
  · exact List.lookup_eq_some_iff.mpr ⟨_, _, rfl, fun entry hentry =>
      hfront entry (List.mem_filter.mp hentry).1⟩
  · exact Bool.and_eq_true_iff.mpr ⟨bne_iff_ne.mpr hother, bne_iff_ne.mpr hfound⟩

theorem lookup_held_self {space : String} (h : space ≠ "") :
    (Prefixes.held space).lookup space = some "" := by
  have hempty : ¬ space.isEmpty = true := by simpa using h
  unfold Prefixes.held
  rw [if_neg hempty]
  exact lookup_holdDefault_self space _

theorem lookup_held_of_ne {space other found : String}
    (h : Prefixes.standard.lookup other = some found) (hother : other ≠ space)
    (hfound : found ≠ "") : (Prefixes.held space).lookup other = some found := by
  unfold Prefixes.held
  split
  · exact h
  · exact lookup_holdDefault_of_ne h hother hfound

/-- A namespace that holds the empty prefix takes it no second time. -/
theorem holdDefault_holdDefault (space : String) (register : Prefixes) :
    (register.holdDefault space).holdDefault space = register.holdDefault space := by
  have hlast : List.filter (fun entry : String × String => entry.1 != space && entry.2 != "")
      [(space, "")] = [] := by simp
  unfold Prefixes.holdDefault
  rw [List.filter_append, hlast, List.append_nil, List.filter_filter]
  simp only [Bool.and_self]

/-- **A registered prefix** is the empty one of the held namespace, or one of the first register. -/
theorem lookup_held_cases {space other found : String}
    (h : (Prefixes.held space).lookup other = some found) :
    space ≠ "" ∧ other = space ∧ found = "" ∨ (other, found) ∈ Prefixes.standard := by
  obtain ⟨front, back, hregister, -⟩ := List.lookup_eq_some_iff.mp h
  have hmem : (other, found) ∈ Prefixes.held space := by
    rw [hregister]
    simp
  unfold Prefixes.held at hmem
  split at hmem
  case isTrue => exact .inr hmem
  case isFalse hempty =>
    rcases List.mem_append.mp hmem with hkept | hheld
    · exact .inr (List.mem_filter.mp hkept).1
    · obtain ⟨rfl, rfl⟩ := Prod.mk.inj (List.mem_singleton.mp hheld)
      exact .inl ⟨by simpa using hempty, rfl, rfl⟩

/-! ## Numbered prefixes -/

/-- The prefix that a namespace is numbered with. -/
def numbered (i : Nat) : String :=
  s!"ns{i}"

theorem toList_numbered (i : Nat) : (numbered i).toList = 'n' :: 's' :: Nat.toDigits 10 i := by
  show (toString "ns" ++ Nat.repr i).toList = _
  rw [String.toList_append, Nat.repr_eq_ofList_toDigits, String.toList_ofList]
  rfl

theorem numbered_inj {i j : Nat} (h : numbered i = numbered j) : i = j := by
  have hlist := congrArg String.toList h
  rw [toList_numbered, toList_numbered] at hlist
  have hdigits : Nat.toDigits 10 i = Nat.toDigits 10 j :=
    (List.cons.inj (List.cons.inj hlist).2).2
  rw [← Nat.ofDigitChars_ten_toDigits (n := i), hdigits, Nat.ofDigitChars_ten_toDigits]

theorem isName_numbered (i : Nat) : IsName (numbered i).toList := by
  have hdigit : ∀ code, 48 ≤ code → code ≤ 57 → isNameChar (Char.ofNat code) = true := by
    decide +kernel
  rw [toList_numbered]
  refine ⟨'n', _, rfl, by decide +kernel, List.forall_mem_cons.mpr ⟨by decide +kernel, ?_⟩⟩
  intro c hc
  have hrange := Nat.isDigit_of_mem_toDigits (by decide) (Nat.le_refl 10) hc
  have hcode : (48 : UInt32) ≤ c.val ∧ c.val ≤ 57 := by
    unfold Char.isDigit at hrange
    simpa using hrange
  have hchar := hdigit c.toNat (UInt32.le_iff_toNat_le.mp hcode.1)
    (UInt32.le_iff_toNat_le.mp hcode.2)
  rwa [Char.ofNat_toNat] at hchar

/-- No prefix of the first register is a numbered one. -/
theorem ne_numbered {entry : String × String} (h : entry ∈ Prefixes.standard) (i : Nat) :
    entry.2 ≠ numbered i := by
  have hfirst : ∀ entry ∈ Prefixes.standard, entry.2.toList.head? ≠ some 'n' := by decide
  intro heq
  refine hfirst entry h ?_
  rw [heq, toList_numbered]
  rfl

/-! ## Prefixes that are assigned -/

/-- The prefix of a namespace is registered, or it is numbered below `bound`. -/
def Chosen (space : String) (bound : Nat) (entry : String × String) : Prop :=
  (Prefixes.held space).lookup entry.1 = some entry.2 ∨
    (Prefixes.held space).lookup entry.1 = none ∧ ∃ i < bound, entry.2 = numbered i

/-- What a document may assign when `space` is the namespace of its root. -/
structure Assigned (space : String) (assigned : Prefixes) : Prop where
  spaces : ∀ entry ∈ assigned, entry.1 ≠ "" ∧ Bindable entry.1
  chosen : ∀ entry ∈ assigned, Chosen space assigned.length entry
  unreserved : ∀ entry ∈ assigned, entry.2 ≠ "xml"
  distinct : (assigned.map Prod.snd).Nodup

/-- A name that needs no prefix, or whose namespace has one. -/
def Covered (space : String) (assigned : Prefixes) (name : QName) : Prop :=
  name.space = "" ∨ (Prefixes.held space).lookup name.space = some "xml" ∨
    (assigned.lookup name.space).isSome = true

section Assigned

variable {space : String} {assigned : Prefixes} {entry : String × String}

theorem Chosen.mono {bound bound' : Nat} (h : Chosen space bound entry) (hle : bound ≤ bound') :
    Chosen space bound' entry :=
  h.imp_right fun ⟨hnone, i, hi, heq⟩ => ⟨hnone, i, Nat.lt_of_lt_of_le hi hle, heq⟩

/-- A prefix is empty or a name. -/
theorem Chosen.isName {bound : Nat} (h : Chosen space bound entry) :
    entry.2 = "" ∧ entry.1 = space ∧ space ≠ "" ∨ IsName entry.2.toList ∧ entry.2 ≠ "xmlns" := by
  have hstandard : ∀ entry ∈ Prefixes.standard,
      IsName entry.2.toList ∧ entry.2 ≠ "xmlns" := by decide +kernel
  rcases h with hregistered | ⟨-, i, -, heq⟩
  · rcases lookup_held_cases hregistered with ⟨hne, hspace, hempty⟩ | hmem
    · exact .inl ⟨hempty, hspace, hne⟩
    · exact .inr (hstandard _ hmem)
  · refine .inr ⟨heq ▸ isName_numbered i, fun hxmlns => ?_⟩
    have hlist := congrArg String.toList (heq.symm.trans hxmlns)
    rw [toList_numbered] at hlist
    exact absurd (List.cons.inj hlist).1 (by decide)

theorem Assigned.isName (h : Assigned space assigned) (hentry : entry ∈ assigned) :
    entry.2 = "" ∧ entry.1 = space ∧ space ≠ "" ∨ IsName entry.2.toList ∧ entry.2 ≠ "xmlns" :=
  (h.chosen entry hentry).isName

/-- The namespace of the root has the empty prefix, when it is assigned. -/
theorem Assigned.empty_of_eq (h : Assigned space assigned) (hentry : entry ∈ assigned)
    (hspace : entry.1 = space) : entry.2 = "" := by
  have hheld := lookup_held_self (hspace ▸ (h.spaces entry hentry).1)
  rcases h.chosen entry hentry with hregistered | ⟨hnone, -⟩
  · rw [hspace, hheld] at hregistered
    exact (Option.some.inj hregistered).symm
  · rw [hspace, hheld] at hnone
    cases hnone

/-- The namespace of `xml` is not assigned, as its prefix needs no declaration. -/
theorem Assigned.ne_xmlSpace (h : Assigned space assigned) (hspace : space ≠ xmlSpace)
    (hentry : entry ∈ assigned) : entry.1 ≠ xmlSpace := by
  intro hxml
  have hheld : (Prefixes.held space).lookup xmlSpace = some "xml" :=
    lookup_held_of_ne rfl hspace.symm (by decide)
  rcases h.chosen entry hentry with hregistered | ⟨hnone, -⟩
  · rw [hxml, hheld] at hregistered
    exact h.unreserved entry hentry (Option.some.inj hregistered).symm
  · rw [hxml, hheld] at hnone
    cases hnone

/-- A prefix that is chosen now was not chosen for another namespace before. -/
theorem not_mem_of_chosen {other found : String} (h : Assigned space assigned)
    (hother : assigned.lookup other = none)
    (hchosen : (Prefixes.held space).lookup other = some found ∨
      (Prefixes.held space).lookup other = none ∧ found = numbered assigned.length) :
    found ∉ assigned.map Prod.snd := by
  have hstandard : ∀ a ∈ Prefixes.standard, ∀ b ∈ Prefixes.standard, a.2 = b.2 → a.1 = b.1 := by
    decide
  have hnonempty : ∀ a ∈ Prefixes.standard, a.2 ≠ "" := by decide
  have hnumbered : ∀ i, numbered i ≠ "" := fun i hnil => by
    have hlist := congrArg String.toList hnil
    rw [toList_numbered] at hlist
    cases hlist
  intro hmem
  obtain ⟨entry, hentry, rfl⟩ := List.mem_map.mp hmem
  have hne : other ≠ entry.1 := bne_iff_ne.mp (List.lookup_eq_none_iff.mp hother entry hentry)
  rcases hchosen with hregistered | ⟨hnone, hfound⟩
  · rcases h.chosen entry hentry with hbefore | ⟨-, i, -, hbefore⟩
    · rcases lookup_held_cases hregistered with ⟨-, hspace, hempty⟩ | hstd
      · rcases lookup_held_cases hbefore with ⟨-, hspace', -⟩ | hstd'
        · exact hne (hspace.trans hspace'.symm)
        · exact hnonempty _ hstd' hempty
      · rcases lookup_held_cases hbefore with ⟨-, -, hempty⟩ | hstd'
        · exact hnonempty _ hstd hempty
        · exact hne (hstandard _ hstd _ hstd' rfl)
    · rcases lookup_held_cases hregistered with ⟨-, -, hempty⟩ | hstd
      · exact hnumbered i (hbefore.symm.trans hempty)
      · exact ne_numbered hstd i hbefore
  · rcases h.chosen entry hentry with hbefore | ⟨-, i, hi, hbefore⟩
    · rcases lookup_held_cases hbefore with ⟨-, -, hempty⟩ | hstd'
      · exact hnumbered _ (hfound.symm.trans hempty)
      · exact ne_numbered hstd' _ hfound
    · exact absurd (numbered_inj (hbefore.symm.trans hfound)) (Nat.ne_of_lt hi)

/-- **What one more name does**: nothing, or it brings a prefix for its namespace. -/
theorem assignName_cases (space : String) (assigned : Prefixes) (name : QName) :
    assignName (Prefixes.held space) assigned name = assigned ∧ Covered space assigned name ∨
      ∃ found, assignName (Prefixes.held space) assigned name = assigned ++ [(name.space, found)] ∧
        name.space ≠ "" ∧ assigned.lookup name.space = none ∧ found ≠ "xml" ∧
        ((Prefixes.held space).lookup name.space = some found ∨
          (Prefixes.held space).lookup name.space = none ∧ found = numbered assigned.length) := by
  unfold assignName
  split
  case isTrue hdone =>
    refine .inl ⟨rfl, ?_⟩
    rcases Bool.or_eq_true_iff.mp hdone with hempty | hfound
    · exact .inl (by simpa using hempty)
    · exact .inr (.inr hfound)
  case isFalse hnew =>
    obtain ⟨hempty, hnone⟩ := Bool.or_eq_false_iff.mp (Bool.eq_false_iff.mpr hnew)
    have hlookup : assigned.lookup name.space = none := by simpa using hnone
    have hne : name.space ≠ "" := by simpa using hempty
    have hchosen : (Prefixes.held space).lookup name.space
          = some (prefixFor (Prefixes.held space) assigned name.space) ∨
        (Prefixes.held space).lookup name.space = none ∧
          prefixFor (Prefixes.held space) assigned name.space = numbered assigned.length := by
      unfold prefixFor
      rw [hlookup]
      dsimp only
      split
      case h_1 hregistered => exact .inl hregistered
      case h_2 hregistered => exact .inr ⟨hregistered, rfl⟩
    generalize prefixFor (Prefixes.held space) assigned name.space = found at hchosen
    dsimp only
    split
    case isTrue hxml =>
      obtain rfl : found = "xml" := by simpa using hxml
      refine .inl ⟨rfl, .inr (.inl (hchosen.resolve_right fun ⟨_, heq⟩ => ?_))⟩
      exact ne_numbered (show (xmlSpace, "xml") ∈ Prefixes.standard by decide) _ heq
    case isFalse hxml => exact .inr ⟨found, rfl, hne, hlookup, by simpa using hxml, hchosen⟩

/-- A namespace that has a prefix keeps one. -/
theorem isSome_lookup_assignName {register : Prefixes} {other : String}
    (h : (assigned.lookup other).isSome = true) (name : QName) :
    ((assignName register assigned name).lookup other).isSome = true := by
  unfold assignName
  dsimp only
  split
  · exact h
  · split
    · exact h
    · rw [List.lookup_append, Option.isSome_or, h]
      rfl

/-- A prefix stays chosen, and so is that of one more name. -/
theorem chosen_assignName (h : ∀ entry ∈ assigned, Chosen space assigned.length entry)
    (name : QName) :
    let assigned' := Xml.assignName (Prefixes.held space) assigned name
    ∀ entry ∈ assigned', Chosen space assigned'.length entry := by
  intro assigned'
  rcases assignName_cases space assigned name with ⟨hsame, -⟩ | ⟨found, hmore, -, -, -, hchosen⟩
  · rwa [show assigned' = assigned from hsame]
  · rw [show assigned' = _ from hmore]
    have hlength : assigned.length < (assigned ++ [(name.space, found)]).length := by simp
    refine List.forall_mem_append.mpr ⟨fun entry hentry =>
      (h entry hentry).mono (Nat.le_of_lt hlength), List.forall_mem_singleton.mpr ?_⟩
    exact hchosen.imp_right fun ⟨hnone, heq⟩ => ⟨hnone, assigned.length, hlength, heq⟩

theorem Assigned.assignName (h : Assigned space assigned) {name : QName}
    (hname : Bindable name.space) :
    Assigned space (Xml.assignName (Prefixes.held space) assigned name) := by
  have hstays := chosen_assignName h.chosen name
  rcases assignName_cases space assigned name with ⟨hsame, -⟩ |
    ⟨found, hmore, hne, hlookup, hxml, hchosen⟩
  · rwa [hsame]
  · rw [hmore] at hstays ⊢
    refine ⟨?_, hstays, ?_, ?_⟩
    · exact List.forall_mem_append.mpr
        ⟨h.spaces, List.forall_mem_singleton.mpr ⟨hne, hname⟩⟩
    · exact List.forall_mem_append.mpr ⟨h.unreserved, List.forall_mem_singleton.mpr hxml⟩
    · rw [List.map_append, List.map_singleton]
      refine List.nodup_append.mpr ⟨h.distinct, List.nodup_singleton _, ?_⟩
      rintro a ha b hb rfl
      rw [List.mem_singleton.mp hb] at ha
      exact not_mem_of_chosen h hlookup hchosen ha

/-- A name stays covered. -/
theorem Covered.assignName {name : QName} (h : Covered space assigned name) (other : QName) :
    Covered space (Xml.assignName (Prefixes.held space) assigned other) name := by
  rcases assignName_cases space assigned other with ⟨hsame, -⟩ | ⟨found, hmore, -⟩
  · rwa [hsame]
  · rw [hmore]
    refine h.imp_right (Or.imp_right fun hfound => ?_)
    rw [List.lookup_append, Option.isSome_or, hfound]
    rfl

theorem covered_assignName (name : QName) :
    Covered space (Xml.assignName (Prefixes.held space) assigned name) name := by
  rcases assignName_cases space assigned name with ⟨hsame, hcovered⟩ | ⟨found, hmore, -⟩
  · rwa [hsame]
  · rw [hmore]
    refine .inr (.inr ?_)
    rw [List.lookup_append, Option.isSome_or]
    simp

theorem chosen_foldl {names : List QName}
    (h : ∀ entry ∈ assigned, Chosen space assigned.length entry) :
    let assigned' := names.foldl (Xml.assignName (Prefixes.held space)) assigned
    ∀ entry ∈ assigned', Chosen space assigned'.length entry := by
  induction names generalizing assigned with
  | nil => exact h
  | cons first names ih => exact ih (chosen_assignName h first)

theorem covered_foldl {names : List QName} {name : QName}
    (h : name ∈ names ∨ Covered space assigned name) :
    Covered space (names.foldl (Xml.assignName (Prefixes.held space)) assigned) name := by
  induction names generalizing assigned with
  | nil => exact h.resolve_left List.not_mem_nil
  | cons first names ih =>
    refine ih ?_
    rcases h with hmem | hbefore
    · rcases List.mem_cons.mp hmem with rfl | hmem
      · exact .inr (covered_assignName name)
      · exact .inl hmem
    · exact .inr (hbefore.assignName first)

theorem assigned_foldl {names : List QName} (hnames : ∀ name ∈ names, Bindable name.space)
    (h : Assigned space assigned) :
    Assigned space (names.foldl (Xml.assignName (Prefixes.held space)) assigned) := by
  induction names generalizing assigned with
  | nil => exact h
  | cons first names ih =>
    obtain ⟨hfirst, hothers⟩ := List.forall_mem_cons.mp hnames
    exact ih hothers (h.assignName hfirst)

end Assigned

/-! ## The names of a tree -/

/-- The names of a tree, an element's before those of its attributes. -/
def Node.names (node : Node) : List QName :=
  node.labels.flatMap Label.names

theorem every_mem_labels {P : Node → Prop} {node : Node} (h : node.Every P) :
    node.Every fun each => each.label ∈ node.labels := by
  induction h with
  | @intro node _ _ ih =>
    refine .intro (Node.mem_labels.mpr (.inl rfl)) fun child hchild => ?_
    exact (ih child hchild).mono fun each heach => Node.mem_labels.mpr (.inr ⟨child, hchild, heach⟩)

theorem Node.Every.exists_of_mem_labels {P : Node → Prop} {node : Node} (h : node.Every P) :
    ∀ label ∈ node.labels, ∃ each, P each ∧ each.label = label := by
  induction h with
  | @intro node here _ ih =>
    intro label hlabel
    rcases Node.mem_labels.mp hlabel with rfl | ⟨child, hchild, hinside⟩
    · exact ⟨node, here, rfl⟩
    · exact ih child hchild label hinside

theorem Sound.named {node : Node} (h : Sound node) {name : QName} {attributes : Attributes}
    (hlabel : node.label = .element name attributes) : SoundElement name attributes := by
  cases h with
  | element named _ _ =>
    cases hlabel
    exact named
  | comment => cases hlabel
  | instruction => cases hlabel

/-- The namespaces of a tree that was read can stand in declarations. -/
theorem bindable_of_mem_names {node : Node} (h : node.Every Sound) :
    ∀ name ∈ node.names, Bindable name.space := by
  intro name hname
  obtain ⟨label, hlabel, hmem⟩ := List.mem_flatMap.mp hname
  obtain ⟨each, heach, rfl⟩ := h.exists_of_mem_labels label hlabel
  cases hkind : each.label with
  | element element attributes =>
    have hnamed := heach.named hkind
    rw [hkind] at hmem
    rcases List.mem_cons.mp hmem with rfl | hattribute
    · exact hnamed.space
    · obtain ⟨entry, hentry, rfl⟩ := List.mem_map.mp hattribute
      exact hnamed.spaces entry hentry
  | comment =>
    rw [hkind] at hmem
    cases hmem
  | instruction =>
    rw [hkind] at hmem
    cases hmem

/-- **The prefixes that are assigned** to a tree, which cover its names. -/
theorem assigned_assign (space : String) {root : Node} (hsound : root.Every Sound) :
    Assigned space (assign (Prefixes.held space) root) ∧
      ∀ name ∈ root.names, Covered space (assign (Prefixes.held space) root) name := by
  have hnothing : Assigned space [] :=
    ⟨nofun, nofun, nofun, List.nodup_nil⟩
  exact ⟨assigned_foldl (bindable_of_mem_names hsound) hnothing, fun name hname =>
    covered_foldl (.inl hname)⟩

end Rollout.Xml
