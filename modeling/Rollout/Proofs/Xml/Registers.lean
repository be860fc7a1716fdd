import Mathlib.Data.List.Count
import Rollout.Proofs.Xml.Declarations

/-!
# One root under two registers

A root is written with the prefixes of a register. Two registers give the same text exactly when
they agree on the namespaces that the root has names in.

- `Prefixes.Regular`: registers that documents can leave.
- `Fits`, `fits_assign`, `exists_assigned`: the prefixes that a document assigns under a register.
- `writeRoot_congr`: registers that agree give the same text.
- `count_quote_write`: how many quotes a text has, for any prefixes.
- `declarations_inj`: declarations in order are read off a text, given how many there are.
- `writeRoot_eq_iff`: **two registers give one text** exactly when they agree.

The names of a root need not be well-formed for this: the number of declarations is told by the
number of quotes, which no prefix holds.
-/

namespace Rollout.Xml

/-! ## Registers -/

/-- The prefixes of a register are empty or names, and none is a numbered one. -/
structure Prefixes.Regular (register : Prefixes) : Prop where
  isName : ∀ entry ∈ register, entry.2 = "" ∨ IsName entry.2.toList
  unnumbered : ∀ entry ∈ register, ∀ i, entry.2 ≠ numbered i

theorem regular_standard : Prefixes.standard.Regular where
  isName := by decide +kernel
  unnumbered _ := ne_numbered

theorem numbered_ne_empty (i : Nat) : "" ≠ numbered i := fun hnil => by
  have hlist := congrArg String.toList hnil
  rw [toList_numbered] at hlist
  cases hlist

theorem Prefixes.Regular.holdDefault {register : Prefixes} (h : register.Regular)
    (space : String) : (register.holdDefault space).Regular where
  isName := List.forall_mem_append.mpr ⟨fun entry hentry =>
    h.isName entry (List.mem_filter.mp hentry).1, List.forall_mem_singleton.mpr (.inl rfl)⟩
  unnumbered := List.forall_mem_append.mpr ⟨fun entry hentry =>
    h.unnumbered entry (List.mem_filter.mp hentry).1,
    List.forall_mem_singleton.mpr numbered_ne_empty⟩

/-! ## Prefixes that are assigned -/

section Assigned

variable {register assigned : Prefixes}

/-- The prefix of a namespace is the registered one, or it is numbered where there is none. -/
def Fits (register : Prefixes) (entry : String × String) : Prop :=
  register.lookup entry.1 = some entry.2 ∨
    register.lookup entry.1 = none ∧ ∃ i, entry.2 = numbered i

theorem fits_prefixFor (h : ∀ entry ∈ assigned, Fits register entry) (space : String) :
    Fits register (space, prefixFor register assigned space) := by
  unfold prefixFor
  split
  case h_1 found hfound => exact h _ (mem_of_lookup hfound)
  case h_2 =>
    split
    case h_1 found hfound => exact .inl hfound
    case h_2 hnone => exact .inr ⟨hnone, _, rfl⟩

/-- A registered prefix is the one that fits. -/
theorem Fits.eq_of_lookup {entry : String × String} {pfx : String} (h : Fits register entry)
    (hlookup : register.lookup entry.1 = some pfx) : entry.2 = pfx := by
  rcases h with hregistered | ⟨hnone, -⟩
  · exact Option.some.inj (hregistered.symm.trans hlookup)
  · rw [hlookup] at hnone
    cases hnone

theorem Fits.isName {entry : String × String} (h : Fits register entry)
    (hregister : register.Regular) : entry.2 = "" ∨ IsName entry.2.toList := by
  rcases h with hregistered | ⟨-, i, hnumbered⟩
  · exact hregister.isName _ (mem_of_lookup hregistered)
  · exact .inr (hnumbered ▸ isName_numbered i)

/-- **What one more name does**: nothing, or it brings a prefix that fits. -/
theorem mem_assignName {entry : String × String} {name : QName}
    (h : ∀ entry ∈ assigned, Fits register entry ∧ entry.2 ≠ "xml")
    (hentry : entry ∈ assignName register assigned name) :
    Fits register entry ∧ entry.2 ≠ "xml" := by
  unfold assignName at hentry
  split at hentry
  · exact h entry hentry
  · dsimp only at hentry
    split at hentry
    case isTrue => exact h entry hentry
    case isFalse hxml =>
      rcases List.mem_append.mp hentry with hbefore | hnew
      · exact h entry hbefore
      · obtain rfl := List.mem_singleton.mp hnew
        exact ⟨fits_prefixFor (fun each heach => (h each heach).1) name.space, by simpa using hxml⟩

theorem fits_foldl {names : List QName}
    (h : ∀ entry ∈ assigned, Fits register entry ∧ entry.2 ≠ "xml") :
    ∀ entry ∈ names.foldl (assignName register) assigned,
      Fits register entry ∧ entry.2 ≠ "xml" := by
  induction names generalizing assigned with
  | nil => exact h
  | cons name names ih => exact ih fun _ hentry => mem_assignName h hentry

/-- The prefixes that a document assigns fit, and none of them is that of `xml`. -/
theorem fits_assign (register : Prefixes) (root : Node) :
    ∀ entry ∈ assign register root, Fits register entry ∧ entry.2 ≠ "xml" :=
  fits_foldl nofun

theorem subset_assignName (register assigned : Prefixes) (name : QName) :
    assigned ⊆ assignName register assigned name := by
  unfold assignName
  dsimp only
  split
  · exact List.Subset.refl _
  · split
    · exact List.Subset.refl _
    · exact List.subset_append_left ..

theorem exists_mem_assignName {name : QName} (hspace : name.space ≠ "")
    (hxml : prefixFor register assigned name.space ≠ "xml") :
    ∃ pfx, (name.space, pfx) ∈ assignName register assigned name := by
  unfold assignName
  dsimp only
  split
  case isTrue hdone =>
    have hfound : (assigned.lookup name.space).isSome = true := by simpa [hspace] using hdone
    obtain ⟨pfx, hpfx⟩ := Option.isSome_iff_exists.mp hfound
    exact ⟨pfx, mem_of_lookup hpfx⟩
  case isFalse =>
    rw [if_neg (by simpa using hxml)]
    exact ⟨_, List.mem_append_right _ (List.mem_singleton.mpr rfl)⟩

theorem subset_foldl (register : Prefixes) (names : List QName) (assigned : Prefixes) :
    assigned ⊆ names.foldl (assignName register) assigned := by
  induction names generalizing assigned with
  | nil => exact List.Subset.refl _
  | cons first names ih =>
    exact List.Subset.trans (subset_assignName register assigned first) (ih _)

/-- **A namespace with a name** in the document is assigned a prefix, unless it has that of
`xml`. -/
theorem exists_assigned {root : Node} {name : QName} (hname : name ∈ root.names)
    (hspace : name.space ≠ "") (hxml : register.lookup name.space ≠ some "xml") :
    ∃ pfx, (name.space, pfx) ∈ assign register root := by
  obtain ⟨before, behind, hsplit⟩ := List.append_of_mem hname
  have hassign : assign register root
      = behind.foldl (assignName register)
          (assignName register (before.foldl (assignName register) []) name) := by
    show root.names.foldl _ [] = _
    rw [hsplit, List.foldl_append, List.foldl_cons]
  have hbefore : ∀ entry ∈ before.foldl (assignName register) [], Fits register entry :=
    fun entry hentry => (fits_foldl (fun _ h => absurd h List.not_mem_nil) entry hentry).1
  generalize before.foldl (assignName register) [] = assigned at hassign hbefore
  have hgiven : prefixFor register assigned name.space ≠ "xml" := by
    intro heq
    have hfits := fits_prefixFor hbefore name.space
    rw [heq] at hfits
    rcases hfits with hregistered | ⟨-, i, hnumbered⟩
    · exact hxml hregistered
    · exact ne_numbered (show (xmlSpace, "xml") ∈ Prefixes.standard by decide) i hnumbered
  obtain ⟨pfx, hpfx⟩ := exists_mem_assignName hspace hgiven
  rw [hassign]
  exact ⟨pfx, subset_foldl _ _ _ hpfx⟩

end Assigned

/-! ## Registers that agree -/

section Agree

variable {register register' : Prefixes}

theorem prefixFor_congr {space : String} (h : register.lookup space = register'.lookup space)
    (assigned : Prefixes) :
    prefixFor register assigned space = prefixFor register' assigned space := by
  unfold prefixFor
  rw [h]

theorem assignName_congr {name : QName}
    (h : name.space ≠ "" → register.lookup name.space = register'.lookup name.space)
    (assigned : Prefixes) :
    assignName register assigned name = assignName register' assigned name := by
  by_cases hspace : name.space = ""
  · unfold assignName
    rw [hspace]
    rfl
  · unfold assignName
    rw [prefixFor_congr (h hspace)]

theorem writtenName_congr {name : QName}
    (h : name.space ≠ "" → register.lookup name.space = register'.lookup name.space)
    (assigned : Prefixes) :
    writtenName register assigned name = writtenName register' assigned name := by
  by_cases hspace : name.space = ""
  · unfold writtenName
    rw [hspace]
    rfl
  · unfold writtenName
    rw [prefixFor_congr (h hspace)]

theorem foldl_assignName_congr {names : List QName}
    (h : ∀ name ∈ names, name.space ≠ "" →
      register.lookup name.space = register'.lookup name.space) (assigned : Prefixes) :
    names.foldl (assignName register) assigned = names.foldl (assignName register') assigned := by
  induction names generalizing assigned with
  | nil => rfl
  | cons name names ih =>
    obtain ⟨hname, hnames⟩ := List.forall_mem_cons.mp h
    rw [List.foldl_cons, List.foldl_cons, assignName_congr hname, ih hnames]

theorem mem_names_element {other name : QName} {attributes : Attributes} {text tail : Option String}
    {children : List Node} :
    other ∈ Node.names ⟨.element name attributes, text, children, tail⟩ ↔
      other = name ∨ (∃ entry ∈ attributes, other = entry.1) ∨
        ∃ child ∈ children, other ∈ child.names := by
  have hchildren : (Node.labelsAll children).flatMap Label.names = children.flatMap Node.names := by
    rw [Node.labelsAll_eq_flatMap, List.flatMap_assoc]
    rfl
  have hnames : Node.names ⟨.element name attributes, text, children, tail⟩
      = name :: attributes.map Prod.fst ++ children.flatMap Node.names := by
    rw [← hchildren]
    rfl
  rw [hnames]
  simp only [List.cons_append, List.mem_cons, List.mem_append, List.mem_map, List.mem_flatMap,
    @eq_comm _ other]

mutual

/-- A tree is written with its own names only. -/
theorem write_congr {nameOf nameOf' : QName → List Char} (declarations : List Char) :
    (node : Node) → (∀ name ∈ node.names, nameOf name = nameOf' name) →
      node.write nameOf declarations = node.write nameOf' declarations
  | ⟨.comment, _, _, _⟩, _ => rfl
  | ⟨.instruction, _, _, _⟩, _ => rfl
  | ⟨.element name attributes, text, children, tail⟩, h => by
    have hname := h name (mem_names_element.mpr (.inl rfl))
    have hattributes : attributes.flatMap (writeAttribute nameOf)
        = attributes.flatMap (writeAttribute nameOf') := by
      refine List.flatMap_congr fun entry hentry => ?_
      unfold writeAttribute
      rw [h entry.1 (mem_names_element.mpr (.inr (.inl ⟨entry, hentry, rfl⟩)))]
    have hchildren := writeAll_congr children fun child hchild other hother =>
      h other (mem_names_element.mpr (.inr (.inr ⟨child, hchild, hother⟩)))
    rw [Node.write, Node.write, hname, hattributes, hchildren]

theorem writeAll_congr {nameOf nameOf' : QName → List Char} :
    (nodes : List Node) → (∀ node ∈ nodes, ∀ name ∈ node.names, nameOf name = nameOf' name) →
      writeAll nameOf nodes = writeAll nameOf' nodes
  | [], _ => rfl
  | node :: nodes, h => by
    obtain ⟨hnode, hnodes⟩ := List.forall_mem_cons.mp h
    rw [writeAll, writeAll, write_congr [] node hnode, writeAll_congr nodes hnodes]

end

/-- **Registers that agree** on the namespaces of a root give the same text. -/
theorem writeRoot_congr {root : Node}
    (h : ∀ name ∈ root.names, name.space ≠ "" →
      register.lookup name.space = register'.lookup name.space) :
    writeRoot register root = writeRoot register' root := by
  have hassign : assign register root = assign register' root := foldl_assignName_congr h []
  unfold writeRoot
  dsimp only
  rw [hassign]
  exact write_congr _ root fun name hname => writtenName_congr (h name hname) _

end Agree

/-! ## Quotes -/

section Quotes

variable {register assigned : Prefixes}

/-- No prefix holds a character that names do not have. -/
theorem Fits.not_mem {entry : String × String} (h : Fits register entry)
    (hregister : register.Regular) {c : Char} (hc : isNameChar c = false) :
    c ∉ entry.2.toList := by
  rcases h.isName hregister with hnil | hname
  · rw [hnil]
    exact List.not_mem_nil
  · exact fun hmem => ne_of_class (hname.isNameChar c hmem) hc rfl

/-- A prefix brings no quote. -/
theorem count_quote_writtenName (hregister : register.Regular)
    (h : ∀ entry ∈ assigned, Fits register entry) (name : QName) :
    (writtenName register assigned name).count '"' = name.name.toList.count '"' := by
  have hgiven := (fits_prefixFor h name.space).not_mem hregister
    (show isNameChar '"' = false by decide +kernel)
  unfold writtenName
  split
  · rfl
  · split
    · rfl
    · rw [List.count_append, List.count_eq_zero.mpr hgiven, List.count_cons, Nat.zero_add]
      rfl

mutual

/-- Names with as many quotes give trees with as many. -/
theorem count_quote_write {nameOf nameOf' : QName → List Char}
    (h : ∀ name, (nameOf name).count '"' = (nameOf' name).count '"') : (node : Node) →
    (node.write nameOf []).count '"' = (node.write nameOf' []).count '"'
  | ⟨.comment, _, _, _⟩ => rfl
  | ⟨.instruction, _, _, _⟩ => rfl
  | ⟨.element name attributes, text, children, tail⟩ => by
    have hattributes : (attributes.flatMap (writeAttribute nameOf)).count '"'
        = (attributes.flatMap (writeAttribute nameOf')).count '"' := by
      rw [List.count_flatMap, List.count_flatMap]
      refine congrArg List.sum (List.map_congr_left fun entry _ => ?_)
      simp only [Function.comp, writeAttribute, List.count_append, List.count_cons, h]
    have hchildren := count_quote_writeAll h children
    rw [Node.write, Node.write]
    split <;> simp only [List.count_append, List.count_cons, h, hattributes, hchildren]

theorem count_quote_writeAll {nameOf nameOf' : QName → List Char}
    (h : ∀ name, (nameOf name).count '"' = (nameOf' name).count '"') : (nodes : List Node) →
    (writeAll nameOf nodes).count '"' = (writeAll nameOf' nodes).count '"'
  | [] => rfl
  | node :: nodes => by
    rw [writeAll, writeAll, List.count_append, List.count_append, count_quote_write h node,
      count_quote_writeAll h nodes]

end

/-- A value in quotes has two of them. -/
theorem count_quote_quotedValue (value : String) : (quotedValue value).count '"' = 2 := by
  unfold quotedValue
  rw [List.cons_append, List.count_cons, List.count_append,
    List.count_eq_zero.mpr (not_mem_escapeAttribute value)]
  rfl

/-- **Every declaration** brings two quotes. -/
theorem count_quote_declarations (hregister : register.Regular)
    (h : ∀ entry ∈ assigned, Fits register entry) :
    (writeDeclarations assigned).count '"' = 2 * assigned.length := by
  have hperm := perm_declarations assigned
  have heach : ∀ entry ∈ assigned.foldr insertDeclaration [],
      (writeDeclaration entry).count '"' = 2 := by
    intro entry hentry
    have hgiven := (h entry (hperm.mem_iff.mp hentry)).not_mem hregister
      (show isNameChar '"' = false by decide +kernel)
    have hmark : (if entry.2.isEmpty then [] else ':' :: entry.2.toList).count '"' = 0 := by
      split
      · rfl
      · rw [List.count_cons, List.count_eq_zero.mpr hgiven]
        rfl
    unfold writeDeclaration
    dsimp only
    rw [List.count_append, List.count_append, hmark, List.count_cons, count_quote_quotedValue]
    rfl
  unfold writeDeclarations
  have htwo : (assigned.foldr insertDeclaration []).map (List.count '"' ∘ writeDeclaration)
      = (assigned.foldr insertDeclaration []).map fun _ => 2 := List.map_congr_left heach
  rw [List.count_flatMap, htwo, List.map_const', List.sum_replicate_nat, hperm.length_eq,
    Nat.mul_comm]

theorem count_quote_root (nameOf : QName → List Char) (declarations : List Char) (name : QName)
    (attributes : Attributes) (text tail : Option String) (children : List Node) :
    (Node.write nameOf declarations ⟨.element name attributes, text, children, tail⟩).count '"'
      = declarations.count '"'
        + (Node.write nameOf [] ⟨.element name attributes, text, children, tail⟩).count '"' := by
  rw [Node.write, Node.write]
  simp only [List.count_append, List.count_cons, List.count_nil]
  omega

end Quotes

/-! ## Declarations -/

/-- A text up to a mark that it does not hold, and what follows the mark. -/
theorem append_mark_inj {c : Char} {a b x y : List Char} (ha : c ∉ a) (hb : c ∉ b)
    (h : a ++ c :: x = b ++ c :: y) : a = b ∧ x = y := by
  have hspan : ∀ {run rest : List Char}, c ∉ run →
      (run ++ c :: rest).span (· != c) = (run, c :: rest) := fun hrun =>
    span_eq_iff.mpr ⟨rfl, fun d hd => bne_iff_ne.mpr fun heq => hrun (heq ▸ hd), by simp⟩
  have hpair := (hspan ha).symm.trans ((congrArg (List.span (· != c)) h).trans (hspan hb))
  obtain ⟨hrun, hrest⟩ := Prod.mk.inj hpair
  exact ⟨hrun, (List.cons.inj hrest).2⟩

theorem escapeAttribute_inj {value value' : String}
    (h : escapeAttribute value = escapeAttribute value') : value = value' := by
  have hread := normalizeValue_escapeAttribute value
  rw [h, normalizeValue_escapeAttribute] at hread
  exact (Option.some.inj hread).symm

/-- What a declaration has in front of its address. -/
def declarationMark (pfx : String) : List Char :=
  " xmlns".toList ++ if pfx.isEmpty then [] else ':' :: pfx.toList

theorem declarationMark_inj {pfx pfx' : String} (h : declarationMark pfx = declarationMark pfx') :
    pfx = pfx' := by
  have hmark := List.append_cancel_left h
  by_cases hempty : pfx = "" <;> by_cases hempty' : pfx' = ""
  · rw [hempty, hempty']
  · simp [hempty, hempty'] at hmark
  · simp [hempty, hempty'] at hmark
  · exact String.toList_inj.mp (by simpa [hempty, hempty'] using hmark)

/-- **One declaration** is read off the front of a text. -/
theorem writeDeclaration_inj {entry entry' : String × String} {x y : List Char}
    (hentry : '=' ∉ entry.2.toList) (hentry' : '=' ∉ entry'.2.toList)
    (h : writeDeclaration entry ++ x = writeDeclaration entry' ++ y) : entry = entry' ∧ x = y := by
  have htext : ∀ (entry : String × String) (x : List Char), writeDeclaration entry ++ x
      = declarationMark entry.2 ++ '=' :: '"' :: (escapeAttribute entry.1 ++ '"' :: x) := by
    intro entry x
    unfold writeDeclaration declarationMark quotedValue
    simp only [List.append_assoc, List.cons_append, List.nil_append]
  have hmark : ∀ {pfx : String}, '=' ∉ pfx.toList → '=' ∉ declarationMark pfx := by
    intro pfx hpfx
    unfold declarationMark
    split <;> simp [hpfx]
  rw [htext, htext] at h
  obtain ⟨hgiven, hvalue⟩ := append_mark_inj (hmark hentry) (hmark hentry') h
  obtain ⟨hspace, hrest⟩ := append_mark_inj (not_mem_escapeAttribute _) (not_mem_escapeAttribute _)
    (List.cons.inj hvalue).2
  exact ⟨Prod.ext (escapeAttribute_inj hspace) (declarationMark_inj hgiven), hrest⟩

/-- **As many declarations** are read off the front of a text. -/
theorem declarations_inj {entries entries' : Prefixes} {x y : List Char}
    (hentries : ∀ entry ∈ entries, '=' ∉ entry.2.toList)
    (hentries' : ∀ entry ∈ entries', '=' ∉ entry.2.toList)
    (hlength : entries.length = entries'.length)
    (h : entries.flatMap writeDeclaration ++ x = entries'.flatMap writeDeclaration ++ y) :
    entries = entries' := by
  induction entries generalizing entries' with
  | nil => exact (List.length_eq_zero_iff.mp hlength.symm).symm
  | cons entry entries ih =>
    obtain _ | ⟨entry', entries'⟩ := entries'
    · cases hlength
    obtain ⟨hfirst, hothers⟩ := List.forall_mem_cons.mp hentries
    obtain ⟨hfirst', hothers'⟩ := List.forall_mem_cons.mp hentries'
    rw [List.flatMap_cons, List.flatMap_cons, List.append_assoc, List.append_assoc] at h
    obtain ⟨rfl, hrest⟩ := writeDeclaration_inj hfirst hfirst' h
    rw [ih hothers hothers' (Nat.succ_inj.mp hlength) hrest]

/-! ## Two registers -/

section Registers

variable {register register' : Prefixes} {root : Node} {name : QName} {attributes : Attributes}

/-- The root has no namespace, or one that holds the empty prefix. -/
def OwnsPrefix (register : Prefixes) (name : QName) : Prop :=
  name.space = "" ∨ register.lookup name.space = some ""

theorem OwnsPrefix.pfx_writtenTag (h : OwnsPrefix register name) {assigned : Prefixes}
    (hassigned : ∀ entry ∈ assigned, Fits register entry) :
    (writtenTag register assigned name).pfx = [] := by
  unfold writtenTag
  split
  · rfl
  case isFalse hspace =>
    have hregistered := h.resolve_left (by simpa using hspace)
    have hempty := (fits_prefixFor hassigned name.space).eq_of_lookup hregistered
    dsimp only at hempty
    rw [hempty]
    rfl

theorem OwnsPrefix.writtenName_eq (h : OwnsPrefix register name) {assigned : Prefixes}
    (hassigned : ∀ entry ∈ assigned, Fits register entry) :
    writtenName register assigned name = name.name.toList := by
  rw [Xml.writtenName_eq, rawName, TagName.raw, h.pfx_writtenTag hassigned]
  rfl

/-- **The declarations** of a root are told by its text. -/
theorem mem_assign_iff (hregister : register.Regular) (hregister' : register'.Regular)
    (hlabel : root.label = .element name attributes) (hown : OwnsPrefix register name)
    (hown' : OwnsPrefix register' name)
    (h : writeRoot register root = writeRoot register' root) (entry : String × String) :
    entry ∈ assign register root ↔ entry ∈ assign register' root := by
  have hfits := fun entry hentry => (fits_assign register root entry hentry).1
  have hfits' := fun entry hentry => (fits_assign register' root entry hentry).1
  unfold writeRoot at h
  dsimp only at h
  generalize assign register root = assigned at *
  generalize assign register' root = assigned' at *
  obtain ⟨_, text, children, tail⟩ := root
  obtain rfl : _ = _ := hlabel
  -- as many quotes means as many declarations
  have hlength : assigned.length = assigned'.length := by
    have hquotes := congrArg (List.count '"') h
    have hnames : ∀ name, (writtenName register assigned name).count '"'
        = (writtenName register' assigned' name).count '"' := fun name =>
      (count_quote_writtenName hregister hfits name).trans
        (count_quote_writtenName hregister' hfits' name).symm
    rw [count_quote_root (writtenName register assigned),
      count_quote_root (writtenName register' assigned'), count_quote_write hnames,
      count_quote_declarations hregister hfits,
      count_quote_declarations hregister' hfits'] at hquotes
    omega
  have hperm := perm_declarations assigned
  have hperm' := perm_declarations assigned'
  have hsorted : assigned.foldr insertDeclaration [] = assigned'.foldr insertDeclaration [] := by
    have hplain : isNameChar '=' = false := by decide +kernel
    rw [Node.write, Node.write, hown.writtenName_eq hfits, hown'.writtenName_eq hfits'] at h
    simp only [List.cons_append, List.append_assoc, List.cons.injEq, true_and,
      List.append_cancel_left_eq] at h
    exact declarations_inj
      (fun entry hentry => (hfits entry (hperm.mem_iff.mp hentry)).not_mem hregister hplain)
      (fun entry hentry => (hfits' entry (hperm'.mem_iff.mp hentry)).not_mem hregister' hplain)
      (hperm.length_eq.trans (hlength.trans hperm'.length_eq.symm)) h
  rw [← hperm.mem_iff, hsorted, hperm'.mem_iff]

/-- A registered prefix is kept where the declarations are. -/
theorem lookup_of_mem_assign_iff (hregister : register.Regular)
    (h : ∀ entry, entry ∈ assign register root ↔ entry ∈ assign register' root)
    {other : QName} (hother : other ∈ root.names) (hspace : other.space ≠ "") {pfx : String}
    (hlookup : register.lookup other.space = some pfx) :
    register'.lookup other.space = some pfx := by
  by_cases hxml : pfx = "xml"
  · -- the prefix of `xml` is not declared, so that it is not declared under the other one either
    subst hxml
    by_contra hne
    obtain ⟨found, hfound⟩ := exists_assigned hother hspace hne
    obtain ⟨hfits, hfree⟩ := fits_assign register root _ ((h _).mpr hfound)
    exact hfree (hfits.eq_of_lookup hlookup)
  · have hne : register.lookup other.space ≠ some "xml" := by
      rw [hlookup]
      exact fun heq => hxml (Option.some.inj heq)
    obtain ⟨found, hfound⟩ := exists_assigned hother hspace hne
    have hpfx : found = pfx := (fits_assign register root _ hfound).1.eq_of_lookup hlookup
    rcases (fits_assign register' root _ ((h _).mp hfound)).1 with hregistered | ⟨-, i, hnumbered⟩
    · exact hpfx ▸ hregistered
    · exact absurd (hpfx.symm.trans hnumbered) (hregister.unnumbered _ (mem_of_lookup hlookup) i)

/-- **Two registers give one text** exactly when they agree on the namespaces of the root. -/
theorem writeRoot_eq_iff (hregister : register.Regular) (hregister' : register'.Regular)
    (hlabel : root.label = .element name attributes) (hown : OwnsPrefix register name)
    (hown' : OwnsPrefix register' name) :
    writeRoot register root = writeRoot register' root ↔
      ∀ other ∈ root.names, other.space ≠ "" →
        register.lookup other.space = register'.lookup other.space := by
  refine ⟨fun h other hother hspace => ?_, writeRoot_congr⟩
  have hmem := mem_assign_iff hregister hregister' hlabel hown hown' h
  refine Option.ext fun pfx => ⟨?_, ?_⟩
  · exact lookup_of_mem_assign_iff hregister hmem hother hspace
  · exact lookup_of_mem_assign_iff hregister' (fun entry => (hmem entry).symm) hother hspace

end Registers

end Rollout.Xml
