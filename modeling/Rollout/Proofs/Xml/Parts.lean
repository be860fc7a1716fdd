import Rollout.Proofs.Xml.Marks
import Rollout.Text.Blank

/-!
# The parts of markup

What each of the small scanners accepts, as an equation: the characters it takes are a part of its
kind, and it takes them whatever follows.

- `IsName`, `IsTagName`: names; `scanName_eq_some`, `scanTagName_eq_some`.
- `scanComment_eq_some`, `scanInstruction_eq_some`, `scanData_eq_some`: verbatim parts.
- `TagName.raw`: a name as a tag writes it.
- `unmarked_unifyNewlineChars`: unified line ends make no mark.
-/

namespace Rollout.Xml

/-! ## Characters -/

theorem has_of_mem {ranges : Text.Ranges} {run : Nat × Nat} {code : Nat} (hrun : run ∈ ranges)
    (h : run.1 ≤ code ∧ code ≤ run.2) : ranges.has code = true :=
  List.any_eq_true.mpr ⟨run, hrun, by simpa using h⟩

theorem exists_mem_of_has {ranges : Text.Ranges} {code : Nat} (h : ranges.has code = true) :
    ∃ run ∈ ranges, run.1 ≤ code ∧ code ≤ run.2 := by
  obtain ⟨run, hrun, hcode⟩ := List.any_eq_true.mp h
  exact ⟨run, hrun, by simpa using hcode⟩

/-- What begins a name may also continue one. -/
theorem isNameChar_of_isNameStart {c : Char} (h : isNameStart c = true) : isNameChar c = true := by
  -- every run of the one table lies in a run of the other
  have htable : (nameStartRanges.all fun run =>
      nameRanges.any fun wider => wider.1.ble run.1 && run.2.ble wider.2) = true := by
    decide +kernel
  obtain ⟨run, hrun, hlow, hhigh⟩ := exists_mem_of_has h
  obtain ⟨wider, hwider, hinside⟩ := List.any_eq_true.mp (List.all_eq_true.mp htable run hrun)
  obtain ⟨hfirst, hlast⟩ := Bool.and_eq_true_iff.mp hinside
  exact has_of_mem hwider ⟨Nat.le_trans (Nat.le_of_ble_eq_true hfirst) hlow,
    Nat.le_trans hhigh (Nat.le_of_ble_eq_true hlast)⟩

/-- The characters of names may occur in documents. -/
theorem isLegal_of_isNameChar {c : Char} (h : isNameChar c = true) : isLegal c = true := by
  have htable : ∀ run ∈ nameRanges, 0x20 ≤ run.1 ∧ run.2 ≤ 0xD7FF := by decide +kernel
  obtain ⟨run, hrun, hlow, hhigh⟩ := exists_mem_of_has h
  obtain ⟨hfirst, hlast⟩ := htable run hrun
  have hcode : 0x20 ≤ c.toNat ∧ c.toNat ≤ 0xD7FF := by omega
  unfold isLegal isLegalCode
  simp [hcode]

/-- The characters are ones that a document may hold. -/
def Legal (cs : List Char) : Prop :=
  ∀ c ∈ cs, isLegal c = true

instance (cs : List Char) : Decidable (Legal cs) :=
  decidable_of_iff (cs.all isLegal = true) List.all_eq_true

theorem legal_append {a b : List Char} : Legal (a ++ b) ↔ Legal a ∧ Legal b :=
  List.forall_mem_append

/-- Characters of a class differ from those outside it. -/
theorem ne_of_class {p : Char → Bool} {c d : Char} (hc : p c = true) (hd : p d = false) :
    c ≠ d := by
  rintro rfl
  rw [hc] at hd
  cases hd

theorem isSpace_cases {c : Char} (h : isSpace c = true) :
    c = ' ' ∨ c = '\t' ∨ c = '\n' ∨ c = '\r' := by
  unfold isSpace at h
  simpa [or_assoc] using h

/-- White space of the grammar is blank. -/
theorem isBlank_of_isSpace {c : Char} (h : isSpace c = true) : Text.isBlank c = true := by
  rcases isSpace_cases h with rfl | rfl | rfl | rfl <;> decide

theorem not_isSpace_of_isNameChar {c : Char} (h : isNameChar c = true) : isSpace c = false := by
  rw [Bool.eq_false_iff]
  intro hspace
  rcases isSpace_cases hspace with rfl | rfl | rfl | rfl <;> exact absurd h (by decide +kernel)

/-! ## Names -/

/-- A name without a colon. -/
def IsName (cs : List Char) : Prop :=
  ∃ c more, cs = c :: more ∧ isNameStart c = true ∧ ∀ d ∈ more, isNameChar d = true

theorem isName_cons {c : Char} {more : List Char} :
    IsName (c :: more) ↔ isNameStart c = true ∧ more.all isNameChar = true := by
  rw [List.all_eq_true]
  constructor
  · rintro ⟨_, _, ⟨⟩, hc, hmore⟩
    exact ⟨hc, hmore⟩
  · rintro ⟨hc, hmore⟩
    exact ⟨c, more, rfl, hc, hmore⟩

instance : (cs : List Char) → Decidable (IsName cs)
  | [] => isFalse fun ⟨_, _, heq, _⟩ => nomatch heq
  | _ :: _ => decidable_of_iff _ isName_cons.symm

theorem IsName.isNameChar {cs : List Char} (h : IsName cs) : ∀ c ∈ cs, isNameChar c = true := by
  obtain ⟨c, more, rfl, hc, hmore⟩ := h
  intro d hd
  rcases List.mem_cons.mp hd with rfl | hd
  · exact isNameChar_of_isNameStart hc
  · exact hmore d hd

theorem IsName.ne_nil {cs : List Char} (h : IsName cs) : cs ≠ [] := by
  obtain ⟨c, more, rfl, -⟩ := h
  exact List.cons_ne_nil _ _

/-- **A name is scanned** up to the first character that no name has. -/
theorem scanName_eq_some {cs name rest : List Char} : scanName cs = some (name, rest) ↔
    cs = name ++ rest ∧ IsName name ∧ StopsAt isNameChar rest := by
  constructor
  · intro h
    cases cs with
    | nil => cases h
    | cons c cs =>
      rw [scanName] at h
      split at h
      case isTrue hc =>
        cases hspan : cs.span isNameChar with | mk more stop =>
        rw [hspan] at h
        cases h
        obtain ⟨rfl, hmore, hstop⟩ := span_eq_iff.mp hspan
        exact ⟨rfl, ⟨c, more, rfl, hc, hmore⟩, hstop⟩
      case isFalse => cases h
  · rintro ⟨rfl, ⟨c, more, rfl, hc, hmore⟩, hstop⟩
    show scanName (c :: (more ++ rest)) = _
    rw [scanName, if_pos hc, span_eq_iff.mpr ⟨rfl, hmore, hstop⟩]

/-- The name as a tag writes it. -/
def TagName.raw (tag : TagName) : List Char :=
  if tag.pfx.isEmpty then tag.name else tag.pfx ++ ':' :: tag.name

/-- A name that a tag can write. -/
structure IsTagName (tag : TagName) : Prop where
  name : IsName tag.name
  pfx : tag.pfx = [] ∨ IsName tag.pfx

/-- Whether `c` may stand in a name as a tag writes it. -/
def isTagNameChar (c : Char) : Bool :=
  isNameChar c || c == ':'

theorem IsTagName.isTagNameChar {tag : TagName} (h : IsTagName tag) :
    ∀ c ∈ tag.raw, isTagNameChar c = true := by
  have hpart : ∀ cs, IsName cs → ∀ c ∈ cs, Xml.isTagNameChar c = true := fun cs hcs c hc => by
    unfold Xml.isTagNameChar
    rw [hcs.isNameChar c hc, Bool.true_or]
  intro c hc
  unfold TagName.raw at hc
  split at hc
  · exact hpart _ h.name c hc
  case isFalse hne =>
    have hpfx : IsName tag.pfx := h.pfx.resolve_left fun hnil => hne (by rw [hnil]; rfl)
    rcases List.mem_append.mp hc with hc | hc
    · exact hpart _ hpfx c hc
    · rcases List.mem_cons.mp hc with rfl | hc
      · decide +kernel
      · exact hpart _ h.name c hc

/-- The first character of a tag's name begins a name. -/
theorem IsTagName.exists_raw {tag : TagName} (h : IsTagName tag) :
    ∃ c more, tag.raw = c :: more ∧ isNameStart c = true := by
  unfold TagName.raw
  split
  · obtain ⟨c, more, hname, hc, -⟩ := h.name
    exact ⟨c, more, hname, hc⟩
  case isFalse hne =>
    have hpfx : IsName tag.pfx := h.pfx.resolve_left fun hnil => hne (by rw [hnil]; rfl)
    obtain ⟨c, more, hname, hc, -⟩ := hpfx
    exact ⟨c, more ++ ':' :: tag.name, by rw [hname]; rfl, hc⟩

/-- What is scanned as a tag's name is one. -/
theorem scanTagName_eq_some {cs rest : List Char} {tag : TagName}
    (h : scanTagName cs = some (tag, rest)) : cs = tag.raw ++ rest ∧ IsTagName tag := by
  unfold scanTagName at h
  split at h
  case h_1 => cases h
  case h_2 first more hscan =>
    obtain ⟨rfl, hfirst, -⟩ := scanName_eq_some.mp hscan
    obtain ⟨⟨second, stop⟩, hsecond, heq⟩ := Option.map_eq_some_iff.mp h
    cases heq
    obtain ⟨rfl, hname, -⟩ := scanName_eq_some.mp hsecond
    refine ⟨?_, hname, .inr hfirst⟩
    unfold TagName.raw
    rw [if_neg (by simpa using hfirst.ne_nil)]
    simp
  case h_3 only stop _ hscan =>
    obtain ⟨rfl, honly, -⟩ := scanName_eq_some.mp hscan
    cases h
    exact ⟨rfl, honly, .inl rfl⟩

/-- **A tag's name is scanned** up to a character that no such name has. -/
theorem scanTagName_raw {tag : TagName} (h : IsTagName tag) {rest : List Char}
    (hstop : StopsAt isTagNameChar rest) : scanTagName (tag.raw ++ rest) = some (tag, rest) := by
  have hname : StopsAt isNameChar rest := hstop.mono fun c hc => by
    unfold isTagNameChar
    rw [hc, Bool.true_or]
  obtain ⟨pfx, name⟩ := tag
  unfold TagName.raw scanTagName
  dsimp only
  rcases h.pfx with hnil | hpfx
  · obtain rfl : pfx = [] := hnil
    rw [List.isEmpty_nil, if_pos rfl, scanName_eq_some.mpr ⟨rfl, h.name, hname⟩]
    cases rest with
    | nil => rfl
    | cons c rest =>
      -- a colon behind the name would make it a prefix
      have hcolon : c ≠ ':' := by
        rintro rfl
        exact absurd (stopsAt_cons.mp hstop) (by decide +kernel)
      split
      case h_1 heq => cases heq
      case h_2 heq =>
        cases heq
        exact absurd rfl hcolon
      case h_3 heq =>
        cases heq
        rfl
  · have hcolon : StopsAt isNameChar (':' :: (name ++ rest)) :=
      stopsAt_cons.mpr (by decide +kernel)
    have hne : ¬ pfx.isEmpty = true := by simpa using hpfx.ne_nil
    have hscan : scanName (pfx ++ ':' :: (name ++ rest)) = some (pfx, ':' :: (name ++ rest)) :=
      scanName_eq_some.mpr ⟨rfl, hpfx, hcolon⟩
    rw [if_neg hne, List.append_assoc, List.cons_append, hscan]
    show Option.map _ (scanName (name ++ rest)) = _
    rw [scanName_eq_some.mpr ⟨rfl, h.name, hname⟩]
    rfl

/-! ## Line ends -/

section LineEnds

theorem unifyNewlineChars_return {cs : List Char} (h : ∀ more, cs ≠ '\n' :: more) :
    Text.unifyNewlineChars ('\r' :: cs) = '\n' :: Text.unifyNewlineChars cs := by
  rw [Text.unifyNewlineChars]
  exact h

/-- A carriage return becomes a line feed, whatever follows it. -/
theorem exists_unifyNewlineChars_return (cs : List Char) :
    ∃ more, Text.unifyNewlineChars ('\r' :: cs) = '\n' :: more := by
  unfold Text.unifyNewlineChars
  split
  case h_1 => exact ⟨_, rfl⟩
  case h_2 => exact ⟨_, rfl⟩
  case h_3 hne heq => exact absurd (List.cons.inj heq).1.symm hne
  case h_4 heq => cases heq

theorem unifyNewlineChars_cons {c : Char} {cs : List Char} (h : c ≠ '\r') :
    Text.unifyNewlineChars (c :: cs) = c :: Text.unifyNewlineChars cs := by
  rw [Text.unifyNewlineChars]
  · exact fun more hc _ => h hc
  · exact h

/-- No carriage return is left. -/
theorem not_mem_unifyNewlineChars (cs : List Char) : '\r' ∉ Text.unifyNewlineChars cs := by
  induction cs using Text.unifyNewlineChars.induct with
  | case1 cs ih => simpa [Text.unifyNewlineChars] using ih
  | case2 cs hcs ih =>
    rw [unifyNewlineChars_return hcs]
    simpa using ih
  | case3 c cs _ hc ih =>
    rw [unifyNewlineChars_cons hc]
    intro hmem
    rcases List.mem_cons.mp hmem with heq | hmem
    · exact hc heq.symm
    · exact ih hmem
  | case4 => exact List.not_mem_nil

/-- Without a carriage return there is nothing to do. -/
theorem unifyNewlineChars_of_not_mem : ∀ {cs : List Char}, '\r' ∉ cs →
    Text.unifyNewlineChars cs = cs
  | [], _ => rfl
  | c :: cs, h => by
    have hc : c ≠ '\r' := fun heq => h (by rw [heq]; exact List.mem_cons_self ..)
    have hcs : '\r' ∉ cs := fun hmem => h (List.mem_cons_of_mem _ hmem)
    rw [unifyNewlineChars_cons hc, unifyNewlineChars_of_not_mem hcs]

theorem legal_unifyNewlineChars {cs : List Char} (h : Legal cs) :
    Legal (Text.unifyNewlineChars cs) := by
  have hfeed : isLegal '\n' = true := by decide
  induction cs using Text.unifyNewlineChars.induct with
  | case1 cs ih =>
    have hcs : Legal cs := fun c hc => h c (by simp [hc])
    exact List.forall_mem_cons.mpr ⟨hfeed, ih hcs⟩
  | case2 cs hcs ih =>
    rw [unifyNewlineChars_return hcs]
    exact List.forall_mem_cons.mpr ⟨hfeed, ih (List.forall_mem_cons.mp h).2⟩
  | case3 c cs _ hc ih =>
    obtain ⟨hfirst, hrest⟩ := List.forall_mem_cons.mp h
    rw [unifyNewlineChars_cons hc]
    exact List.forall_mem_cons.mpr ⟨hfirst, ih hrest⟩
  | case4 => exact h

/-- What does not begin with white space still does not. -/
theorem stopsAt_unifyNewlineChars {cs : List Char} (h : StopsAt isSpace cs) :
    StopsAt isSpace (Text.unifyNewlineChars cs) := by
  cases cs with
  | nil => exact stopsAt_nil
  | cons c cs =>
    have hspace : isSpace c = false := stopsAt_cons.mp h
    have hc : c ≠ '\r' := by
      rintro rfl
      exact absurd hspace (by decide)
    rw [unifyNewlineChars_cons hc]
    exact stopsAt_cons.mpr hspace

/-- Unified line ends make no mark of two other characters. -/
theorem unmarked_unifyNewlineChars {x y : Char} (hx : x ≠ '\n') (hy : y ≠ '\n')
    {cs : List Char} (h : Unmarked [x, y] cs) :
    Unmarked [x, y] (Text.unifyNewlineChars cs) := by
  have hline : ∀ more, ¬ [x, y] <+: '\n' :: more ++ [x, y] := fun more hpre =>
    hx (List.cons_prefix_cons.mp hpre).1
  induction cs using Text.unifyNewlineChars.induct with
  | case1 cs ih => exact unmarked_cons.mpr ⟨hline _, ih h.tail.tail⟩
  | case2 cs hcs ih =>
    rw [unifyNewlineChars_return hcs]
    exact unmarked_cons.mpr ⟨hline _, ih h.tail⟩
  | case3 c cs _ hc ih =>
    obtain ⟨hfirst, hrest⟩ := unmarked_cons.mp h
    rw [unifyNewlineChars_cons hc]
    refine unmarked_cons.mpr ⟨fun hpre => hfirst ?_, ih hrest⟩
    -- the mark would lie on two characters that are as before
    obtain ⟨rfl, hsecond⟩ := List.cons_prefix_cons.mp hpre
    refine List.cons_prefix_cons.mpr ⟨rfl, ?_⟩
    cases cs with
    | nil => exact hsecond
    | cons d cs =>
      by_cases hd : d = '\r'
      · subst hd
        obtain ⟨more, hmore⟩ := exists_unifyNewlineChars_return cs
        rw [hmore] at hsecond
        exact absurd (List.cons_prefix_cons.mp hsecond).1 hy
      · rw [unifyNewlineChars_cons hd] at hsecond
        obtain ⟨rfl, -⟩ := List.cons_prefix_cons.mp hsecond
        exact List.cons_prefix_cons.mpr ⟨rfl, List.nil_prefix⟩
  | case4 => exact h

end LineEnds

/-! ## Verbatim parts -/

/-- **A comment is scanned** up to its end, where its first two hyphens are. -/
theorem scanComment_eq_some {cs text rest : List Char} : scanComment cs = some (text, rest) ↔
    ∃ raw, cs = raw ++ ['-', '-'] ++ '>' :: rest ∧ Unmarked ['-', '-'] raw ∧
      text = Text.unifyNewlineChars raw := by
  have hmark : ['-', '-'] ≠ [] := List.cons_ne_nil _ _
  constructor
  · intro h
    unfold scanComment at h
    split at h
    case h_1 raw more hsplit =>
      cases h
      obtain ⟨rfl, hunmarked⟩ := (splitAt?_eq_some hmark).mp hsplit
      exact ⟨raw, rfl, hunmarked, rfl⟩
    case h_2 => cases h
  · rintro ⟨raw, rfl, hunmarked, rfl⟩
    unfold scanComment
    rw [(splitAt?_eq_some hmark).mpr ⟨rfl, hunmarked⟩]
    rfl

theorem scanData_eq_some {cs text rest : List Char} : scanData cs = some (text, rest) ↔
    ∃ raw, cs = raw ++ "]]>".toList ++ rest ∧ Unmarked "]]>".toList raw ∧
      text = Text.unifyNewlineChars raw := by
  have hmark : "]]>".toList ≠ [] := by decide
  unfold scanData
  rw [Option.map_eq_some_iff]
  constructor
  · rintro ⟨⟨raw, more⟩, hsplit, heq⟩
    cases heq
    obtain ⟨rfl, hunmarked⟩ := (splitAt?_eq_some hmark).mp hsplit
    exact ⟨raw, rfl, hunmarked, rfl⟩
  · rintro ⟨raw, rfl, hunmarked, rfl⟩
    exact ⟨(raw, rest), (splitAt?_eq_some hmark).mpr ⟨rfl, hunmarked⟩, rfl⟩

/-- The text is empty or begins with white space. -/
def SpaceFirst (cs : List Char) : Prop :=
  ∀ c ∈ cs.head?, isSpace c = true

/-- No name goes on with the data of an instruction or with its end mark. -/
theorem SpaceFirst.stopsAt {raw : List Char} (h : SpaceFirst raw) (more : List Char) :
    StopsAt isNameChar (raw ++ '?' :: more) := by
  cases raw with
  | nil => exact stopsAt_cons.mpr (by decide +kernel)
  | cons c raw =>
    rw [List.cons_append, stopsAt_cons, Bool.eq_false_iff]
    intro hc
    exact absurd (h c rfl) (by rw [not_isSpace_of_isNameChar hc]; decide)

/-- **A processing instruction is scanned** up to its end: a target, then nothing or white space
and data. -/
theorem scanInstruction_eq_some {cs target data rest : List Char} :
    scanInstruction cs = some ((target, data), rest) ↔
      ∃ raw, cs = target ++ (raw ++ ['?', '>'] ++ rest) ∧ IsName target ∧
        isReservedTarget target = false ∧ SpaceFirst raw ∧ Unmarked ['?', '>'] raw ∧
        data = Text.unifyNewlineChars (skipSpace raw) := by
  have hmark : ['?', '>'] ≠ [] := List.cons_ne_nil _ _
  constructor
  · intro h
    unfold scanInstruction at h
    split at h
    case h_1 => cases h
    case h_2 name after hname =>
      obtain ⟨rfl, hisName, -⟩ := scanName_eq_some.mp hname
      split at h
      case isTrue => cases h
      case isFalse hreserved =>
        have hreserved := Bool.eq_false_iff.mpr hreserved
        split at h
        case h_1 more =>
          cases h
          exact ⟨[], rfl, hisName, hreserved, (fun _ hc => nomatch hc), Unmarked.nil _, rfl⟩
        case h_2 c more _ =>
          split at h
          case isTrue hspace =>
            obtain ⟨⟨raw, stop⟩, hsplit, heq⟩ := Option.map_eq_some_iff.mp h
            cases heq
            obtain ⟨hraw, hunmarked⟩ := (splitAt?_eq_some hmark).mp hsplit
            refine ⟨raw, by rw [hraw], hisName, hreserved, ?_, hunmarked, rfl⟩
            intro d hd
            cases raw with
            | nil => cases hd
            | cons e raw =>
              cases hd
              cases hraw
              exact hspace
          case isFalse => cases h
        case h_3 => cases h
  · rintro ⟨raw, rfl, hname, hreserved, hspace, hunmarked, rfl⟩
    have hstop : StopsAt isNameChar (raw ++ ['?', '>'] ++ rest) := by
      simpa using hspace.stopsAt ('>' :: rest)
    unfold scanInstruction
    rw [scanName_eq_some.mpr ⟨rfl, hname, hstop⟩]
    dsimp only
    rw [hreserved, if_neg Bool.false_ne_true]
    cases raw with
    | nil => rfl
    | cons c raw =>
      have hc := hspace c rfl
      split
      case h_1 heq =>
        obtain rfl : c = '?' := (List.cons.inj heq).1
        exact absurd hc (by decide)
      case h_2 heq =>
        obtain rfl := (List.cons.inj heq).1
        rw [if_pos hc]
        show Option.map _ (splitAt? ['?', '>'] (c :: raw ++ ['?', '>'] ++ rest)) = _
        rw [(splitAt?_eq_some hmark).mpr ⟨rfl, hunmarked⟩]
        rfl
      case h_3 heq => cases heq

end Rollout.Xml
