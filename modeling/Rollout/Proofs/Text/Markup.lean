import Mathlib.Data.List.Chain
import Mathlib.Data.List.TakeWhile
import Rollout.Text.Markup

/-!
# Texts in a style

A text is put in a style by a tag before it and another one behind it. Its own tags are read with
them, so that the text decides whether the line can be printed.

- `closeTag_opening`, `closeTag_closing`: what a tag does to the styles that are open.
- `normalStyle_yellow`, `normalStyle_of_noStyle`: how a colour and a word that says no style are
  written.
- `tags_yellow`: the tags of a text in yellow.
- `Unmarked`: a text in which no bracket begins a tag.
- `isPrintable_yellow`: **a text without tags** can be printed.
- `Stray`, `isPrintable_yellow_of_stray`: **a text that closes another style** cannot.
-/

namespace Rollout.Text.Markup

/-! ## Opening and closing -/

section Tags

variable {tag : String} (styles : List String)

/-- A tag that opens a style. -/
theorem closeTag_opening (hslash : tag.toList.head? ≠ some '/') (hname : '=' ∉ tag.toList) :
    closeTag styles tag = some (normalStyle tag :: styles) := by
  have hwhole : tag.toList.takeWhile (· != '=') = tag.toList := by
    refine List.takeWhile_eq_self_iff.mpr fun c hc => bne_iff_ne.mpr ?_
    rintro rfl
    exact hname hc
  rw [closeTag, hwhole]
  split
  · rename_i h
    rw [h] at hslash
    exact absurd rfl hslash
  · rw [String.ofList_toList]

/-- A tag that closes a style by its name. -/
theorem closeTag_closing {name : List Char} (htag : tag.toList = '/' :: name) (hname : '=' ∉ name)
    (hclosed : (strip (String.ofList name)).isEmpty = false) :
    closeTag styles tag
      = if styles.contains (normalStyle (strip (String.ofList name))) then
          some (styles.erase (normalStyle (strip (String.ofList name))))
        else none := by
  have hwhole : tag.toList.takeWhile (· != '=') = '/' :: name := by
    rw [htag]
    refine List.takeWhile_eq_self_iff.mpr fun c hc => bne_iff_ne.mpr ?_
    rintro rfl
    exact hname ((List.mem_cons.mp hc).resolve_left (by decide))
  have hfull : ¬ (strip (String.ofList name)).isEmpty = true := by
    rw [hclosed]
    exact Bool.false_ne_true
  rw [closeTag, hwhole]
  exact if_neg hfull

end Tags

/-- The tags of a text in yellow: those of the text are read on into the tag behind it. -/
theorem tags_yellow (text : String) :
    tags (yellow text)
      = "yellow" :: (tagsFrom (.plain false) (text.toList ++ "[/yellow]".toList)).map
          String.ofList := by
  have hline : (yellow text).toList
      = "[yellow]".toList ++ (text.toList ++ "[/yellow]".toList) := by
    show (("[yellow]" ++ text) ++ "[/yellow]").toList = _
    rw [String.toList_append, String.toList_append, List.append_assoc]
  rw [tags, hline]
  rfl

/-- A colour is written as its name. -/
theorem normalStyle_yellow : normalStyle "yellow" = "yellow" := by
  have hstrip : strip "yellow" = "yellow" := by decide +kernel
  have hlower : lower "yellow" = "yellow" := by decide +kernel
  have hwords : wordsOf "yellow" = ["yellow"] := rfl
  have hattribute : attribute? "yellow" = none := by decide +kernel
  have hcolor : isColor "yellow" = true := by cbv
  have hwritten : Style.words { Style.empty with color := some "yellow" } = ["yellow"] := rfl
  simp [normalStyle, styleFrom, hstrip, hlower, hwords, hattribute, hcolor, hwritten]

/-- A word that says no style is written as it is. -/
theorem normalStyle_of_noStyle {word : String} (hwords : wordsOf word = [word])
    (hstrip : strip word = word) (hlower : lower word = word)
    (hkeyword : word ∉ ["none", "on", "not", "link"]) (hattribute : attribute? word = none)
    (hcolor : isColor word = false) : normalStyle word = word := by
  simp only [List.mem_cons, List.not_mem_nil, or_false, not_or] at hkeyword
  simp [normalStyle, styleFrom, hwords, hstrip, hlower, hkeyword, hattribute, hcolor]

theorem closeTag_yellow : closeTag [] "yellow" = some ["yellow"] := by
  rw [closeTag_opening [] (by decide) (by decide), normalStyle_yellow]

/-- Whether a text in yellow can be printed depends on the tags behind the first one. -/
theorem isPrintable_yellow_eq (text : String) :
    isPrintable (yellow text)
      = (((tagsFrom (.plain false) (text.toList ++ "[/yellow]".toList)).map
          String.ofList).foldlM closeTag ["yellow"]).isSome := by
  rw [isPrintable, tags_yellow, List.foldlM_cons, closeTag_yellow, Option.bind_eq_bind,
    Option.bind_some]

/-! ## Texts without tags -/

/-- No bracket is followed by a character that a tag may begin with. -/
def Unmarked (text : List Char) : Prop :=
  text.IsChain fun c next => c = '[' → startsTag next = false

theorem Unmarked.head {rest : List Char} (h : Unmarked ('[' :: rest)) :
    ∀ c ∈ rest.head?, startsTag c = false := by
  intro c hc
  obtain ⟨more, rfl⟩ := List.head?_eq_some_iff.mp hc
  exact (List.isChain_cons_cons.mp h).1 rfl

/-- The tag behind a text is read, unless a backslash at the end of the text keeps it from being
one. -/
theorem tagsFrom_of_unmarked {text : List Char} (h : Unmarked text) :
    (∀ escaping, tagsFrom (.plain escaping) (text ++ "[/yellow]".toList) = [] ∨
      tagsFrom (.plain escaping) (text ++ "[/yellow]".toList) = ["/yellow".toList]) ∧
    ((∀ c ∈ text.head?, startsTag c = false) → ∀ escaped,
      tagsFrom (.opened escaped) (text ++ "[/yellow]".toList) = [] ∨
      tagsFrom (.opened escaped) (text ++ "[/yellow]".toList) = ["/yellow".toList]) := by
  induction text with
  | nil =>
    refine ⟨fun escaping => ?_, fun _ _ => .inr rfl⟩
    cases escaping with
    | false => exact .inr rfl
    | true => exact .inl rfl
  | cons c rest ih =>
    obtain ⟨hplain, hopened⟩ := ih (List.IsChain.tail h)
    refine ⟨fun escaping => ?_, fun hstart escaped => ?_⟩
    · rw [List.cons_append, tagsFrom]
      split
      · rename_i hc
        obtain rfl := beq_iff_eq.mp hc
        exact hopened h.head escaping
      · exact hplain _
    · have hc : ¬ startsTag c = true := by
        rw [hstart c rfl]
        exact Bool.false_ne_true
      rw [List.cons_append, tagsFrom, if_neg hc]
      split
      · rename_i hc
        obtain rfl := beq_iff_eq.mp hc
        exact hopened h.head false
      · exact hplain _

/-- **A text without tags** can be printed. -/
theorem isPrintable_yellow {text : String} (h : Unmarked text.toList) :
    isPrintable (yellow text) = true := by
  rw [isPrintable_yellow_eq]
  rcases (tagsFrom_of_unmarked h).1 false with hnone | hclosing
  · rw [hnone]
    rfl
  · have hname : strip (String.ofList "yellow".toList) = "yellow" := by decide +kernel
    have hfull : (strip (String.ofList "yellow".toList)).isEmpty = false := by
      rw [hname]
      rfl
    have hchars : "/yellow".toList = '/' :: "yellow".toList := by decide
    have htag := closeTag_closing ["yellow"] (String.toList_ofList.trans hchars) (by decide) hfull
    rw [hname, normalStyle_yellow, List.contains_cons, BEq.rfl, Bool.true_or, if_pos rfl] at htag
    rw [hclosing, List.map_singleton, List.foldlM_cons, htag]
    rfl

/-! ## Texts with a stray tag -/

/-- Plain text in front of a tag. -/
theorem tagsFrom_plain_append {before : List Char} (hbracket : '[' ∉ before)
    (hbackslash : '\\' ∉ before) (rest : List Char) :
    tagsFrom (.plain false) (before ++ rest) = tagsFrom (.plain false) rest := by
  induction before with
  | nil => rfl
  | cons c before ih =>
    obtain ⟨hc, hbracket⟩ := not_or.mp (mt List.mem_cons.mpr hbracket)
    obtain ⟨hplain, hbackslash⟩ := not_or.mp (mt List.mem_cons.mpr hbackslash)
    have hposition : (c == '\\' && !false) = false := by simp [Ne.symm hplain]
    rw [List.cons_append, tagsFrom, if_neg (mt beq_iff_eq.mp (Ne.symm hc)), hposition]
    exact ih hbracket hbackslash

/-- A tag is read up to its bracket. -/
theorem tagsFrom_inside_append {name : List Char} (hopening : '[' ∉ name) (hclosing : ']' ∉ name)
    (body rest : List Char) (escaping : Bool) :
    tagsFrom (.inside false body escaping) (name ++ ']' :: rest)
      = (body ++ name) :: tagsFrom (.plain false) rest := by
  induction name generalizing body escaping with
  | nil =>
    rw [List.append_nil]
    rfl
  | cons c name ih =>
    obtain ⟨hfirst, hopening⟩ := not_or.mp (mt List.mem_cons.mpr hopening)
    obtain ⟨hlast, hclosing⟩ := not_or.mp (mt List.mem_cons.mpr hclosing)
    rw [List.cons_append, tagsFrom, if_neg (mt beq_iff_eq.mp (Ne.symm hfirst)),
      if_neg (mt beq_iff_eq.mp (Ne.symm hlast)), ih hopening hclosing, List.append_assoc]
    rfl

/-- A text whose first tag closes a style by its name, and not the one the text is put in. -/
structure Stray (text before name after : List Char) : Prop where
  text_eq : text = before ++ '[' :: '/' :: (name ++ ']' :: after)
  -- nothing in front of the tag is a tag, or keeps this one from being a tag
  bracketless : '[' ∉ before
  unescaped : '\\' ∉ before
  -- the name ends at the first closing bracket
  unopened : '[' ∉ name
  unclosed : ']' ∉ name
  bare : '=' ∉ name
  named : (strip (String.ofList name)).isEmpty = false
  other : normalStyle (strip (String.ofList name)) ≠ "yellow"

/-- **A text that closes another style** cannot be printed, whatever follows. -/
theorem isPrintable_yellow_of_stray {text : String} {before name after : List Char}
    (h : Stray text.toList before name after) : isPrintable (yellow text) = false := by
  have hread : tagsFrom (.plain false) (text.toList ++ "[/yellow]".toList)
      = ('/' :: name) :: tagsFrom (.plain false) (after ++ "[/yellow]".toList) := by
    rw [h.text_eq, List.append_assoc, tagsFrom_plain_append h.bracketless h.unescaped]
    show tagsFrom (.inside false ['/'] false) ((name ++ ']' :: after) ++ "[/yellow]".toList) = _
    rw [List.append_assoc, List.cons_append, tagsFrom_inside_append h.unopened h.unclosed]
    rfl
  have hstray : closeTag ["yellow"] (String.ofList ('/' :: name)) = none := by
    rw [closeTag_closing _ String.toList_ofList h.bare h.named]
    simp [h.other]
  rw [isPrintable_yellow_eq, hread, List.map_cons, List.foldlM_cons, hstray]
  rfl

end Rollout.Text.Markup
