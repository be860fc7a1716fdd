import Rollout.Pom.Fragment
import Rollout.Proofs.Text.Replacing

/-!
# Templates

A template is filled in twice: the key is put in, and then the value in the result. Where that text
has a token of its own, from the key or from where the key meets the template, the value is put in
there, too.

- `Part`, `partsOf`: a template in parts: characters, and the places of the key and of the value.
- `stamped`: the template with the key and the value in their places, and nowhere else.
- `stamped_append_key`, `stamped_append_value`, `stamped_of_not_infix`: what is in which place.
- `keyedPieces`: the texts between the places of the value, with the key in them.
- `filledTemplate_iff`: **when the two agree**.
-/

namespace Rollout.Pom

open Text

/-! ## Tokens -/

/-- What stands for the key, as characters. -/
def keyChars : List Char := ['\x7b', 'k', 'e', 'y', '\x7d']

/-- What stands for the value, as characters. -/
def valueChars : List Char := ['\x7b', 'v', 'a', 'l', 'u', 'e', '\x7d']

theorem toList_keyToken : keyToken.toList = keyChars := rfl

theorem toList_valueToken : valueToken.toList = valueChars := rfl

/-! ## Parts of a template -/

/-- A part of a template: a character, or the place of the key or of the value. -/
inductive Part
  | char (c : Char)
  | key
  | value
  deriving DecidableEq, Repr

/-- The parts of a template, where the first `skip` characters belong to a token. -/
def partsFrom : Nat → List Char → List Part
  | _, [] => []
  | skip + 1, _ :: cs => partsFrom skip cs
  | 0, c :: cs =>
    if keyChars.isPrefixOf (c :: cs) then .key :: partsFrom (keyChars.length - 1) cs
    else if valueChars.isPrefixOf (c :: cs) then .value :: partsFrom (valueChars.length - 1) cs
    else .char c :: partsFrom 0 cs

/-- The parts of a template. -/
def partsOf (template : List Char) : List Part :=
  partsFrom 0 template

theorem partsFrom_drop (skip : Nat) (cs : List Char) :
    partsFrom skip cs = partsOf (cs.drop skip) := by
  induction skip generalizing cs with
  | zero => rfl
  | succ skip ih =>
    cases cs with
    | nil => rfl
    | cons c cs => exact ih cs

theorem partsOf_cons (c : Char) (cs : List Char) :
    partsOf (c :: cs)
      = if keyChars.isPrefixOf (c :: cs) then .key :: partsOf (cs.drop (keyChars.length - 1))
        else if valueChars.isPrefixOf (c :: cs) then
          .value :: partsOf (cs.drop (valueChars.length - 1))
        else .char c :: partsOf cs := by
  rw [← partsFrom_drop, ← partsFrom_drop]
  rfl

theorem partsOf_key (cs : List Char) : partsOf (keyChars ++ cs) = .key :: partsOf cs := by
  have hprefix : keyChars.isPrefixOf (keyChars ++ cs) = true :=
    List.isPrefixOf_iff_prefix.mpr (List.prefix_append keyChars cs)
  exact (partsOf_cons ..).trans (if_pos hprefix)

theorem partsOf_value (cs : List Char) : partsOf (valueChars ++ cs) = .value :: partsOf cs := by
  have hprefix : valueChars.isPrefixOf (valueChars ++ cs) = true :=
    List.isPrefixOf_iff_prefix.mpr (List.prefix_append valueChars cs)
  have hkey : ¬ keyChars.isPrefixOf (valueChars ++ cs) = true := Bool.false_ne_true
  exact (partsOf_cons ..).trans ((if_neg hkey).trans (if_pos hprefix))

theorem partsOf_char {c : Char} {cs : List Char} (hkey : ¬ keyChars <+: c :: cs)
    (hvalue : ¬ valueChars <+: c :: cs) : partsOf (c :: cs) = .char c :: partsOf cs := by
  rw [partsOf_cons, if_neg (mt List.isPrefixOf_iff_prefix.mp hkey),
    if_neg (mt List.isPrefixOf_iff_prefix.mp hvalue)]

/-- What holds of the empty template, and of a template if it holds behind the token or the
character at its front, holds of every template. -/
theorem induction_partsOf {motive : List Char → Prop} (nil : motive [])
    (key : ∀ cs, motive cs → motive (keyChars ++ cs))
    (value : ∀ cs, motive cs → motive (valueChars ++ cs))
    (char : ∀ c cs, ¬ keyChars <+: c :: cs → ¬ valueChars <+: c :: cs → motive cs →
      motive (c :: cs)) (cs : List Char) : motive cs := by
  match cs with
  | [] => exact nil
  | c :: rest =>
    by_cases hkey : keyChars <+: c :: rest
    · obtain ⟨behind, hbehind⟩ := hkey
      have hshorter : behind.length < (c :: rest).length := by
        rw [← hbehind, List.length_append, keyChars]
        simp only [List.length_cons]
        omega
      rw [← hbehind]
      exact key behind (induction_partsOf nil key value char behind)
    by_cases hvalue : valueChars <+: c :: rest
    · obtain ⟨behind, hbehind⟩ := hvalue
      have hshorter : behind.length < (c :: rest).length := by
        rw [← hbehind, List.length_append, valueChars]
        simp only [List.length_cons]
        omega
      rw [← hbehind]
      exact value behind (induction_partsOf nil key value char behind)
    exact char c rest hkey hvalue (induction_partsOf nil key value char rest)
  termination_by cs.length
  decreasing_by
    · exact hshorter
    · exact hshorter
    · exact Nat.lt_succ_self rest.length

/-- A template may be cut before every opening brace. -/
theorem partsOf_append_brace (front rest : List Char) :
    partsOf (front ++ '\x7b' :: rest) = partsOf front ++ partsOf ('\x7b' :: rest) := by
  induction front using induction_partsOf with
  | nil => rfl
  | key front ih => rw [List.append_assoc, partsOf_key, partsOf_key, ih, List.cons_append]
  | value front ih => rw [List.append_assoc, partsOf_value, partsOf_value, ih, List.cons_append]
  | char c front hkey hvalue ih =>
    have hkey' : ¬ keyChars <+: c :: (front ++ '\x7b' :: rest) := fun hprefix =>
      (prefix_of_prefix_cut (c :: front) (by decide) hprefix).elim
        (List.cons_ne_nil c front) hkey
    have hvalue' : ¬ valueChars <+: c :: (front ++ '\x7b' :: rest) := fun hprefix =>
      (prefix_of_prefix_cut (c :: front) (by decide) hprefix).elim
        (List.cons_ne_nil c front) hvalue
    rw [List.cons_append, partsOf_char hkey' hvalue', partsOf_char hkey hvalue, ih,
      List.cons_append]

/-- A template without tokens is its characters. -/
theorem partsOf_of_tokenless {cs : List Char} (hkey : ¬ keyChars <:+: cs)
    (hvalue : ¬ valueChars <:+: cs) : partsOf cs = cs.map .char := by
  induction cs with
  | nil => rfl
  | cons c cs ih =>
    rw [List.infix_cons_iff, not_or] at hkey hvalue
    rw [partsOf_char hkey.1 hvalue.1, ih hkey.2 hvalue.2, List.map_cons]

/-- Nor has a template without opening braces any other parts. -/
theorem partsOf_of_not_mem {cs : List Char} (h : '\x7b' ∉ cs) : partsOf cs = cs.map .char :=
  partsOf_of_tokenless (fun hkey => h (hkey.subset (by decide)))
    fun hvalue => h (hvalue.subset (by decide))

/-! ## Simultaneous substitution -/

/-- What a part becomes. -/
def Part.filled (key value : List Char) : Part → List Char
  | .char c => [c]
  | .key => key
  | .value => value

/-- The template with the key and the value in their places, and nowhere else. -/
def stamped (template key value : String) : String :=
  String.ofList ((partsOf template.toList).flatMap (Part.filled key.toList value.toList))

section Stamped

variable (key value : String)

/-- Every key token of the template becomes the key. -/
theorem stamped_append_key (front rest : String) :
    stamped (front ++ keyToken ++ rest) key value
      = stamped front key value ++ key ++ stamped rest key value := by
  have hparts : partsOf (front ++ keyToken ++ rest).toList
      = partsOf front.toList ++ .key :: partsOf rest.toList := by
    rw [String.toList_append, String.toList_append, toList_keyToken, List.append_assoc,
      ← partsOf_key]
    exact partsOf_append_brace front.toList _
  unfold stamped
  rw [hparts, List.flatMap_append, List.flatMap_cons, String.ofList_append, String.ofList_append,
    ← String.append_assoc]
  exact congrArg (_ ++ · ++ _) String.ofList_toList

/-- Every value token of the template becomes the value. -/
theorem stamped_append_value (front rest : String) :
    stamped (front ++ valueToken ++ rest) key value
      = stamped front key value ++ value ++ stamped rest key value := by
  have hparts : partsOf (front ++ valueToken ++ rest).toList
      = partsOf front.toList ++ .value :: partsOf rest.toList := by
    rw [String.toList_append, String.toList_append, toList_valueToken, List.append_assoc,
      ← partsOf_value]
    exact partsOf_append_brace front.toList _
  unfold stamped
  rw [hparts, List.flatMap_append, List.flatMap_cons, String.ofList_append, String.ofList_append,
    ← String.append_assoc]
  exact congrArg (_ ++ · ++ _) String.ofList_toList

/-- Everything else of the template stays. -/
theorem stamped_of_not_infix {template : String} (hkey : ¬ keyToken.toList <:+: template.toList)
    (hvalue : ¬ valueToken.toList <:+: template.toList) :
    stamped template key value = template := by
  have hchars : ∀ cs : List Char,
      (cs.map Part.char).flatMap (Part.filled key.toList value.toList) = cs := by
    intro cs
    induction cs with
    | nil => rfl
    | cons c cs ih => exact congrArg (c :: ·) ih
  unfold stamped
  rw [partsOf_of_tokenless hkey hvalue, hchars, String.ofList_toList]

end Stamped

/-! ## The two replacements -/

/-- The texts between the places of the value, with the key in them. -/
def keyedPieces (key : List Char) : List Part → List (List Char)
  | [] => [[]]
  | .value :: parts => [] :: keyedPieces key parts
  | .key :: parts => (keyedPieces key parts).modifyHead (key ++ ·)
  | .char c :: parts => (keyedPieces key parts).modifyHead ([c] ++ ·)

theorem keyedPieces_ne_nil (key : List Char) (parts : List Part) : keyedPieces key parts ≠ [] := by
  induction parts with
  | nil => exact List.cons_ne_nil _ _
  | cons part parts ih => cases part <;> simp [keyedPieces, ih]

theorem intercalate_modifyHead {pieces : List (List Char)} (h : pieces ≠ [])
    (sep front : List Char) :
    sep.intercalate (pieces.modifyHead (front ++ ·)) = front ++ sep.intercalate pieces := by
  match pieces with
  | [piece] => simp
  | piece :: next :: pieces =>
    rw [List.modifyHead_cons, List.intercalate_cons_cons, List.intercalate_cons_cons]
    simp only [List.append_assoc]

theorem keyedPieces_chars (key cs : List Char) (parts : List Part) :
    keyedPieces key (cs.map .char ++ parts) = (keyedPieces key parts).modifyHead (cs ++ ·) := by
  induction cs with
  | nil => exact (List.modifyHead_id ▸ rfl)
  | cons c cs ih =>
    rw [List.map_cons, List.cons_append, keyedPieces, ih, List.modifyHead_modifyHead]
    rfl

section Brace

variable {front : List Char} (h : '\x7b' ∉ front) (key rest : List Char)

include h

theorem partsOf_append_of_not_mem : partsOf (front ++ '\x7b' :: rest)
    = front.map .char ++ partsOf ('\x7b' :: rest) := by
  rw [partsOf_append_brace, partsOf_of_not_mem h]

/-- Up to its first token a template without braces is part of the first piece. -/
theorem keyedPieces_append_key : keyedPieces key (partsOf (front ++ (keyChars ++ rest)))
    = (keyedPieces key (partsOf rest)).modifyHead fun piece => front ++ (key ++ piece) := by
  show keyedPieces key (partsOf (front ++ '\x7b' :: _)) = _
  rw [partsOf_append_of_not_mem h]
  show keyedPieces key (_ ++ partsOf (keyChars ++ rest)) = _
  rw [partsOf_key, keyedPieces_chars, keyedPieces, List.modifyHead_modifyHead]
  rfl

theorem keyedPieces_append_value : keyedPieces key (partsOf (front ++ (valueChars ++ rest)))
    = front :: keyedPieces key (partsOf rest) := by
  show keyedPieces key (partsOf (front ++ '\x7b' :: _)) = _
  rw [partsOf_append_of_not_mem h]
  show keyedPieces key (_ ++ partsOf (valueChars ++ rest)) = _
  rw [partsOf_value, keyedPieces_chars, keyedPieces, List.modifyHead_cons, List.append_nil]

theorem keyedPieces_of_not_mem : keyedPieces key (partsOf front) = [front] := by
  have hchars := keyedPieces_chars key front []
  rw [List.append_nil, keyedPieces, List.modifyHead_cons, List.append_nil] at hchars
  rw [partsOf_of_not_mem h, hchars]

end Brace

/-- Whatever stands in the places of the value separates the pieces. -/
theorem flatMap_filled (key value : List Char) (parts : List Part) :
    parts.flatMap (Part.filled key value) = value.intercalate (keyedPieces key parts) := by
  induction parts with
  | nil => simp [keyedPieces]
  | cons part parts ih =>
    rw [List.flatMap_cons, ih]
    cases part with
    | char c => exact (intercalate_modifyHead (keyedPieces_ne_nil key parts) value [c]).symm
    | key => exact (intercalate_modifyHead (keyedPieces_ne_nil key parts) value key).symm
    | value =>
      rw [keyedPieces, List.intercalate_cons_of_ne_nil (keyedPieces_ne_nil key parts)]
      rfl

/-- The key is put in before any value: the places of the value are left as they are. -/
theorem replaceFrom_keyChars (key template : List Char) :
    replaceFrom keyChars key 0 template
      = (partsOf template).flatMap (Part.filled key valueChars) := by
  induction template using induction_partsOf with
  | nil => rfl
  | key cs ih =>
    rw [partsOf_key, List.flatMap_cons, ← ih]
    exact replaceFrom_occurrence ..
  | value cs ih =>
    rw [partsOf_value, List.flatMap_cons, ← ih]
    rfl
  | char c cs hkey hvalue ih =>
    rw [partsOf_char hkey hvalue, List.flatMap_cons, ← ih]
    exact replaceFrom_cons hkey

/-- The value is put in between the pieces, and wherever a piece has a token of its own. -/
theorem filledTemplate_eq (template key value : String) :
    filledTemplate template key value
      = String.ofList (value.toList.intercalate
          ((keyedPieces key.toList (partsOf template.toList)).map
            (replaceFrom valueChars value.toList 0))) := by
  have hkeyed : (replaceAll keyToken key template).toList
      = valueChars.intercalate (keyedPieces key.toList (partsOf template.toList)) := by
    rw [← flatMap_filled, ← replaceFrom_keyChars]
    exact String.toList_ofList
  unfold filledTemplate
  rw [replaceAll, hkeyed]
  exact congrArg String.ofList (replaceFrom_intercalate (by decide) value.toList _)

/-- **When the two replacements are one**: no piece of the template between the places of the value
has a value token once the key is in it, or the value is that token itself. -/
theorem filledTemplate_iff (template key value : String) :
    filledTemplate template key value = stamped template key value
      ↔ value = valueToken ∨
        ∀ piece ∈ keyedPieces key.toList (partsOf template.toList),
          ¬ valueToken.toList <:+: piece := by
  have hstamped : stamped template key value
      = String.ofList (value.toList.intercalate
          (keyedPieces key.toList (partsOf template.toList))) :=
    congrArg String.ofList (flatMap_filled ..)
  have hself : value = valueToken ↔ value.toList = valueChars := by
    rw [← toList_valueToken, String.toList_inj]
  rw [filledTemplate_eq, hstamped, String.ofList_inj, hself]
  exact intercalate_replaced_iff

/-- A key that is a value token is lost. -/
example : filledTemplate "<name>\x7bkey\x7d</name>" "\x7bvalue\x7d" "v" = "<name>v</name>" := by
  rfl

end Rollout.Pom
