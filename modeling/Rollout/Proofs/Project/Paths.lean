import Rollout.Project.Copy
import Rollout.Proofs.Files.Places

/-!
# Directories of copies

A copy is named after its template, the class and the method of its test, joined by underscores.
The name tells which words these are made of, but not where one of them ends and the next begins.

- `Text.words`: what stands between the underscores of a text and the characters that become one.
- `copyWords`: the words of a template, a class and a method in a row.
- `copyPath_inj_of_single`: tests named by single words have directories of their own.
- `copyPath_shared_iff`: **when two tests share a directory**, and when a copy replaces another
  template.
-/

namespace Rollout

namespace Text

/-- Whether `c` is an underscore in a file name. -/
def isGap (c : Char) : Bool :=
  !isFileSafe c || c == '_'

/-- What stands between the gaps of a text. -/
def words (text : String) : List (List Char) :=
  text.toList.splitOnP isGap

/-- A text is cut at its gaps where its safe form is cut at its underscores. -/
theorem splitOn_fileSafe (text : String) : (fileSafe text).toList.splitOn '_' = words text := by
  unfold fileSafe words
  rw [String.toList_map, List.splitOn_eq_splitOnP]
  induction text.toList with
  | nil => rfl
  | cons c cs ih =>
    rw [List.map_cons, List.splitOnP_cons_eq_if_modifyHead, List.splitOnP_cons_eq_if_modifyHead, ih]
    by_cases hsafe : isFileSafe c = true
    · have hgap : isGap c = (c == '_') := by
        unfold isGap
        rw [hsafe]
        rfl
      rw [if_pos hsafe, hgap]
    · have hgap : isGap c = true := by
        unfold isGap
        rw [Bool.eq_false_iff.mpr hsafe]
        rfl
      rw [if_neg hsafe, hgap]
      rfl

/-- A text is cut at an underscore. -/
theorem splitOn_underscore (before behind : List Char) :
    (before ++ '_' :: behind).splitOn '_' = before.splitOn '_' ++ behind.splitOn '_' := by
  simp only [List.splitOn_eq_splitOnP]
  exact List.splitOnP_append_cons _ _ (BEq.rfl)

theorem splitOn_inj {a b : List Char} (h : a.splitOn '_' = b.splitOn '_') : a = b := by
  have hjoined := congrArg (List.intercalate ['_']) h
  rwa [List.intercalate_splitOn, List.intercalate_splitOn] at hjoined

/-- A text without gaps is one word. -/
theorem words_of_single {text : String} (h : ∀ c ∈ text.toList, isGap c = false) :
    words text = [text.toList] :=
  List.splitOnP_eq_singleton h

end Text

/-! ## Names of copies -/

/-- The words of a template, a class and a method in a row. -/
def copyWords (template : Path) (testClass testMethod : String) : List (List Char) :=
  template.name.toList.splitOn '_' ++ Text.words testClass ++ Text.words testMethod

section Names

variable {template template' : Path} {testClass testClass' testMethod testMethod' : String}

theorem toList_copyName (template : Path) (testClass testMethod : String) :
    (copyPath template testClass testMethod).name.toList
      = template.name.toList ++ '_' :: ((Text.fileSafe testClass).toList
          ++ '_' :: (Text.fileSafe testMethod).toList) := by
  simp [copyPath]

/-- The words of a copy's name are those of what it is named after. -/
theorem splitOn_copyName (template : Path) (testClass testMethod : String) :
    (copyPath template testClass testMethod).name.toList.splitOn '_'
      = copyWords template testClass testMethod := by
  rw [toList_copyName, Text.splitOn_underscore, Text.splitOn_underscore, Text.splitOn_fileSafe,
    Text.splitOn_fileSafe, ← List.append_assoc]
  rfl

theorem copyPath_eq_below (template : Path) (testClass testMethod : String) :
    copyPath template testClass testMethod
      = template.parent.below (copyPath template testClass testMethod).name := by
  simp [copyPath]

/-- A copy takes the place next to its template that has its words for a name. -/
theorem copyPath_eq_below_iff (name : String) :
    copyPath template testClass testMethod = template.parent.below name ↔
      copyWords template testClass testMethod = name.toList.splitOn '_' := by
  rw [copyPath_eq_below, Path.below_inj, ← splitOn_copyName]
  constructor
  · rintro ⟨-, rfl⟩
    rfl
  · exact fun hwords => ⟨rfl, String.toList_inj.mp (Text.splitOn_inj hwords)⟩

/-- A place next to the template is inside a copy when the copy is at that place. -/
theorem copyPath_contains_iff (name : String) :
    (copyPath template testClass testMethod).contains (template.parent.below name) = true ↔
      copyWords template testClass testMethod = name.toList.splitOn '_' := by
  rw [← copyPath_eq_below_iff, copyPath_eq_below, Path.contains_sibling_iff, Path.below_inj,
    and_iff_right rfl]

/-- Tests whose classes and methods are named by single words work in directories of their own,
whatever the templates are called. -/
theorem copyPath_inj_of_single
    (hclass : ∀ c ∈ testClass.toList, Text.isGap c = false)
    (hclass' : ∀ c ∈ testClass'.toList, Text.isGap c = false)
    (hmethod : ∀ c ∈ testMethod.toList, Text.isGap c = false)
    (hmethod' : ∀ c ∈ testMethod'.toList, Text.isGap c = false)
    (hcopy : copyPath template testClass testMethod = copyPath template' testClass' testMethod') :
    template.name = template'.name ∧ testClass = testClass' ∧ testMethod = testMethod' := by
  have hwords : copyWords template testClass testMethod
      = copyWords template' testClass' testMethod' := by
    rw [← splitOn_copyName, hcopy, splitOn_copyName]
  rw [copyWords, copyWords, Text.words_of_single hclass, Text.words_of_single hclass',
    Text.words_of_single hmethod, Text.words_of_single hmethod'] at hwords
  obtain ⟨hbefore, hlast⟩ := List.append_inj' hwords rfl
  obtain ⟨hname, hmiddle⟩ := List.append_inj' hbefore rfl
  exact ⟨String.toList_inj.mp (Text.splitOn_inj hname),
    String.toList_inj.mp (List.singleton_inj.mp hmiddle),
    String.toList_inj.mp (List.singleton_inj.mp hlast)⟩

/-- **When two tests share a directory.** Copies of templates in one directory are at one place, or
one inside the other, just when template, class and method have the same words in a row; and
another template is what a copy replaces just when its name has these words. -/
theorem copyPath_shared_iff (hparent : template.parent = template'.parent)
    (hnamed : template'.parts ≠ []) :
    (copyPath template testClass testMethod = copyPath template' testClass' testMethod' ↔
      copyWords template testClass testMethod = copyWords template' testClass' testMethod') ∧
    ((copyPath template testClass testMethod).contains
        (copyPath template' testClass' testMethod') = true ↔
      copyWords template testClass testMethod = copyWords template' testClass' testMethod') ∧
    ((copyPath template testClass testMethod).contains template' = true ↔
      copyWords template testClass testMethod = template'.name.toList.splitOn '_') := by
  have hother : copyPath template' testClass' testMethod'
      = template.parent.below (copyPath template' testClass' testMethod').name := by
    rw [hparent]
    exact copyPath_eq_below _ _ _
  have hclone : template' = template.parent.below template'.name := by
    rw [hparent]
    exact Path.eq_below hnamed
  refine ⟨?_, ?_, ?_⟩
  · rw [hother, copyPath_eq_below_iff, splitOn_copyName]
  · rw [hother, copyPath_contains_iff, splitOn_copyName]
  · rw [← copyPath_contains_iff, ← hclone]

/-- The copy of `demo` for class `a_b` is that of `demo_a` for class `b`, and the template
`demo_a_b_c` itself. -/
theorem copyPath_shared_iff_demo :
    copyPath ⟨.working, ["work", "demo"]⟩ "a_b" "c"
      = copyPath ⟨.working, ["work", "demo_a"]⟩ "b" "c" ∧
    (copyPath ⟨.working, ["work", "demo"]⟩ "a_b" "c").contains
      ⟨.working, ["work", "demo_a_b_c"]⟩ = true := by
  have hwords : copyWords ⟨.working, ["work", "demo"]⟩ "a_b" "c"
        = copyWords ⟨.working, ["work", "demo_a"]⟩ "b" "c" ∧
      copyWords ⟨.working, ["work", "demo"]⟩ "a_b" "c"
        = "demo_a_b_c".toList.splitOn '_' := by
    decide +kernel
  exact ⟨(@copyPath_shared_iff ⟨.working, ["work", "demo"]⟩ ⟨.working, ["work", "demo_a"]⟩
      "a_b" "b" "c" "c" rfl (List.cons_ne_nil _ _)).1.mpr hwords.1,
    (@copyPath_shared_iff ⟨.working, ["work", "demo"]⟩ ⟨.working, ["work", "demo_a_b_c"]⟩
      "a_b" "b" "c" "c" rfl (List.cons_ne_nil _ _)).2.2.mpr hwords.2⟩

end Names

end Rollout
