import Mathlib.Data.List.Basic
import Rollout.Text.ShellWords

/-!
# Command lines that are continued

The splitter reads its characters one by one, and what it has to know of those behind it is its
state and the words so far. A command line that is continued is therefore split by reading on from
there. Whoever can split a line without its continuation has read every quote and every escape to
its end, so that the blank in front of the continuation separates words; a quote that is still open
takes it in, and stays open over everything that holds no quotes.

- `Splitting`, `Splitting.read`, `Splitting.finish`: the splitter, one character at a time.
- `shellWords_eq`: the words of a line are those behind its last character.
- `Splitting.read_blank_of_finish`: **a line that can be split** is whole at its end.
- `EndsQuoted`: a line that ends inside quotes.
- `shellWords_append_word`: a further word.
- `shellWords_append_iff`: **when a line can be continued** by a word.
-/

namespace Rollout.Text

/-! ## The splitter, one character at a time -/

/-- What the splitter knows of the characters behind it: the whole words, where it stands, and the
word that it is in. -/
structure Splitting where
  words : List (List Char)
  state : ShellState
  word : List Char
  deriving DecidableEq, Repr

namespace Splitting

/-- In front of a line. -/
def start : Splitting := ⟨[], .between, []⟩

/-- Behind one more character. -/
def read (split : Splitting) (c : Char) : Splitting :=
  match split.state with
  | .between =>
    if isShellBlank c then ⟨split.words, .between, []⟩
    else if c == '\\' then ⟨split.words, .escape, []⟩
    else if c == '\'' then ⟨split.words, .single, []⟩
    else if c == '"' then ⟨split.words, .double, []⟩
    else ⟨split.words, .word, [c]⟩
  | .word =>
    if isShellBlank c then ⟨split.words ++ [split.word], .between, []⟩
    else if c == '\\' then ⟨split.words, .escape, split.word⟩
    else if c == '\'' then ⟨split.words, .single, split.word⟩
    else if c == '"' then ⟨split.words, .double, split.word⟩
    else ⟨split.words, .word, split.word ++ [c]⟩
  | .single =>
    if c == '\'' then ⟨split.words, .word, split.word⟩
    else ⟨split.words, .single, split.word ++ [c]⟩
  | .double =>
    if c == '"' then ⟨split.words, .word, split.word⟩
    else if c == '\\' then ⟨split.words, .doubleEscape, split.word⟩
    else ⟨split.words, .double, split.word ++ [c]⟩
  | .escape => ⟨split.words, .word, split.word ++ [c]⟩
  | .doubleEscape =>
    if c == '"' || c == '\\' then ⟨split.words, .double, split.word ++ [c]⟩
    else ⟨split.words, .double, split.word ++ ['\\', c]⟩

/-- Behind some more characters. -/
def readAll (split : Splitting) (cs : List Char) : Splitting :=
  cs.foldl read split

/-- The words when no more characters follow. -/
def finish (split : Splitting) : Except ShellError (List (List Char)) :=
  match split.state with
  | .between => .ok split.words
  | .word => .ok (split.words ++ [split.word])
  | .single => .error .openQuote
  | .double => .error .openQuote
  | .escape => .error .openEscape
  | .doubleEscape => .error .openEscape

theorem readAll_append (split : Splitting) (first second : List Char) :
    split.readAll (first ++ second) = (split.readAll first).readAll second :=
  List.foldl_append

end Splitting

/-- Words in front of the words of the rest. -/
theorem append_map_append (first second : List (List Char))
    (rest : Except ShellError (List (List Char))) :
    (first ++ ·) <$> (second ++ ·) <$> rest = ((first ++ second) ++ ·) <$> rest := by
  cases rest with
  | error error => rfl
  | ok words => exact congrArg Except.ok (List.append_assoc first second words).symm

/-- One character is read, and the words of the rest follow. -/
theorem shellWordsFrom_cons (split : Splitting) (c : Char) (cs : List Char) :
    (split.words ++ ·) <$> shellWordsFrom split.state split.word (c :: cs)
      = ((split.read c).words ++ ·) <$>
          shellWordsFrom (split.read c).state (split.read c).word cs := by
  obtain ⟨words, state, word⟩ := split
  cases state with
  | between =>
    simp only [shellWordsFrom, Splitting.read]
    split_ifs <;> rfl
  | word =>
    simp only [shellWordsFrom, Splitting.read]
    split_ifs
    · exact append_map_append words [word] _
    all_goals rfl
  | single =>
    simp only [shellWordsFrom, Splitting.read]
    split_ifs <;> rfl
  | double =>
    simp only [shellWordsFrom, Splitting.read]
    split_ifs <;> rfl
  | escape => rfl
  | doubleEscape =>
    simp only [shellWordsFrom, Splitting.read]
    split_ifs <;> rfl

/-- The words of the characters left to read are those behind the last of them. -/
theorem shellWordsFrom_eq (split : Splitting) (cs : List Char) :
    (split.words ++ ·) <$> shellWordsFrom split.state split.word cs
      = (split.readAll cs).finish := by
  induction cs generalizing split with
  | nil =>
    obtain ⟨words, state, word⟩ := split
    cases state with
    | between => exact congrArg Except.ok (List.append_nil words)
    | _ => rfl
  | cons c cs ih => exact (shellWordsFrom_cons split c cs).trans (ih (split.read c))

/-- **The words of a line** are those behind its last character. -/
theorem shellWords_eq (line : String) :
    shellWords line
      = (·.map String.ofList) <$> (Splitting.start.readAll line.toList).finish := by
  rw [← shellWordsFrom_eq]
  show (·.map String.ofList) <$> shellWordsFrom .between [] line.toList
    = (·.map String.ofList) <$> ([] ++ ·) <$> shellWordsFrom .between [] line.toList
  cases shellWordsFrom .between [] line.toList <;> rfl

/-! ## Lines that can be split -/

/-- A character that has no meaning to the splitter outside quotes. -/
def isPlain (c : Char) : Bool :=
  !isShellBlank c && c != '\\' && c != '\'' && c != '"'

/-- A word that needs no quotes. -/
def IsPlainWord (word : String) : Prop :=
  word ≠ "" ∧ ∀ c ∈ word.toList, isPlain c = true

theorem isPlain_iff {c : Char} :
    isPlain c = true ↔ isShellBlank c = false ∧ c ≠ '\\' ∧ c ≠ '\'' ∧ c ≠ '"' := by
  simp [isPlain, and_assoc]

theorem isShellBlank_space : isShellBlank ' ' = true := rfl

namespace Splitting

/-- **A line that can be split** is whole at its end: neither a quote nor an escape is open, and a
blank ends its last word. -/
theorem read_blank_of_finish {split : Splitting} {words : List (List Char)}
    (h : split.finish = .ok words) {c : Char} (hblank : isShellBlank c = true) :
    split.read c = ⟨words, .between, []⟩ := by
  obtain ⟨before, state, word⟩ := split
  cases state with
  | between =>
    cases h
    exact if_pos hblank
  | word =>
    cases h
    exact if_pos hblank
  | single => cases h
  | double => cases h
  | escape => cases h
  | doubleEscape => cases h

theorem read_plain_word (words : List (List Char)) (word : List Char) {c : Char}
    (h : isPlain c = true) : read ⟨words, .word, word⟩ c = ⟨words, .word, word ++ [c]⟩ := by
  obtain ⟨hblank, hescape, hsingle, hdouble⟩ := isPlain_iff.mp h
  simp [read, hblank, hescape, hsingle, hdouble]

theorem read_plain_between (words : List (List Char)) {c : Char} (h : isPlain c = true) :
    read ⟨words, .between, []⟩ c = ⟨words, .word, [c]⟩ := by
  obtain ⟨hblank, hescape, hsingle, hdouble⟩ := isPlain_iff.mp h
  simp [read, hblank, hescape, hsingle, hdouble]

/-- Plain characters go on with a word. -/
theorem readAll_plain (words : List (List Char)) (word : List Char) {cs : List Char}
    (h : ∀ c ∈ cs, isPlain c = true) :
    readAll ⟨words, .word, word⟩ cs = ⟨words, .word, word ++ cs⟩ := by
  induction cs generalizing word with
  | nil => exact congrArg (Splitting.mk words .word) (List.append_nil word).symm
  | cons c cs ih =>
    have hrest : ∀ c ∈ cs, isPlain c = true := fun c hc => h c (List.mem_cons_of_mem _ hc)
    show readAll (read ⟨words, .word, word⟩ c) cs = _
    rw [read_plain_word words word (h c List.mem_cons_self), ih (word ++ [c]) hrest,
      List.append_assoc, List.singleton_append]

/-- Plain characters between words are a word. -/
theorem readAll_plainWord (words : List (List Char)) {word : String} (h : IsPlainWord word) :
    readAll ⟨words, .between, []⟩ word.toList = ⟨words, .word, word.toList⟩ := by
  obtain ⟨hne, hplain⟩ := h
  cases hchars : word.toList with
  | nil => exact absurd (String.toList_eq_nil_iff.mp hchars) hne
  | cons c cs =>
    rw [hchars] at hplain
    have hrest : ∀ c ∈ cs, isPlain c = true := fun c hc => hplain c (List.mem_cons_of_mem _ hc)
    show readAll (read ⟨words, .between, []⟩ c) cs = _
    rw [read_plain_between words (hplain c List.mem_cons_self), readAll_plain words [c] hrest,
      List.singleton_append]

end Splitting

/-- The splitter behind a blank and a plain word that continue a line. -/
theorem readAll_append_word (line word : String) :
    Splitting.start.readAll (line ++ " " ++ word).toList
      = ((Splitting.start.readAll line.toList).read ' ').readAll word.toList := by
  rw [String.toList_append, String.toList_append, Splitting.readAll_append,
    Splitting.readAll_append]
  rfl

/-- **A further word** behind a line that can be split. -/
theorem shellWords_append_word {line word : String} {words : List String}
    (h : shellWords line = .ok words) (hword : IsPlainWord word) :
    shellWords (line ++ " " ++ word) = .ok (words ++ [word]) := by
  rw [shellWords_eq] at h
  cases hfinish : (Splitting.start.readAll line.toList).finish with
  | error error =>
    rw [hfinish] at h
    cases h
  | ok chars =>
    rw [hfinish] at h
    cases h
    rw [shellWords_eq, readAll_append_word,
      Splitting.read_blank_of_finish hfinish isShellBlank_space,
      Splitting.readAll_plainWord chars hword]
    show Except.ok ((chars ++ [word.toList]).map String.ofList) = _
    rw [List.map_append, List.map_singleton, String.ofList_toList]

/-! ## Lines that end inside quotes -/

/-- The splitter stands inside quotes. -/
def ShellState.isQuoted : ShellState → Bool
  | .single => true
  | .double => true
  | .doubleEscape => true
  | _ => false

/-- A line ends inside quotes. -/
def EndsQuoted (line : String) : Prop :=
  (Splitting.start.readAll line.toList).state.isQuoted = true

instance (line : String) : Decidable (EndsQuoted line) :=
  inferInstanceAs (Decidable (_ = true))

namespace Splitting

/-- An open quote stays open over every character that is neither a quote nor a backslash. -/
theorem read_of_quoted {split : Splitting} (h : split.state.isQuoted = true) {c : Char}
    (hescape : c ≠ '\\') (hsingle : c ≠ '\'') (hdouble : c ≠ '"') :
    (split.read c).state = .single ∨ (split.read c).state = .double := by
  obtain ⟨words, state, word⟩ := split
  cases state with
  | between => cases h
  | word => cases h
  | escape => cases h
  | single => exact .inl (by simp [read, hsingle])
  | double => exact .inr (by simp [read, hescape, hdouble])
  | doubleEscape => exact .inr (by simp [read, hescape, hdouble])

theorem readAll_of_open {split : Splitting}
    (h : split.state = .single ∨ split.state = .double) {cs : List Char}
    (hplain : ∀ c ∈ cs, isPlain c = true) :
    (split.readAll cs).state = .single ∨ (split.readAll cs).state = .double := by
  induction cs generalizing split with
  | nil => exact h
  | cons c cs ih =>
    have hquoted : split.state.isQuoted = true := by
      rcases h with h | h <;> rw [h] <;> rfl
    obtain ⟨-, hescape, hsingle, hdouble⟩ := isPlain_iff.mp (hplain c List.mem_cons_self)
    exact ih (read_of_quoted hquoted hescape hsingle hdouble)
      fun c hc => hplain c (List.mem_cons_of_mem _ hc)

theorem finish_of_open {split : Splitting}
    (h : split.state = .single ∨ split.state = .double) : split.finish = .error .openQuote := by
  unfold finish
  rcases h with h | h <;> rw [h]

end Splitting

/-- A word behind a line that ends inside quotes is inside them, too. -/
theorem endsQuoted_append_word {line word : String} (h : EndsQuoted line)
    (hword : IsPlainWord word) :
    EndsQuoted (line ++ " " ++ word) ∧ shellWords (line ++ " " ++ word) = .error .openQuote := by
  have hopen : ((Splitting.start.readAll line.toList).read ' ').state = .single
      ∨ ((Splitting.start.readAll line.toList).read ' ').state = .double :=
    Splitting.read_of_quoted h (by decide) (by decide) (by decide)
  have hbehind := Splitting.readAll_of_open hopen hword.2
  rw [← readAll_append_word] at hbehind
  refine ⟨?_, ?_⟩
  · unfold EndsQuoted
    rcases hbehind with hstate | hstate <;> rw [hstate] <;> rfl
  · rw [shellWords_eq, Splitting.finish_of_open hbehind]
    rfl

/-- A backslash at the end of a line takes the blank, and with it the word behind, into a word. -/
theorem exists_shellWords_of_escape {line word : String}
    (h : (Splitting.start.readAll line.toList).state = .escape) (hword : IsPlainWord word) :
    ∃ words, shellWords (line ++ " " ++ word) = .ok words := by
  have hread : (Splitting.start.readAll line.toList).read ' '
      = ⟨(Splitting.start.readAll line.toList).words, .word,
          (Splitting.start.readAll line.toList).word ++ [' ']⟩ := by
    rw [Splitting.read, h]
  rw [shellWords_eq, readAll_append_word, hread, Splitting.readAll_plain _ _ hword.2]
  exact ⟨_, rfl⟩

/-- **A line can be continued** by a word unless it ends inside quotes. -/
theorem shellWords_append_iff {line word : String} (hword : IsPlainWord word) :
    (∃ words, shellWords (line ++ " " ++ word) = .ok words) ↔ ¬ EndsQuoted line := by
  constructor
  · rintro ⟨words, hwords⟩ hquoted
    rw [(endsQuoted_append_word hquoted hword).2] at hwords
    cases hwords
  · intro hquoted
    have hsplit : ∀ chars, (Splitting.start.readAll line.toList).finish = .ok chars →
        ∃ words, shellWords (line ++ " " ++ word) = .ok words := by
      intro chars hfinish
      have hline : shellWords line = .ok (chars.map String.ofList) := by
        rw [shellWords_eq, hfinish]
        rfl
      exact ⟨_, shellWords_append_word hline hword⟩
    unfold EndsQuoted at hquoted
    unfold Splitting.finish at hsplit
    cases hstate : (Splitting.start.readAll line.toList).state with
    | between =>
      rw [hstate] at hsplit
      exact hsplit _ rfl
    | word =>
      rw [hstate] at hsplit
      exact hsplit _ rfl
    | escape => exact exists_shellWords_of_escape hstate hword
    | _ =>
      rw [hstate] at hquoted
      exact absurd rfl hquoted

end Rollout.Text
