import Rusmes.Library.WireText

/-!
The words of a text. Everything is said of the first word: a text is blank, or it is blank
up to a word that ends where the text does or before a blank.
-/

namespace WireText

@[simp] theorem splitWhitespace_nil : splitWhitespace [] = [] := wordsBy_nil

theorem splitWhitespace_append {blank : Char} (white : isWhitespace blank = true)
    (first second : Text) :
    splitWhitespace (first ++ blank :: second) =
      splitWhitespace first ++ splitWhitespace second := wordsBy_append white first second

theorem splitWhitespace_blanks {blanks : Text}
    (white : ∀ character ∈ blanks, isWhitespace character = true) (text : Text) :
    splitWhitespace (blanks ++ text) = splitWhitespace text := wordsBy_blanks white text

theorem splitWhitespace_blank {text : Text}
    (white : ∀ character ∈ text, isWhitespace character = true) : splitWhitespace text = [] :=
  wordsBy_blank white

theorem splitWhitespace_behind (text : Text) {rest : Text}
    (ends : ∀ first, rest.head? = some first → isWhitespace first = true) :
    splitWhitespace (text ++ rest) = splitWhitespace text ++ splitWhitespace rest :=
  wordsBy_behind text ends

theorem splitWhitespace_word {word : Text} (nonempty : word ≠ [])
    (solid : ∀ character ∈ word, isWhitespace character = false) {text : Text}
    (ends : ∀ first, text.head? = some first → isWhitespace first = true) :
    splitWhitespace (word ++ text) = word :: splitWhitespace text := wordsBy_word nonempty solid ends

theorem joinWith_intercalate (separator : Text) (parts : List Text) :
    joinWith separator parts = separator.intercalate parts := by
  induction parts with
  | nil => rfl
  | cons part parts ih =>
      cases parts with
      | nil => rw [List.intercalate_singleton, joinWith]
      | cons second parts => rw [joinWith_cons_cons, ih, List.intercalate_cons_cons, List.append_assoc]

theorem splitWhitespace_joinWith {words : List Text} (nonempty : ∀ word ∈ words, word ≠ [])
    (solid : ∀ word ∈ words, ∀ character ∈ word, isWhitespace character = false) :
    splitWhitespace (joinWith [' '] words) = words := by
  rw [joinWith_intercalate]
  exact wordsBy_intercalate rfl fun word member => ⟨nonempty word member, solid word member⟩

theorem exists_word (text : Text) :
    ∃ word rest, text = word ++ rest ∧ (∀ character ∈ word, isWhitespace character = false) ∧
      ∀ first, rest.head? = some first → isWhitespace first = true := exists_solid isWhitespace text

theorem splitWhitespace_cases (text : Text) :
    ((∀ character ∈ text, isWhitespace character = true) ∧ splitWhitespace text = []) ∨
      ∃ blanks word rest, text = blanks ++ (word ++ rest) ∧
        (∀ character ∈ blanks, isWhitespace character = true) ∧ word ≠ [] ∧
        (∀ character ∈ word, isWhitespace character = false) ∧
        (∀ first, rest.head? = some first → isWhitespace first = true) ∧
        splitWhitespace text = word :: splitWhitespace rest := wordsBy_cases isWhitespace text

theorem splitWhitespace_eq_nil {text : Text} (none : splitWhitespace text = []) :
    ∀ character ∈ text, isWhitespace character = true := by
  rcases splitWhitespace_cases text with ⟨white, -⟩ | ⟨_, _, _, -, -, -, -, -, found⟩
  · exact white
  · rw [found] at none
    cases none

theorem splitWhitespace_opening {start : Text} (nonempty : start ≠ [])
    (solid : ∀ character ∈ start, isWhitespace character = false) (text : Text) :
    ∃ more rest, text = more ++ rest ∧
      (∀ first, rest.head? = some first → isWhitespace first = true) ∧
      splitWhitespace (start ++ text) = (start ++ more) :: splitWhitespace rest := by
  obtain ⟨more, rest, rfl, solidMore, ends⟩ := exists_word text
  refine ⟨more, rest, rfl, ends, ?_⟩
  rw [← List.append_assoc]
  apply splitWhitespace_word (by simp [nonempty]) _ ends
  intro character member
  rcases List.mem_append.mp member with inside | behind
  · exact solid character inside
  · exact solidMore character behind

theorem splitWhitespace_start {start : Text} (nonempty : start ≠ [])
    (solid : ∀ character ∈ start, isWhitespace character = false) {text content : Text}
    (same : splitWhitespace text = splitWhitespace (start ++ content)) :
    ∃ blanks found, text = blanks ++ (start ++ found) ∧
      (∀ character ∈ blanks, isWhitespace character = true) ∧
      splitWhitespace found = splitWhitespace content := by
  obtain ⟨more, behind, rfl, ends, first⟩ := splitWhitespace_opening nonempty solid content
  rw [first] at same
  rcases splitWhitespace_cases text with ⟨-, empty⟩ |
    ⟨blanks, word, later, rfl, white, -, -, begins, cut⟩
  · rw [empty] at same
    cases same
  · rw [cut, List.cons.injEq] at same
    obtain ⟨rfl, others⟩ := same
    refine ⟨blanks, more ++ later, by simp, white, ?_⟩
    rw [splitWhitespace_behind more begins, splitWhitespace_behind more ends, others]

theorem trimEnd_word {word : Text} (nonempty : word ≠ [])
    (solid : ∀ character ∈ word, isWhitespace character = false) (start text : Text) :
    trimEnd (start ++ (word ++ text)) = start ++ (word ++ trimEnd text) := by
  obtain ⟨front, last, rfl⟩ := (List.eq_nil_or_concat' word).resolve_left nonempty
  induction text using List.reverseRecOn with
  | nil =>
      have stays : ¬ isWhitespace last = true := by simp [solid last (by simp)]
      rw [trimEnd, trimEnd, List.append_nil, ← List.append_assoc,
        List.rdropWhile_concat_neg _ _ _ stays, List.rdropWhile_nil, List.append_nil,
        List.append_assoc]
  | append_singleton text character ih =>
      rw [← List.append_assoc, ← List.append_assoc, trimEnd, trimEnd]
      cases white : isWhitespace character with
      | true =>
          rw [List.rdropWhile_concat_pos _ _ _ white, List.rdropWhile_concat_pos _ _ _ white,
            List.append_assoc]
          exact ih
      | false =>
          have stays : ¬ isWhitespace character = true := by simp [white]
          rw [List.rdropWhile_concat_neg _ _ _ stays, List.rdropWhile_concat_neg _ _ _ stays]
          simp

theorem trimEnd_whole (text : Text) :
    ∃ blanks, text = trimEnd text ++ blanks ∧ ∀ character ∈ blanks, isWhitespace character = true :=
  ⟨text.rtakeWhile isWhitespace, List.rdropWhile_append_rtakeWhile.symm,
    fun _ member => List.mem_rtakeWhile_imp member⟩

theorem trim_blanks {blanks : Text} (white : ∀ character ∈ blanks, isWhitespace character = true)
    (text : Text) : trim (blanks ++ text) = trim text := congrArg trimEnd (trimStart_append white)

theorem trimEnd_suffix {text rest : Text} (suffix : rest <:+ text) (trimmed : trimEnd text = text) :
    trimEnd rest = rest := by
  obtain ⟨before, rfl⟩ := suffix
  rw [trimEnd, List.rdropWhile_eq_self_iff] at trimmed ⊢
  intro nonempty
  have last := trimmed (List.append_ne_nil_of_right_ne_nil _ nonempty)
  rwa [List.getLast_append_of_ne_nil _ nonempty] at last

theorem trimStart_trimEnd (text : Text) : trimStart (trimEnd text) = trim text := by
  obtain ⟨blanks, whole, blank⟩ := trimEnd_whole text
  have kept : trimEnd (trimEnd text) = trimEnd text := List.rdropWhile_idempotent _ _
  have ends := trimEnd_suffix (trimStart_suffix (trimEnd text)) kept
  have front : trimStart text = trimStart (trimEnd text ++ blanks) := congrArg trimStart whole
  rw [trim, front]
  change _ = trimEnd (List.dropWhile isWhitespace (trimEnd text ++ blanks))
  rw [List.dropWhile_append]
  split
  · rename_i none
    have empty : trimStart (trimEnd text) = [] := List.isEmpty_iff.mp none
    have gone : blanks.dropWhile isWhitespace = [] := List.dropWhile_eq_nil_iff.mpr blank
    rw [gone, empty]
    rfl
  · exact (ends.symm.trans (trimEnd_append blank).symm)

theorem trim_trimEnd (text : Text) : trim (trimEnd text) = trim text := by
  rw [trim, trimStart_trimEnd]
  exact List.rdropWhile_idempotent _ _

theorem trim_cons_blank {blank : Char} (white : isWhitespace blank = true) (text : Text) :
    trim (blank :: text) = trim text :=
  congrArg trimEnd (List.dropWhile_cons_of_pos white)

theorem trim_word {word : Text} (nonempty : word ≠ [])
    (solid : ∀ character ∈ word, isWhitespace character = false) (text : Text) :
    trim (word ++ text) = word ++ trimEnd text := by
  obtain ⟨first, rest, rfl⟩ := List.exists_cons_of_ne_nil nonempty
  have start : trimStart (first :: rest ++ text) = first :: rest ++ text :=
    List.dropWhile_cons_of_neg (by simp [solid first List.mem_cons_self])
  rw [trim, start]
  exact trimEnd_word nonempty solid [] text

theorem trim_of_word {text word : Text} (single : splitWhitespace text = [word]) : trim text = word := by
  have among : word ∈ splitWhitespace text := by simp [single]
  have proper := @mem_wordsBy _ isWhitespace text word among
  have same : splitWhitespace text = splitWhitespace (word ++ []) := by
    rw [single, List.append_nil]
    exact (wordsBy_solid proper.1 proper.2).symm
  obtain ⟨blanks, found, rfl, white, none⟩ := splitWhitespace_start proper.1 proper.2 same
  have gone : trimEnd ([] ++ found) = [] := trimEnd_append (splitWhitespace_eq_nil none)
  rw [trim_blanks white, trim_word proper.1 proper.2, ← List.nil_append found, gone, List.append_nil]

theorem trim_ends {text : Text} (first : ∀ character, text.head? = some character →
    isWhitespace character = false)
    (last : ∀ character, text.getLast? = some character → isWhitespace character = false) :
    trim text = text := by
  have start : trimStart text = text := by
    cases text with
    | nil => rfl
    | cons character text => exact List.dropWhile_cons_of_neg (by simp [first character rfl])
  rw [trim, start]
  rcases List.eq_nil_or_concat' text with rfl | ⟨front, character, rfl⟩
  · rfl
  · have plain := last character (List.getLast?_concat)
    rw [trimEnd, List.rdropWhile_concat_neg _ _ _ (by simp [plain])]

theorem ends_of_trim {text : Text} (trimmed : trim text = text) :
    (∀ character, text.head? = some character → isWhitespace character = false) ∧
      ∀ character, text.getLast? = some character → isWhitespace character = false := by
  constructor
  · intro character head
    obtain ⟨rest, rfl⟩ := List.head?_eq_some_iff.mp head
    exact trim_head trimmed
  · intro character last
    rw [← trimmed] at last
    exact trim_last last

theorem trim_joined {first second : Text} {separator : Char}
    (solid : isWhitespace separator = false) (front : trim first = first)
    (back : trim second = second) : trim (first ++ separator :: second) = first ++ separator :: second := by
  apply trim_ends
  · intro character head
    cases first with
    | nil => rwa [← Option.some.inj head]
    | cons start first => exact (ends_of_trim front).1 character head
  · intro character last
    rcases List.eq_nil_or_concat' second with rfl | ⟨second, final, rfl⟩
    · rw [List.getLast?_concat] at last
      rwa [← Option.some.inj last]
    · rw [← List.cons_append, ← List.append_assoc, List.getLast?_concat] at last
      exact (ends_of_trim back).2 character (by rw [List.getLast?_concat, last])

theorem splitWhitespace_trim (text : Text) : splitWhitespace (trim text) = splitWhitespace text := by
  obtain ⟨behind, ends, white⟩ := trimEnd_whole (trimStart text)
  have start : splitWhitespace (trimStart text) = splitWhitespace text := by
    conv_rhs => rw [← @List.takeWhile_append_dropWhile _ isWhitespace text]
    exact (splitWhitespace_blanks (fun _ member => List.mem_takeWhile_imp member) _).symm
  rw [← start, ends, splitWhitespace_behind _ fun first head => white first (List.mem_of_mem_head? head),
    splitWhitespace_blank white, List.append_nil]
  rfl

theorem trim_enclosed {first last : Char} (opening : isWhitespace first = false)
    (closing : isWhitespace last = false) (middle : Text) :
    trim (first :: (middle ++ [last])) = first :: (middle ++ [last]) := by
  apply trim_ends
  · intro character head
    rwa [← Option.some.inj head]
  · intro character ends
    rw [← List.cons_append, List.getLast?_concat] at ends
    rwa [← Option.some.inj ends]

end WireText
