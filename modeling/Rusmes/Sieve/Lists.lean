import Rusmes.Sieve.Parser

/-!
The commas in the lists of a script: what stands between the elements of its string lists
and of the test lists of `allof` and `anyof`.
-/

namespace Rusmes

open WireText

def afterComment (input : Text) : Text := (input.dropWhile (· ≠ '\n')).tail

/-- From one place of a script to a later one, over characters, comments and strings. The
characters outside of comments and strings are `fine` with what follows them. -/
inductive Span (fine : Char → Text → Prop) : Text → Text → Prop
  | done (input : Text) : Span fine input input
  | code {character : Char} {rest left : Text} (noComment : character ≠ '#')
      (noString : character ≠ '"') (here : fine character rest) (others : Span fine rest left) :
      Span fine (character :: rest) left
  | comment {rest left : Text} (others : Span fine (afterComment rest) left) :
      Span fine ('#' :: rest) left
  | string {value rest next left : Text} (read : stringRest false rest = .ok (value, next))
      (others : Span fine next left) : Span fine ('"' :: rest) left

def CodeAt (script place : Text) : Prop := Span (fun _ _ => True) script place

/-- A number of commas from one place to another, with white space and comments around. -/
inductive Commas : Nat → Text → Text → Prop
  | none {input : Text} (noComma : (skipWhitespace input).head? ≠ some ',') :
      Commas 0 input (skipWhitespace input)
  | more {count : Nat} {input rest left : Text} (comma : skipWhitespace input = ',' :: rest)
      (others : Commas count rest left) : Commas (count + 1) input left

/-- The rest of a list up to its closing character: how many commas stand before its first
element, and after each of its elements. -/
inductive Layout (closing : Char) (element : Text → Text → Prop) : Text → List Nat → Prop
  | close {count : Nat} {input left : Text} (commas : Commas count input left)
      (closes : left.head? = some closing) : Layout closing element input [count]
  | element {count : Nat} {counts : List Nat} {input left next : Text}
      (commas : Commas count input left) (read : element left next)
      (others : Layout closing element next counts) :
      Layout closing element input (count :: counts)

def StringAt (input rest : Text) : Prop := ∃ text, parseString input = .ok (text, rest)

def TestAt (alphanumeric : Char → Bool) (input rest : Text) : Prop :=
  ∃ steps test, parseTest alphanumeric steps input = .ok (test, rest)

def ListLayout (alphanumeric : Char → Bool) (opening : Char) (input : Text) (counts : List Nat) :
    Prop :=
  opening = '[' ∧ Layout ']' StringAt input counts ∨
    opening = '(' ∧ Layout ')' (TestAt alphanumeric) input counts

/-- One comma between two elements, and none elsewhere. -/
def Strict (counts : List Nat) : Prop :=
  counts.head? = some 0 ∧ counts.getLast? = some 0 ∧ ∀ count ∈ counts.tail.dropLast, count = 1

def ListsStrict (alphanumeric : Char → Bool) (script : Text) : Prop :=
  ∀ opening input, CodeAt script (opening :: input) → opening ∈ ['[', '('] →
    ∃ counts, ListLayout alphanumeric opening input counts ∧ Strict counts

def NoneMissing (counts : List Nat) : Prop :=
  0 ∉ counts.tail.dropLast ∧ ∀ count ∈ counts.tail.getLast?, count = 0

/-! Determinism of layouts. -/

theorem Commas.unique {count other : Nat} {input left next : Text} (commas : Commas count input left)
    (others : Commas other input next) : other = count ∧ next = left := by
  induction commas generalizing other with
  | none noComma =>
      cases others with
      | none _ => exact ⟨rfl, rfl⟩
      | more comma _ =>
          rw [comma] at noComma
          exact absurd rfl noComma
  | more comma _ ih =>
      cases others with
      | none noComma =>
          rw [comma] at noComma
          exact absurd rfl noComma
      | more commaAgain others =>
          rw [comma] at commaAgain
          rw [← (List.cons.inj commaAgain).2] at others
          obtain ⟨rfl, same⟩ := ih others
          exact ⟨rfl, same⟩

theorem Layout.unique {closing : Char} {element : Text → Text → Prop} {input : Text}
    {counts others : List Nat} (first : Layout closing element input counts)
    (second : Layout closing element input others)
    (same : ∀ {input rest next}, element input rest → element input next → next = rest)
    (opens : ∀ {input rest}, element input rest → input.head? ≠ some closing) :
    others = counts := by
  induction first generalizing others with
  | close commas closes =>
      cases second with
      | close commasAgain _ => rw [(commas.unique commasAgain).1]
      | element commasAgain read _ =>
          rw [(commas.unique commasAgain).2] at read
          exact absurd closes (opens read)
  | element commas read _ ih =>
      cases second with
      | close commasAgain closes =>
          rw [(commas.unique commasAgain).2] at closes
          exact absurd closes (opens read)
      | element commasAgain readAgain later =>
          rw [(commas.unique commasAgain).2] at readAgain
          rw [same read readAgain] at later
          rw [(commas.unique commasAgain).1, ih later]

def Keeps {α : Type} (run more : Parsing α) : Prop := ∀ result, run = .ok result → more = .ok result

namespace Keeps

variable {α β : Type} {run more : Parsing α}

theorem same (run : Parsing α) : Keeps run run := fun _ ran => ran

theorem bind {next after : α → Parsing β} (first : Keeps run more)
    (others : ∀ value, Keeps (next value) (after value)) :
    Keeps (run >>= next) (more >>= after) := by
  intro result ran
  obtain ⟨value, read, ran⟩ := ran_bind ran
  rw [first value read]
  exact others value result ran

theorem ite {condition : Prop} [Decidable condition] {other otherMore : Parsing α}
    (first : Keeps run more) (second : Keeps other otherMore) :
    Keeps (if condition then run else other) (if condition then more else otherMore) := by
  by_cases held : condition
  · simpa only [if_pos held] using first
  · simpa only [if_neg held] using second

end Keeps

section Steps

variable {alphanumeric : Char → Bool} {test testMore : Text → Parsing (SieveTest × Text)}

theorem itemsUntil_keeps {closing : Char} (tests : ∀ input, Keeps (test input) (testMore input)) :
    ∀ steps input, Keeps (itemsUntil closing test steps input)
      (itemsUntil closing testMore steps input) := by
  intro steps
  induction steps with
  | zero => intro input; exact .same _
  | succ steps ih =>
      intro input
      unfold itemsUntil
      exact .ite (.same _) (.bind (tests _) fun _ => .bind (ih _) fun _ => .same _)

theorem parseTestList_keeps (tests : ∀ input, Keeps (test input) (testMore input))
    (make : List SieveTest → SieveTest) (input : Text) :
    Keeps (parseTestList test make input) (parseTestList testMore make input) :=
  .bind (.same _) fun _ => .bind (itemsUntil_keeps tests _ _) fun _ => .same _

theorem parseTestNamed_keeps (tests : ∀ input, Keeps (test input) (testMore input))
    (word input : Text) : Keeps (parseTestNamed alphanumeric test word input)
      (parseTestNamed alphanumeric testMore word input) := by
  unfold parseTestNamed
  refine .ite (.same _) (.ite (.same _) (.ite (.same _) (.ite (.same _) (.ite (.same _)
    (.ite (.same _) (.ite (.same _) (.ite ?_ (.ite ?_ (.ite ?_ (.same _))))))))))
  · exact parseTestList_keeps tests _ input
  · exact parseTestList_keeps tests _ input
  · exact .bind (tests _) fun _ => .same _

theorem parseTest_keeps {steps more : Nat} (fewer : steps ≤ more) :
    ∀ input, Keeps (parseTest alphanumeric steps input) (parseTest alphanumeric more input) := by
  induction steps generalizing more with
  | zero => intro _ _ ran; cases ran
  | succ steps ih =>
      intro input
      obtain ⟨more, rfl⟩ : ∃ others, more = others + 1 := ⟨more - 1, by omega⟩
      unfold parseTest
      exact .bind (.same _) fun pair => parseTestNamed_keeps (ih (by omega)) pair.1 pair.2

end Steps

section Elements

variable {alphanumeric : Char → Bool} {input rest next : Text}

theorem StringAt.unique (first : StringAt input rest) (second : StringAt input next) :
    next = rest := by
  obtain ⟨text, read⟩ := first
  obtain ⟨other, readAgain⟩ := second
  exact (Prod.mk.inj (Except.ok.inj (readAgain.symm.trans read))).2

theorem TestAt.unique (first : TestAt alphanumeric input rest)
    (second : TestAt alphanumeric input next) : next = rest := by
  obtain ⟨steps, test, read⟩ := first
  obtain ⟨more, other, readAgain⟩ := second
  have larger := parseTest_keeps (Nat.le_max_left steps more) input _ read
  have largerAgain := parseTest_keeps (Nat.le_max_right steps more) input _ readAgain
  exact (Prod.mk.inj (Except.ok.inj (largerAgain.symm.trans larger))).2

theorem skipWhitespace_head {character : Char} (notBlank : isWhitespace character = false)
    (noComment : character ≠ '#') (starts : input.head? = some character) :
    skipWhitespace input = input := by
  cases input with
  | nil => rfl
  | cons first rest =>
      rw [Option.some.inj starts, skipWhitespace_solid notBlank noComment]

theorem parseString_head {character : Char} (notBlank : isWhitespace character = false)
    (noComment : character ≠ '#') (noString : character ≠ '"') (read : StringAt input rest) :
    input.head? ≠ some character := by
  intro starts
  obtain ⟨text, read⟩ := read
  rw [parseString, skipWhitespace_head notBlank noComment starts] at read
  split at read
  · exact noString (Option.some.inj starts).symm
  · cases read

theorem parseTest_head {character : Char} (notBlank : isWhitespace character = false)
    (noComment : character ≠ '#') (noWord : wordCharacter alphanumeric character = false)
    (read : TestAt alphanumeric input rest) : input.head? ≠ some character := by
  intro starts
  obtain ⟨steps, test, read⟩ := read
  cases steps with
  | zero => cases read
  | succ steps =>
      have noWords : input.takeWhile (wordCharacter alphanumeric) = [] := by
        cases input with
        | nil => rfl
        | cons first input => rw [Option.some.inj starts, List.takeWhile_cons, noWord]; rfl
      rw [parseTest, parseWord, skipWhitespace_head notBlank noComment starts, if_pos noWords]
        at read
      cases read

theorem listLayout_unique {opening : Char} {counts others : List Nat}
    (first : ListLayout alphanumeric opening input counts)
    (second : ListLayout alphanumeric opening input others) : others = counts := by
  rcases first with ⟨rfl, first⟩ | ⟨rfl, first⟩ <;> rcases second with ⟨same, second⟩ | ⟨same, second⟩
  · exact first.unique second StringAt.unique
      (parseString_head (by decide) (by decide) (by decide))
  · exact absurd same (by decide)
  · exact absurd same (by decide)
  · exact first.unique second TestAt.unique (parseTest_head (by decide) (by decide) rfl)

end Elements

/-! From the start of a parser to its end. -/

/-- No comma before the first element of a list, and at most one after each element. -/
def Lenient (counts : List Nat) : Prop :=
  counts.head? = some 0 ∧ ∀ count ∈ counts, count ≤ 1

def OpensList (alphanumeric : Char → Bool) (opening : Char) (input : Text) : Prop :=
  opening ∈ ['[', '('] → ∃ counts, ListLayout alphanumeric opening input counts ∧ Lenient counts

def Plain (character : Char) : Prop := character ∉ ['[', '(', '#', '"']

instance (character : Char) : Decidable (Plain character) :=
  inferInstanceAs (Decidable (character ∉ ['[', '(', '#', '"']))

section Spans

variable {fine : Char → Text → Prop} {input rest left : Text}

theorem Span.trans (first : Span fine input rest) (second : Span fine rest left) :
    Span fine input left := by
  induction first with
  | done => exact second
  | code noComment noString here _ ih => exact .code noComment noString here (ih second)
  | comment _ ih => exact .comment (ih second)
  | string read _ ih => exact .string read (ih second)

theorem Span.here {character : Char} (walk : Span fine input []) (noComment : character ≠ '#')
    (noString : character ≠ '"') (place : CodeAt input (character :: rest)) :
    fine character rest := by
  generalize reached : character :: rest = next at place
  induction place with
  | done =>
      subst reached
      cases walk with
      | code _ _ here _ => exact here
      | comment _ => exact absurd rfl noComment
      | string _ _ => exact absurd rfl noString
  | code noCommentFirst noStringFirst _ _ ih =>
      cases walk with
      | code _ _ _ others => exact ih others reached
      | comment _ => exact absurd rfl noCommentFirst
      | string _ _ => exact absurd rfl noStringFirst
  | comment _ ih =>
      cases walk with
      | code noCommentFirst _ _ _ => exact absurd rfl noCommentFirst
      | comment others => exact ih others reached
  | string read _ ih =>
      cases walk with
      | code _ noStringFirst _ _ => exact absurd rfl noStringFirst
      | string readAgain others =>
          rw [read] at readAgain
          rw [← (Prod.mk.inj (Except.ok.inj readAgain)).2] at others
          exact ih others reached

variable {alphanumeric : Char → Bool}

theorem Span.plain {character : Char} (plain : Plain character)
    (others : Span (OpensList alphanumeric) rest left) :
    Span (OpensList alphanumeric) (character :: rest) left := by
  simp only [Plain, List.mem_cons, List.not_mem_nil, or_false, not_or] at plain
  refine .code plain.2.2.1 plain.2.2.2 ?_ others
  simp [OpensList, plain.1, plain.2.1]

theorem span_skipFrom (input : Text) :
    Span (OpensList alphanumeric) input (skipFrom false input) ∧
      Span (OpensList alphanumeric) (afterComment input) (skipFrom true input) := by
  induction input with
  | nil => exact ⟨.done [], .done []⟩
  | cons character rest ih =>
      constructor
      · rw [skipFrom]
        by_cases blank : isWhitespace character
        · rw [if_pos blank]
          refine .plain ?_ ih.1
          intro opens
          simp only [List.mem_cons, List.not_mem_nil, or_false] at opens
          rcases opens with rfl | rfl | rfl | rfl <;> exact absurd blank (by decide)
        · rw [if_neg blank]
          by_cases comments : character = '#'
          · rw [if_pos comments, comments]
            exact .comment ih.2
          · rw [if_neg comments]
            exact .done _
      · rw [skipFrom, afterComment, List.dropWhile_cons]
        by_cases ended : character = '\n'
        · rw [if_neg (by simp [ended]), ended]
          exact ih.1
        · rw [if_pos (by simp [ended]), decide_eq_true ended]
          exact ih.2

theorem span_skip (input : Text) :
    Span (OpensList alphanumeric) input (skipWhitespace input) :=
  (span_skipFrom input).1

theorem span_dropWhile {accepts : Char → Bool} (plain : ∀ character, accepts character →
    Plain character) (input : Text) :
    Span (OpensList alphanumeric) input (input.dropWhile accepts) := by
  induction input with
  | nil => exact .done []
  | cons character rest ih =>
      rw [List.dropWhile_cons]
      split
      · rename_i accepted
        exact .plain (plain character accepted) ih
      · exact .done _

end Spans

def Spans {α : Type} (alphanumeric : Char → Bool) (input : Text) (run : Parsing (α × Text)) :
    Prop :=
  ∀ value rest, run = .ok (value, rest) → Span (OpensList alphanumeric) input rest

namespace Spans

variable {α β : Type} {alphanumeric : Char → Bool} {input : Text} {run : Parsing (α × Text)}

theorem done (value : α) : Spans alphanumeric input (.ok (value, input)) := by
  intro _ _ same
  rw [← (Prod.mk.inj (Except.ok.inj same)).2]
  exact .done input

theorem failed (error : ParseError) :
    Spans alphanumeric input (.error error : Parsing (α × Text)) := by
  intro _ _ same
  cases same

theorem bind {next : α × Text → Parsing (β × Text)} (first : Spans alphanumeric input run)
    (others : ∀ value rest, Spans alphanumeric rest (next (value, rest))) :
    Spans alphanumeric input (run >>= next) := by
  intro value left ran
  obtain ⟨pair, read, ran⟩ := ran_bind ran
  exact (first pair.1 pair.2 read).trans (others pair.1 pair.2 value left ran)

theorem map {change : α × Text → β × Text} (first : Spans alphanumeric input run)
    (keeps : ∀ value rest, (change (value, rest)).2 = rest) :
    Spans alphanumeric input (run.map change) := by
  intro value left ran
  cases read : run with
  | error error =>
      rw [read] at ran
      cases ran
  | ok pair =>
      rw [read] at ran
      have reached := congrArg Prod.snd (Except.ok.inj ran)
      rw [keeps] at reached
      rw [← (show pair.2 = left from reached)]
      exact first pair.1 pair.2 read

theorem ite {condition : Prop} [Decidable condition] {other : Parsing (α × Text)}
    (first : Spans alphanumeric input run) (second : Spans alphanumeric input other) :
    Spans alphanumeric input (if condition then run else other) := by
  by_cases held : condition
  · rwa [if_pos held]
  · rwa [if_neg held]

theorem skip (spans : Spans alphanumeric (skipWhitespace input) run) :
    Spans alphanumeric input run :=
  fun value rest ran => (span_skip input).trans (spans value rest ran)

theorem expect {symbol : Char} (plain : Plain symbol) {next : Text → Parsing (β × Text)}
    (others : ∀ rest, Spans alphanumeric rest (next rest)) :
    Spans alphanumeric input (Rusmes.expect [symbol] input >>= next) := by
  refine .skip ?_
  rw [Rusmes.expect, expectEach]
  cases skipWhitespace input with
  | nil => exact .failed _
  | cons character rest =>
      by_cases starts : (character :: rest).head? = some symbol
      · rw [if_pos starts]
        intro value left ran
        have walk := others rest value left ran
        rw [Option.some.inj starts]
        exact .plain plain walk
      · rw [if_neg starts]
        exact .failed _

end Spans

section Lexical

variable {alphanumeric : Char → Bool}

theorem wordCharacter_plain {character : Char} (accepted : wordCharacter alphanumeric character) :
    Plain character := by
  intro opens
  simp only [List.mem_cons, List.not_mem_nil, or_false] at opens
  rcases opens with rfl | rfl | rfl | rfl <;> cases accepted

theorem digit_plain {character : Char} (accepted : character.isDigit) : Plain character := by
  intro opens
  simp only [List.mem_cons, List.not_mem_nil, or_false] at opens
  rcases opens with rfl | rfl | rfl | rfl <;> cases accepted

theorem parseWord_spans (input : Text) :
    Spans alphanumeric input (parseWord alphanumeric input) := by
  refine .skip (.ite (.failed _) ?_)
  intro word rest ran
  rw [← (Prod.mk.inj (Except.ok.inj ran)).2]
  exact span_dropWhile (fun _ accepted => wordCharacter_plain accepted) _

theorem parseTag_spans (input : Text) : Spans alphanumeric input (parseTag alphanumeric input) := by
  refine .skip ?_
  rw [parseTag]
  split
  · rename_i rest starts
    rw [starts]
    refine .ite (.failed _) ?_
    intro tag left ran
    rw [← (Prod.mk.inj (Except.ok.inj ran)).2]
    exact .plain (by decide) (span_dropWhile (fun _ accepted => wordCharacter_plain accepted) _)
  · exact .failed _

theorem parseString_spans (input : Text) : Spans alphanumeric input (parseString input) := by
  refine .skip ?_
  rw [parseString]
  split
  · rename_i rest starts
    rw [starts]
    intro text left read
    exact .string read (.done left)
  · exact .failed _

theorem suffix_plain {character : Char} {multiplier : Int}
    (suffix : suffixMultiplier character = some multiplier) : Plain character := by
  intro opens
  simp only [List.mem_cons, List.not_mem_nil, or_false] at opens
  rcases opens with rfl | rfl | rfl | rfl <;> cases suffix

theorem parseNumber_spans (input : Text) : Spans alphanumeric input (parseNumber input) := by
  refine .skip (.ite (.failed _) ?_)
  have digits := @span_dropWhile alphanumeric _
    (fun _ accepted => digit_plain accepted) (skipWhitespace input)
  have values : ∀ (digits rest : Text) (change : Int → Int), Span (OpensList alphanumeric)
      (skipWhitespace input) rest →
      Spans alphanumeric (skipWhitespace input)
        ((parseI64 digits).map fun value => (change value, rest)) := by
    intro digits rest change walk value left ran
    cases read : parseI64 digits with
    | error error =>
        rw [read] at ran
        cases ran
    | ok number =>
        rw [read] at ran
        rw [← (Prod.mk.inj (Except.ok.inj ran)).2]
        exact walk
  split
  · rename_i multiplier suffix
    refine values _ _ _ (digits.trans ?_)
    cases after : (skipWhitespace input).dropWhile Char.isDigit with
    | nil =>
        rw [after] at suffix
        cases suffix
    | cons character rest =>
        rw [after] at suffix
        exact .plain (suffix_plain suffix) (.done rest)
  · exact values _ _ _ digits

end Lexical

/-! Lists. -/

section Lists

variable {alphanumeric : Char → Bool} {closing : Char} {element : Text → Text → Prop}
  {input rest : Text} {count : Nat} {counts : List Nat}

theorem Commas.skip (commas : Commas count (skipWhitespace input) rest) :
    Commas count input rest := by
  cases commas with
  | none noComma =>
      rw [skipWhitespace_twice] at noComma ⊢
      exact .none noComma
  | more comma others =>
      rw [skipWhitespace_twice] at comma
      exact .more comma others

theorem Layout.skip (layout : Layout closing element (skipWhitespace input) counts) :
    Layout closing element input counts := by
  cases layout with
  | close commas closes => exact .close commas.skip closes
  | element commas read others => exact .element commas.skip read others

theorem Layout.comma (comma : skipWhitespace input = ',' :: rest)
    (layout : Layout closing element rest (count :: counts)) :
    Layout closing element input ((count + 1) :: counts) := by
  cases layout with
  | close commas closes => exact .close (.more comma commas) closes
  | element commas read others => exact .element (.more comma commas) read others

theorem layout_comma
    (layout : Layout closing element (if (skipWhitespace rest).head? = some ',' then
      (skipWhitespace rest).tail else skipWhitespace rest) counts) (lenient : Lenient counts) :
    ∃ after, Layout closing element rest after ∧ ∀ count ∈ after, count ≤ 1 := by
  obtain ⟨starts, few⟩ := lenient
  by_cases comma : (skipWhitespace rest).head? = some ','
  · rw [if_pos comma] at layout
    cases counts with
    | nil => cases starts
    | cons first others =>
        rw [Option.some.inj starts] at layout few
        refine ⟨1 :: others, layout.comma (List.eq_cons_of_mem_head? comma), ?_⟩
        intro count member
        rcases List.mem_cons.mp member with rfl | later
        · exact Nat.le_refl 1
        · exact few count (List.mem_cons_of_mem _ later)
  · rw [if_neg comma] at layout
    exact ⟨counts, layout.skip, few⟩

theorem span_comma (rest : Text) : Span (OpensList alphanumeric) rest
    (if (skipWhitespace rest).head? = some ',' then (skipWhitespace rest).tail
    else skipWhitespace rest) := by
  refine (span_skip rest).trans ?_
  by_cases comma : (skipWhitespace rest).head? = some ','
  · rw [if_pos comma]
    have shape := List.eq_cons_of_mem_head? comma
    generalize skipWhitespace rest = input at shape
    rw [shape]
    exact .plain (by decide) (.done _)
  · rw [if_neg comma]
    exact .done _

theorem itemsUntil_spans {α : Type} {item : Text → Parsing (α × Text)} (noComma : closing ≠ ',')
    (items : ∀ input, Spans alphanumeric input (item input))
    (read : ∀ input value rest, item input = .ok (value, rest) → element input rest)
    (opens : ∀ {input rest}, element input rest → input.head? ≠ some ',') :
    ∀ steps input values left, itemsUntil closing item steps input = .ok (values, left) →
      Span (OpensList alphanumeric) input left ∧ left.head? = some closing ∧
        ∃ counts, Layout closing element input counts ∧ Lenient counts := by
  intro steps
  induction steps with
  | zero => intro _ _ _ ran; cases ran
  | succ steps ih =>
      intro input values left ran
      rw [itemsUntil] at ran
      by_cases closes : (skipWhitespace input).head? = some closing
      · rw [if_pos closes] at ran
        obtain ⟨-, rfl⟩ := Prod.mk.inj (Except.ok.inj ran)
        refine ⟨span_skip input, closes, [0], .close (.none ?_) closes, rfl, by simp⟩
        rw [closes]
        exact fun same => noComma (Option.some.inj same)
      · rw [if_neg closes] at ran
        obtain ⟨pair, first, ran⟩ := ran_bind ran
        obtain ⟨pairs, others, ran⟩ := ran_bind ran
        obtain ⟨-, rfl⟩ := Prod.mk.inj (Except.ok.inj ran)
        have here := read _ _ _ first
        have walk := (items _).skip _ _ first
        obtain ⟨walkOn, ends, counts, layout, lenient⟩ := ih _ _ _ others
        obtain ⟨after, counted, few⟩ := layout_comma layout lenient
        refine ⟨walk.trans ((span_comma pair.2).trans walkOn), ends, 0 :: after, ?_, rfl, ?_⟩
        · exact .element (.none (opens here)) here counted
        · intro count member
          rcases List.mem_cons.mp member with rfl | later
          · exact Nat.zero_le 1
          · exact few count later

theorem list_spans {α β : Type} {opening : Char} {item : Text → Parsing (α × Text)}
    (make : List α → β) (opens : opening ≠ '#' ∧ opening ≠ '"') (closes : Plain closing)
    (layouts : ∀ input counts, Layout closing element input counts →
      ListLayout alphanumeric opening input counts)
    (noComma : closing ≠ ',') (items : ∀ input, Spans alphanumeric input (item input))
    (read : ∀ input value rest, item input = .ok (value, rest) → element input rest)
    (starts : ∀ {input rest}, element input rest → input.head? ≠ some ',') (input : Text) :
    Spans alphanumeric input (do
      let input ← expect [opening] input
      let (values, input) ← itemsUntil closing item (input.length + 1) input
      let input ← expect [closing] input
      return (make values, input)) := by
  refine .skip ?_
  intro value left ran
  obtain ⟨inside, opened, ran⟩ := ran_bind ran
  obtain ⟨pair, listed, ran⟩ := ran_bind ran
  have walkOut : Spans alphanumeric pair.2 (do
      let input ← expect [closing] pair.2
      return (make pair.1, input)) := .expect closes fun rest => .done _
  obtain ⟨walk, -, counts, layout, lenient⟩ :=
    itemsUntil_spans noComma items read starts _ _ _ _ listed
  rw [expect, expectEach] at opened
  by_cases begins : (skipWhitespace input).head? = some opening
  · rw [if_pos begins] at opened
    have shape := List.eq_cons_of_mem_head? begins
    rw [show (skipWhitespace input).tail = inside from Except.ok.inj opened] at shape
    rw [shape]
    refine .code opens.1 opens.2 (fun _ => ⟨counts, layouts _ _ layout, lenient⟩) ?_
    exact walk.trans (walkOut _ _ ran)
  · rw [if_neg begins] at opened
    cases opened

theorem parseStringList_spans (input : Text) :
    Spans alphanumeric input (parseStringList input) :=
  list_spans id (by decide) (by decide) (fun _ _ layout => Or.inl ⟨rfl, layout⟩) (by decide)
    parseString_spans (fun _ text _ read => ⟨text, read⟩)
    (parseString_head (by decide) (by decide) (by decide)) input

theorem parseStringOrList_spans (input : Text) :
    Spans alphanumeric input (parseStringOrList input) :=
  .skip (.ite (.map (parseString_spans _) fun _ _ => rfl)
    (.ite (parseStringList_spans _) (.failed _)))

end Lists

/-! Tests and commands. -/

section Tests

variable {alphanumeric : Char → Bool} {test : Text → Parsing (SieveTest × Text)}

theorem testTags_spans (strict : Bool) : ∀ steps comparator matchType input,
    Spans alphanumeric input (testTags alphanumeric strict steps comparator matchType input) := by
  intro steps
  induction steps with
  | zero => intro _ _ _; exact .failed _
  | succ steps ih =>
      intro comparator matchType input
      unfold testTags
      refine .ite (.done _) (.bind (parseTag_spans input) fun tag rest => ?_)
      refine .ite (.bind (parseString_spans _).skip fun name left => (ih _ _ _).skip) ?_
      exact .ite (ih _ _ _).skip (.ite (.failed _) (ih _ _ _).skip)

theorem parseMatchTest_spans (strict : Bool)
    (make : Option Text → Text → List Text → List Text → SieveTest) (input : Text) :
    Spans alphanumeric input (parseMatchTest alphanumeric strict make input) := by
  refine .bind (testTags_spans _ _ _ _ _).skip fun tags rest => ?_
  refine .bind (parseStringOrList_spans rest) fun headers left => ?_
  exact .bind (parseStringOrList_spans _).skip fun keys final => .done _

theorem parseExistsTest_spans (input : Text) :
    Spans alphanumeric input (parseExistsTest input) :=
  .bind (parseStringOrList_spans _).skip fun _ _ => .done _

theorem parseSizeTest_spans (input : Text) :
    Spans alphanumeric input (parseSizeTest alphanumeric input) := by
  unfold parseSizeTest
  refine .bind (parseTag_spans _).skip fun tag rest => ?_
  refine .ite ?_ (.ite ?_ (.failed _))
  · exact .bind (parseNumber_spans _).skip fun limit left => .done _
  · exact .bind (parseNumber_spans _).skip fun limit left => .done _

theorem parseTestList_spans (tests : ∀ input, Spans alphanumeric input (test input))
    (read : ∀ input value rest, test input = .ok (value, rest) → TestAt alphanumeric input rest)
    (make : List SieveTest → SieveTest) (input : Text) :
    Spans alphanumeric input (parseTestList test make input) :=
  .skip (list_spans make (by decide) (by decide) (fun _ _ layout => Or.inr ⟨rfl, layout⟩) (by decide)
    tests read (parseTest_head (by decide) (by decide) rfl) _)

theorem parseTestNamed_spans (tests : ∀ input, Spans alphanumeric input (test input))
    (read : ∀ input value rest, test input = .ok (value, rest) → TestAt alphanumeric input rest)
    (word input : Text) :
    Spans alphanumeric input (parseTestNamed alphanumeric test word input) := by
  unfold parseTestNamed
  refine .ite (.done _) (.ite (.done _) (.ite (parseMatchTest_spans _ _ _)
    (.ite (parseMatchTest_spans _ _ _) (.ite (parseMatchTest_spans _ _ _)
      (.ite (parseExistsTest_spans _) (.ite (parseSizeTest_spans _) (.ite ?_ (.ite ?_ (.ite ?_
        (.failed _))))))))))
  · exact parseTestList_spans tests read _ input
  · exact parseTestList_spans tests read _ input
  · exact .bind (tests _).skip fun inner rest => .done _

theorem parseTest_spans : ∀ steps input,
    Spans alphanumeric input (parseTest alphanumeric steps input) := by
  intro steps
  induction steps with
  | zero => intro input; exact .failed _
  | succ steps ih =>
      intro input
      refine .bind (parseWord_spans input) fun word rest => ?_
      exact parseTestNamed_spans ih (fun _ test _ read => ⟨steps, test, read⟩) word rest

end Tests

section Commands

variable {alphanumeric : Char → Bool} {test : Text → Parsing (SieveTest × Text)}
  {command : Text → Parsing (SieveCommand × Text)}

theorem semicolon_spans (command : SieveCommand) (input : Text) :
    Spans alphanumeric input (parseSimple command input) :=
  .expect (by decide) fun _ => .done _

theorem parseRequire_spans (input : Text) : Spans alphanumeric input (parseRequire input) := by
  unfold parseRequire
  refine .ite ?_ (.ite ?_ (.failed _))
  · exact .bind (.map (parseString_spans _).skip fun _ _ => rfl) fun extensions _ =>
      semicolon_spans (.require extensions) _
  · exact .bind (parseStringList_spans _).skip fun extensions rest =>
      semicolon_spans (.require extensions) rest

theorem parseFileinto_spans (input : Text) : Spans alphanumeric input (parseFileinto input) :=
  .bind (parseString_spans _).skip fun mailbox rest => semicolon_spans (.fileinto mailbox) rest

theorem parseRedirect_spans (input : Text) : Spans alphanumeric input (parseRedirect input) :=
  .bind (parseString_spans _).skip fun address rest => semicolon_spans (.redirect address) rest

theorem parseSet_spans (input : Text) : Spans alphanumeric input (parseSet input) :=
  .bind (parseString_spans _).skip fun name _ =>
    .bind (parseString_spans _).skip fun value left => semicolon_spans (.set name value) left

theorem vacationTag_spans (tags : VacationTags) (tag input : Text) :
    Spans alphanumeric input (vacationTag tags tag input) := by
  unfold vacationTag
  refine .ite (.map (parseNumber_spans input) fun _ _ => rfl) (.ite ?_ (.ite ?_ (.ite ?_ (.failed _))))
  · exact .map (parseString_spans input) fun _ _ => rfl
  · exact .map (parseString_spans input) fun _ _ => rfl
  · exact .map (parseStringList_spans input) fun _ _ => rfl

theorem vacationTags_spans : ∀ steps tags input,
    Spans alphanumeric input (vacationTags alphanumeric steps tags input) := by
  intro steps
  induction steps with
  | zero => intro _ _; exact .failed _
  | succ steps ih =>
      intro tags input
      unfold vacationTags
      refine .ite (.done _) (.bind (parseTag_spans input) fun tag rest => ?_)
      exact .bind (vacationTag_spans _ _ _).skip fun changed left => (ih _ _).skip

theorem parseVacation_spans (input : Text) :
    Spans alphanumeric input (parseVacation alphanumeric input) := by
  refine .bind (vacationTags_spans _ _ _).skip fun tags rest => ?_
  exact .bind (parseString_spans rest) fun message left => semicolon_spans
    (.vacation tags.days tags.subject tags.sender tags.addresses message) left

theorem commandsUntil_spans (commands : ∀ input, Spans alphanumeric input (command input)) :
    ∀ steps input, Spans alphanumeric input (commandsUntil command steps input) := by
  intro steps
  induction steps with
  | zero => intro input; exact .failed _
  | succ steps ih =>
      intro input
      unfold commandsUntil
      refine .ite (Spans.done []).skip (.bind (commands _).skip fun first rest => ?_)
      exact .bind (ih rest) fun others left => .done _

theorem parseBlock_spans (commands : ∀ input, Spans alphanumeric input (command input))
    (input : Text) : Spans alphanumeric input (parseBlock command input) :=
  .expect (by decide) fun rest => .bind (commandsUntil_spans commands _ rest) fun block left =>
    .expect (by decide) fun final => .done block

theorem parseBranches_spans (tests : ∀ input, Spans alphanumeric input (test input))
    (commands : ∀ input, Spans alphanumeric input (command input)) :
    ∀ steps input, Spans alphanumeric input
      (parseBranches alphanumeric test command steps input) := by
  intro steps
  induction steps with
  | zero => intro input; exact .failed _
  | succ steps ih =>
      intro input
      unfold parseBranches
      refine .ite ?_ (.ite ?_ (Spans.done _).skip)
      · refine .bind (parseWord_spans _).skip fun _ rest => ?_
        refine .bind (tests _).skip fun condition left => ?_
        refine .bind (parseBlock_spans commands _).skip fun block next => ?_
        exact .bind (ih next) fun branching final => .done _
      · refine .bind (parseWord_spans _).skip fun _ rest => ?_
        exact .bind (parseBlock_spans commands _).skip fun block next => .done _

theorem parseIf_spans (tests : ∀ input, Spans alphanumeric input (test input))
    (commands : ∀ input, Spans alphanumeric input (command input)) (input : Text) :
    Spans alphanumeric input (parseIf alphanumeric test command input) := by
  refine .bind (tests _).skip fun condition rest => ?_
  refine .bind (parseBlock_spans commands _).skip fun block left => ?_
  exact .bind (parseBranches_spans tests commands _ left) fun branching final => .done _

theorem parseSieveCommandNamed_spans (tests : ∀ input, Spans alphanumeric input (test input))
    (commands : ∀ input, Spans alphanumeric input (command input)) (word input : Text) :
    Spans alphanumeric input (parseSieveCommandNamed alphanumeric test command word input) := by
  unfold parseSieveCommandNamed
  exact .ite (parseRequire_spans _) (.ite (parseIf_spans tests commands _)
    (.ite (semicolon_spans _ _) (.ite (semicolon_spans _ _) (.ite (semicolon_spans _ _)
      (.ite (parseFileinto_spans _) (.ite (parseRedirect_spans _) (.ite (parseSet_spans _)
        (.ite (parseVacation_spans _) (.failed _)))))))))

theorem parseSieveCommand_spans : ∀ steps input,
    Spans alphanumeric input (parseSieveCommand alphanumeric steps input) := by
  intro steps
  induction steps with
  | zero => intro input; exact .failed _
  | succ steps ih =>
      intro input
      refine .bind (parseWord_spans _).skip fun word rest => ?_
      exact parseSieveCommandNamed_spans (parseTest_spans steps) ih word rest

theorem parseScript_spans {short : Bool} {depth : Nat} : ∀ {steps script input parsed},
    parseScript alphanumeric short depth steps script input = .ok parsed →
      Span (OpensList alphanumeric) input [] := by
  intro steps
  induction steps with
  | zero => intro _ _ _ ran; cases ran
  | succ steps ih =>
      intro script input parsed ran
      rw [parseScript] at ran
      by_cases ended : input = [] ∧ short
      · rw [ended.1]
        exact .done []
      · rw [if_neg ended] at ran
        obtain ⟨pair, read, ran⟩ := ran_bind ran
        have walk := parseSieveCommand_spans depth input _ _ read
        exact walk.trans ((span_skip pair.2).trans (ih ran))

end Commands

section Scripts

variable {alphanumeric : Char → Bool} {script : Text} {parsed : SieveScript}

theorem accepted_lenient (accepted : SieveScript.parse alphanumeric script = .ok parsed)
    {opening : Char} {input : Text} (place : CodeAt script (opening :: input))
    (opens : opening ∈ ['[', '(']) :
    ∃ counts, ListLayout alphanumeric opening input counts ∧ Lenient counts := by
  have walk := (span_skip script).trans (parseScript_spans accepted)
  have noMark : opening ≠ '#' ∧ opening ≠ '"' := by
    simp only [List.mem_cons, List.not_mem_nil, or_false] at opens
    rcases opens with rfl | rfl <;> decide
  exact walk.here noMark.1 noMark.2 place opens

theorem strict_iff {counts : List Nat} (lenient : Lenient counts) :
    Strict counts ↔ NoneMissing counts := by
  obtain ⟨starts, few⟩ := lenient
  cases counts with
  | nil => cases starts
  | cons first others =>
      have inside : ∀ count ∈ others.dropLast, count ≤ 1 := fun count member =>
        few count (List.mem_cons_of_mem _ (List.dropLast_subset _ member))
      have between : (∀ count ∈ others.dropLast, count = 1) ↔ 0 ∉ others.dropLast := by
        constructor
        · intro ones zero
          exact absurd (ones 0 zero) (by decide)
        · intro noZero count member
          have some : count ≠ 0 := fun zero => noZero (zero ▸ member)
          have most := inside count member
          omega
      have last : (first :: others).getLast? = some 0 ↔ ∀ count ∈ others.getLast?, count = 0 := by
        cases others with
        | nil => simpa using starts
        | cons second others => simp [List.getLast?_eq_some_getLast]
      rw [Strict, NoneMissing, List.tail_cons, between, last]
      exact ⟨fun strict => ⟨strict.2.2, strict.2.1⟩, fun missing => ⟨starts, missing.2, missing.1⟩⟩

/-- The lists of an accepted script are strict exactly when none of them lacks the comma
between two elements or has one after its last element. -/
theorem lists_strict_iff (accepted : SieveScript.parse alphanumeric script = .ok parsed) :
    ListsStrict alphanumeric script ↔
      ∀ opening input counts, CodeAt script (opening :: input) →
        ListLayout alphanumeric opening input counts → NoneMissing counts := by
  constructor
  · intro strict opening input counts place layout
    have opens : opening ∈ ['[', '('] := by
      rcases layout with ⟨rfl, _⟩ | ⟨rfl, _⟩ <;> decide
    obtain ⟨others, layoutAgain, strictly⟩ := strict opening input place opens
    obtain ⟨more, lenientLayout, lenient⟩ := accepted_lenient accepted place opens
    rw [listLayout_unique layout layoutAgain] at strictly
    rw [listLayout_unique layout lenientLayout] at lenient
    exact (strict_iff lenient).mp strictly
  · intro noneMissing opening input place opens
    obtain ⟨counts, layout, lenient⟩ := accepted_lenient accepted place opens
    exact ⟨counts, layout, (strict_iff lenient).mpr (noneMissing _ _ _ place layout)⟩

theorem lists_strict_require :
    ListsStrict Char.isAlphanum "require[\"a\"];".toList ↔
      ∀ opening input counts, CodeAt "require[\"a\"];".toList (opening :: input) →
        ListLayout Char.isAlphanum opening input counts → NoneMissing counts :=
  @lists_strict_iff _ _ ⟨[.require ["a".toList]], ["a".toList]⟩ rfl

/-- Two strings of a list without a comma between them. -/
theorem strings_without_comma :
    SieveScript.parse Char.isAlphanum "require[\"a\"\"b\"];".toList =
        .ok ⟨[.require ["a".toList, "b".toList]], ["a".toList, "b".toList]⟩ ∧
      ¬ListsStrict Char.isAlphanum "require[\"a\"\"b\"];".toList := by
  refine ⟨rfl, fun strict => ?_⟩
  have place : CodeAt "require[\"a\"\"b\"];".toList "[\"a\"\"b\"];".toList := by
    iterate 7 refine .code (by decide) (by decide) trivial ?_
    exact .done _
  have layout : ListLayout Char.isAlphanum '[' "\"a\"\"b\"];".toList [0, 0, 0] :=
    Or.inl ⟨rfl, .element (.none (by decide)) ⟨"a".toList, rfl⟩
      (.element (.none (by decide)) ⟨"b".toList, rfl⟩ (.close (.none (by decide)) rfl))⟩
  obtain ⟨counts, layoutAgain, strictly⟩ := strict '[' _ place (by decide)
  rw [listLayout_unique layout layoutAgain] at strictly
  exact absurd (strictly.2.2 0 (by decide)) (by decide)

end Scripts

end Rusmes
