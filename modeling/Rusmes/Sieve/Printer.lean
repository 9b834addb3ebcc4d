import Rusmes.Sieve.Parser

/-!
Sieve scripts in concrete syntax, and that the parser reads back what is printed.
-/

namespace Rusmes

open WireText

def escapeQuoted (character : Char) : Text :=
  if character = '"' ∨ character = '\\' then ['\\', character] else [character]

def quote (text : Text) : Text :=
  '"' :: (text.flatMap escapeQuoted ++ ['"'])

def commaSeparated (parts : List Text) : Text :=
  joinWith ", ".toList parts

def printStrings (strings : List Text) : Text :=
  '[' :: (commaSeparated (strings.map quote) ++ [']'])

def printTags (comparator : Option Text) (matchType : Text) : Text :=
  (match comparator with
    | some name => ' ' :: ':' :: ("comparator".toList ++ ' ' :: quote name)
    | none => []) ++ (' ' :: ':' :: matchType)

def printMatch (comparator : Option Text) (matchType : Text) (names keys : List Text) : Text :=
  printTags comparator matchType ++ (' ' :: (printStrings names ++ (' ' :: printStrings keys)))

def printSize (above : Bool) (limit : Int) : Text :=
  ' ' :: ((if above then ":over".toList else ":under".toList) ++ (' ' :: decimal limit.toNat))

def testWord : SieveTest → Text
  | .true => "true".toList
  | .false => "false".toList
  | .header .. => "header".toList
  | .address .. => "address".toList
  | .envelope .. => "envelope".toList
  | .exists _ => "exists".toList
  | .size .. => "size".toList
  | .allOf _ => "allof".toList
  | .anyOf _ => "anyof".toList
  | .not _ => "not".toList

mutual

def printTestRest : SieveTest → Text
  | .true | .false => []
  | .header comparator matchType headers keys => printMatch comparator matchType headers keys
  | .address comparator matchType headers keys => printMatch comparator matchType headers keys
  | .envelope comparator matchType parts keys => printMatch comparator matchType parts keys
  | .exists headers => ' ' :: printStrings headers
  | .size above limit => printSize above limit
  | .allOf tests => ' ' :: '(' :: (commaSeparated (printTests tests) ++ [')'])
  | .anyOf tests => ' ' :: '(' :: (commaSeparated (printTests tests) ++ [')'])
  | .not test => ' ' :: (testWord test ++ printTestRest test)

def printTests : List SieveTest → List Text
  | [] => []
  | test :: tests => (testWord test ++ printTestRest test) :: printTests tests

end

def printTest (test : SieveTest) : Text := testWord test ++ printTestRest test

def printOption (tag : Text) : Option Text → Text
  | some shown => ' ' :: ':' :: (tag ++ (' ' :: shown))
  | none => []

def printBlock (commands : Text) : Text := '\x7b' :: (commands ++ ['\x7d'])

def printVacation (days : Option Int) (subject sender : Option Text) (addresses : List Text)
    (message : Text) : Text :=
  printOption "days".toList (days.map fun days => decimal days.toNat) ++
    (printOption "subject".toList (subject.map quote) ++
      (printOption "from".toList (sender.map quote) ++
        (printOption "addresses".toList (some (printStrings addresses)) ++
          (' ' :: (quote message ++ [';'])))))

def printElsif (test commands others : Text) : Text :=
  ' ' :: ("elsif".toList ++ (' ' :: (test ++ (' ' :: (printBlock commands ++ others)))))

def printOtherwise (commands : Text) : Text :=
  ' ' :: ("else".toList ++ (' ' :: printBlock commands))

def commandWord : SieveCommand → Text
  | .keep => "keep".toList
  | .fileinto _ => "fileinto".toList
  | .redirect _ => "redirect".toList
  | .discard => "discard".toList
  | .stop => "stop".toList
  | .if .. => "if".toList
  | .require _ => "require".toList
  | .set .. => "set".toList
  | .vacation .. => "vacation".toList

mutual

def printCommandRest : SieveCommand → Text
  | .keep | .discard | .stop => [';']
  | .fileinto mailbox => ' ' :: (quote mailbox ++ [';'])
  | .redirect address => ' ' :: (quote address ++ [';'])
  | .if test thenCommands elsifBranches elseCommands =>
      ' ' :: (printTest test ++ (' ' :: (printBlock (printCommands thenCommands) ++
        (printBranches elsifBranches ++ printElse elseCommands))))
  | .require extensions => ' ' :: (printStrings extensions ++ [';'])
  | .set name value => ' ' :: (quote name ++ (' ' :: (quote value ++ [';'])))
  | .vacation days subject sender addresses message =>
      printVacation days subject sender addresses message

def printCommands : List SieveCommand → Text
  | [] => ['\n']
  | command :: commands =>
      '\n' :: (commandWord command ++ (printCommandRest command ++ printCommands commands))

def printBranches : List (SieveTest × List SieveCommand) → Text
  | [] => []
  | (test, commands) :: branches =>
      printElsif (printTest test) (printCommands commands) (printBranches branches)

def printElse : Option (List SieveCommand) → Text
  | none => []
  | some commands => printOtherwise (printCommands commands)

end

def printCommand (command : SieveCommand) : Text :=
  commandWord command ++ printCommandRest command

def asciiText (text : Text) : Bool := text.all (·.toNat < 128)

def naturalI64 (value : Int) : Bool := 0 ≤ value && value ≤ i64Max

def matchTypes : List Text := ["is".toList, "contains".toList, "matches".toList]

def printableMatch (comparator : Option Text) (matchType : Text) (names keys : List Text) : Bool :=
  comparator.all asciiText && matchTypes.contains matchType && names.all asciiText &&
    keys.all asciiText

mutual

def printableTest : SieveTest → Bool
  | .true | .false => true
  | .header comparator matchType headers keys => printableMatch comparator matchType headers keys
  | .address comparator matchType headers keys => printableMatch comparator matchType headers keys
  | .envelope comparator matchType parts keys => printableMatch comparator matchType parts keys
  | .exists headers => headers.all asciiText
  | .size _ limit => naturalI64 limit
  | .allOf tests => printableTests tests
  | .anyOf tests => printableTests tests
  | .not test => printableTest test

def printableTests : List SieveTest → Bool
  | [] => true
  | test :: tests => printableTest test && printableTests tests

end

mutual

def printableCommand : SieveCommand → Bool
  | .keep | .discard | .stop => true
  | .fileinto mailbox => asciiText mailbox
  | .redirect address => asciiText address
  | .if test thenCommands elsifBranches elseCommands =>
      printableTest test && printableCommands thenCommands && printableBranches elsifBranches &&
        printableElse elseCommands
  | .require extensions => extensions.all asciiText
  | .set name value => asciiText name && asciiText value
  | .vacation days subject sender addresses message =>
      days.all naturalI64 && subject.all asciiText && sender.all asciiText &&
        addresses.all asciiText && asciiText message

def printableCommands : List SieveCommand → Bool
  | [] => true
  | command :: commands => printableCommand command && printableCommands commands

def printableBranches : List (SieveTest × List SieveCommand) → Bool
  | [] => true
  | (test, commands) :: branches =>
      printableTest test && printableCommands commands && printableBranches branches

def printableElse : Option (List SieveCommand) → Bool
  | none => true
  | some commands => printableCommands commands

end

theorem ok_bind {α β : Type} (value : α) (next : α → Parsing β) :
    (Except.ok value >>= next) = next value := rfl

theorem ok_map {α β : Type} (value : α) (change : α → β) :
    Except.map change (Except.ok value : Parsing α) = .ok (change value) := rfl

section Pieces

variable {alphanumeric : Char → Bool}

def Ends (alphanumeric : Char → Bool) (rest : Text) : Prop :=
  ∀ character, rest.head? = some character → wordCharacter alphanumeric character = false

theorem skipWhitespace_space (rest : Text) : skipWhitespace (' ' :: rest) = skipWhitespace rest :=
  rfl

theorem skipWhitespace_newline (rest : Text) :
    skipWhitespace ('\n' :: rest) = skipWhitespace rest := rfl

structure Keyword (word : Text) : Prop where
  nonempty : word ≠ []
  letters : ∀ character ∈ word, character.isLower = true

theorem isLower_code {character : Char} (lower : character.isLower = true) :
    97 ≤ character.toNat ∧ character.toNat ≤ 122 := by
  delta Char.isLower at lower
  simp only [Bool.and_eq_true, decide_eq_true_eq, UInt32.le_iff_toNat_le] at lower
  exact lower

theorem wordCharacter_lower {character : Char} (lower : character.isLower = true) :
    wordCharacter alphanumeric character = true := by
  have code := isLower_code lower
  rw [wordCharacter, if_pos (by omega), Char.isAlphanum]
  delta Char.isAlpha
  simp [lower]

theorem isWhitespace_lower {character : Char} (lower : character.isLower = true) :
    isWhitespace character = false := by
  have code := isLower_code lower
  simp only [isWhitespace, Bool.or_eq_false_iff, Bool.and_eq_false_iff, decide_eq_false_iff_not]
  omega

theorem ne_of_lower {character symbol : Char} (lower : character.isLower = true)
    (other : symbol.isLower = false) : character ≠ symbol := by
  intro same
  rw [same, other] at lower
  cases lower

namespace Keyword

variable {word rest : Text}

theorem skip (keyword : Keyword word) (rest : Text) :
    skipWhitespace (word ++ rest) = word ++ rest := by
  obtain ⟨nonempty, letters⟩ := keyword
  cases word with
  | nil => exact absurd rfl nonempty
  | cons first others =>
      have lower := letters first List.mem_cons_self
      exact skipWhitespace_solid (isWhitespace_lower lower) (ne_of_lower lower rfl) _

theorem span (keyword : Keyword word) (ends : Ends alphanumeric rest) :
    (word ++ rest).takeWhile (wordCharacter alphanumeric) = word ∧
      (word ++ rest).dropWhile (wordCharacter alphanumeric) = rest := by
  have all : ∀ character ∈ word, wordCharacter alphanumeric character = true :=
    fun character member => wordCharacter_lower (keyword.letters character member)
  rw [List.takeWhile_append_of_pos all, List.dropWhile_append_of_pos all]
  cases rest with
  | nil => exact ⟨List.append_nil word, rfl⟩
  | cons first others =>
      have stops := ends first rfl
      rw [List.takeWhile_cons_of_neg (by rw [stops]; exact Bool.false_ne_true),
        List.dropWhile_cons_of_neg (by rw [stops]; exact Bool.false_ne_true)]
      exact ⟨List.append_nil word, rfl⟩

theorem parseWord (keyword : Keyword word) (ends : Ends alphanumeric rest) :
    parseWord alphanumeric (word ++ rest) = .ok (word, rest) := by
  obtain ⟨taken, dropped⟩ := keyword.span ends
  simp only [Rusmes.parseWord, keyword.skip, taken, dropped, if_neg keyword.nonempty]

theorem parseTag (keyword : Keyword word) (ends : Ends alphanumeric rest) :
    parseTag alphanumeric (':' :: (word ++ rest)) = .ok (':' :: word, rest) := by
  obtain ⟨taken, dropped⟩ := keyword.span ends
  have shown : skipWhitespace (':' :: (word ++ rest)) = ':' :: (word ++ rest) := rfl
  simp only [Rusmes.parseTag, shown, taken, dropped, if_neg keyword.nonempty]

end Keyword

theorem ends_cons {first : Char} {rest : Text} (stops : wordCharacter alphanumeric first = false) :
    Ends alphanumeric (first :: rest) := by
  intro character same
  rwa [← Option.some.inj same]

theorem expect_cons {symbol : Char} (solid : isWhitespace symbol = false) (code : symbol ≠ '#')
    (rest : Text) : expect [symbol] (symbol :: rest) = .ok rest := by
  rw [expect, skipWhitespace_solid solid code, expectEach, List.head?_cons, if_pos rfl, expectEach,
    List.tail_cons]

/-! Strings and lists. -/

theorem stringRest_quoted (text rest : Text) :
    stringRest false (text.flatMap escapeQuoted ++ '"' :: rest) = .ok (text, rest) := by
  induction text with
  | nil => rfl
  | cons character text ih =>
      rw [List.flatMap_cons, List.append_assoc, escapeQuoted]
      split
      · change (stringRest false (text.flatMap escapeQuoted ++ '"' :: rest) >>= _) = _
        rw [ih]
        rfl
      · rename_i plain
        rw [not_or] at plain
        rw [List.singleton_append, stringRest, if_neg plain.2, if_neg plain.1, ih]
        rfl

theorem parseString_quote (text rest : Text) :
    parseString (quote text ++ rest) = .ok (text, rest) := by
  rw [quote, List.cons_append, List.append_assoc]
  exact stringRest_quoted text rest

def Starts (others : Text) (text : Text) : Prop :=
  ∃ first rest, text = first :: rest ∧ isWhitespace first = false ∧ first ∉ '#' :: others

theorem Starts.skip {others text : Text} (starts : Starts others text) (rest : Text) :
    skipWhitespace (text ++ rest) = text ++ rest := by
  obtain ⟨first, tail, shape, solid, other⟩ := starts
  rw [shape]
  exact skipWhitespace_solid solid (fun same => other (same ▸ List.mem_cons_self)) _

theorem Starts.head {others text : Text} (starts : Starts others text) {symbol : Char}
    (member : symbol ∈ others) (rest : Text) : (text ++ rest).head? ≠ some symbol := by
  obtain ⟨first, tail, shape, _, other⟩ := starts
  rw [shape, List.cons_append, List.head?_cons, ne_eq, Option.some.injEq]
  intro same
  exact other (same ▸ List.mem_cons_of_mem _ member)

theorem Starts.positive {others text : Text} (starts : Starts others text) : 0 < text.length := by
  obtain ⟨first, rest, shape, _⟩ := starts
  rw [shape]
  exact Nat.succ_pos _

theorem Starts.commaSeparated {α : Type} {others : Text} {print : α → Text} {value : α}
    (starts : Starts others (print value)) (items : List α) :
    Starts others (commaSeparated ((value :: items).map print)) := by
  obtain ⟨first, tail, text, solid, other⟩ := starts
  cases items with
  | nil => exact ⟨first, tail, text, solid, other⟩
  | cons second items =>
      refine ⟨first, tail ++ (", ".toList ++ Rusmes.commaSeparated ((second :: items).map print)),
        ?_, solid, other⟩
      rw [List.map_cons, List.map_cons, Rusmes.commaSeparated, joinWith_cons_cons, text]
      rfl

theorem skip_items {α : Type} {closing : Char} {print : α → Text} {items : List α}
    (closes : Starts [','] [closing]) (starts : ∀ value ∈ items, Starts [closing] (print value))
    (rest : Text) :
    skipWhitespace (commaSeparated (items.map print) ++ closing :: rest) =
      commaSeparated (items.map print) ++ closing :: rest := by
  cases items with
  | nil => exact closes.skip rest
  | cons value items => exact ((starts value List.mem_cons_self).commaSeparated items).skip _

theorem itemsUntil_print {α : Type} {closing : Char} {item : Text → Parsing (α × Text)}
    {print : α → Text} (closes : Starts [','] [closing]) {items : List α}
    (starts : ∀ value ∈ items, Starts [closing] (print value))
    (reads : ∀ value ∈ items, ∀ symbol ∈ [',', closing], ∀ rest,
      item (print value ++ symbol :: rest) = .ok (value, symbol :: rest)) (rest : Text) :
    ∀ steps input, (commaSeparated (items.map print)).length < steps →
      skipWhitespace input = commaSeparated (items.map print) ++ closing :: rest →
        itemsUntil closing item steps input = .ok (items, closing :: rest) := by
  have comma : closing ≠ ',' := by
    intro same
    exact closes.head List.mem_cons_self [] (congrArg some same)
  induction items with
  | nil =>
      intro steps input enough shape
      obtain ⟨steps, rfl⟩ := Nat.exists_eq_succ_of_ne_zero (Nat.ne_of_gt enough)
      change skipWhitespace input = closing :: rest at shape
      rw [itemsUntil, shape, List.head?_cons, if_pos rfl]
  | cons value items ih =>
      intro steps input enough shape
      obtain ⟨steps, rfl⟩ := Nat.exists_eq_succ_of_ne_zero (Nat.ne_zero_of_lt enough)
      have own := starts value List.mem_cons_self
      have later := ih (fun other member => starts other (List.mem_cons_of_mem _ member))
        (fun other member => reads other (List.mem_cons_of_mem _ member))
      cases items with
      | nil =>
          rw [List.map_cons, List.map_nil, commaSeparated, joinWith] at shape enough
          have read := reads value List.mem_cons_self closing (by simp) rest
          have ends : skipWhitespace (closing :: rest) = closing :: rest := closes.skip rest
          have nothing := later steps (closing :: rest)
            (Nat.lt_of_lt_of_le own.positive (Nat.le_of_lt_succ enough)) ends
          rw [itemsUntil, shape, if_neg (own.head List.mem_cons_self _), read]
          change (itemsUntil closing _ steps (if (skipWhitespace (closing :: rest)).head? = some ','
            then _ else skipWhitespace (closing :: rest)) >>= _) = _
          rw [ends, if_neg (by simpa using comma), nothing]
          rfl
      | cons second items =>
          rw [List.map_cons, List.map_cons, commaSeparated, joinWith_cons_cons, ← List.map_cons,
            ← commaSeparated] at shape enough
          rw [List.append_assoc, List.append_assoc] at shape
          have read := reads value List.mem_cons_self ',' (by simp)
            (' ' :: (commaSeparated ((second :: items).map print) ++ closing :: rest))
          have begins := skip_items closes
            (fun other member => starts other (List.mem_cons_of_mem _ member)) rest
          have remaining := later steps
            (' ' :: (commaSeparated ((second :: items).map print) ++ closing :: rest))
            (by rw [List.length_append, List.length_append] at enough
                have := own.positive
                omega)
            ((skipWhitespace_space _).trans begins)
          rw [itemsUntil, shape, if_neg (own.head List.mem_cons_self _)]
          change (item (print value ++ ',' :: ' ' ::
            (commaSeparated ((second :: items).map print) ++ closing :: rest)) >>= _) = _
          rw [read]
          change (itemsUntil closing _ steps (' ' :: _) >>= _) = _
          rw [remaining]
          rfl

theorem starts_quote (text others : Text) (plain : '"' ∉ others) : Starts others (quote text) :=
  ⟨'"', _, rfl, rfl, by simpa using plain⟩

theorem parseStringList_print (strings : List Text) (rest : Text) :
    parseStringList (printStrings strings ++ rest) = .ok (strings, rest) := by
  have closes : Starts [','] [']'] := ⟨']', [], rfl, rfl, by decide⟩
  have starts : ∀ text ∈ strings, Starts [']'] (quote text) :=
    fun text _ => starts_quote text _ (by decide)
  have items := itemsUntil_print closes starts
    (fun text _ symbol _ rest => parseString_quote text (symbol :: rest)) rest
    ((commaSeparated (strings.map quote) ++ ']' :: rest).length + 1) _
    (by rw [List.length_append]; omega) (skip_items closes starts rest)
  have opens : expect "[".toList ('[' :: (commaSeparated (strings.map quote) ++ ']' :: rest)) =
      .ok (commaSeparated (strings.map quote) ++ ']' :: rest) := expect_cons rfl (by decide) _
  have shuts : expect "]".toList (']' :: rest) = .ok rest := expect_cons rfl (by decide) rest
  rw [parseStringList, printStrings, List.cons_append, List.append_assoc, List.singleton_append,
    opens, ok_bind, items, ok_bind]
  simp only [shuts, ok_bind]
  rfl

theorem parseStringOrList_print (strings : List Text) (rest : Text) :
    parseStringOrList (printStrings strings ++ rest) = .ok (strings, rest) := by
  have shown : skipWhitespace (printStrings strings ++ rest) = printStrings strings ++ rest := rfl
  rw [parseStringOrList, shown]
  exact parseStringList_print strings rest

theorem wordCharacter_digit {digit : Char} (decimal : digit.isDigit = true) :
    wordCharacter alphanumeric digit = true := by
  have code := decimal
  simp only [Char.isDigit, Bool.and_eq_true, decide_eq_true_eq, UInt32.le_iff_toNat_le] at code
  have small : digit.toNat ≤ 57 := code.2
  rw [wordCharacter, if_pos (by omega), Char.isAlphanum, decimal]
  simp

theorem starts_decimal (value : Nat) : Starts [] (decimal value) := by
  cases digits : decimal value with
  | nil => exact absurd digits Nat.toDigits_ne_nil
  | cons first others =>
      have digit : first.isDigit = true :=
        isDigit_decimal (digits ▸ List.mem_cons_self : first ∈ decimal value)
      have code := digit
      simp only [Char.isDigit, Bool.and_eq_true, decide_eq_true_eq, UInt32.le_iff_toNat_le] at code
      have lower : 48 ≤ first.toNat := code.1
      have upper : first.toNat ≤ 57 := code.2
      refine ⟨first, others, rfl, ?_, ?_⟩
      · simp only [isWhitespace, Bool.or_eq_false_iff, Bool.and_eq_false_iff,
          decide_eq_false_iff_not]
        omega
      · intro member
        rw [List.mem_singleton.mp member] at digit
        cases digit

theorem skip_decimal (value : Nat) (rest : Text) :
    skipWhitespace (decimal value ++ rest) = decimal value ++ rest :=
  (starts_decimal value).skip rest

theorem parseNumber_print {value : Int} (natural : naturalI64 value = true) {rest : Text}
    (ends : Ends alphanumeric rest) :
    parseNumber (decimal value.toNat ++ rest) = .ok (value, rest) := by
  rw [naturalI64, Bool.and_eq_true, decide_eq_true_eq, decide_eq_true_eq] at natural
  have taken : (decimal value.toNat ++ rest).takeWhile Char.isDigit = decimal value.toNat ∧
      (decimal value.toNat ++ rest).dropWhile Char.isDigit = rest := by
    rw [List.takeWhile_append_of_pos fun _ => isDigit_decimal,
      List.dropWhile_append_of_pos fun _ => isDigit_decimal]
    cases rest with
    | nil => exact ⟨List.append_nil _, rfl⟩
    | cons first others =>
        have stops : ¬first.isDigit = true := by
          intro digit
          have word := @wordCharacter_digit alphanumeric first digit
          rw [ends first rfl] at word
          cases word
        rw [List.takeWhile_cons_of_neg stops, List.dropWhile_cons_of_neg stops]
        exact ⟨List.append_nil _, rfl⟩
  have suffix : rest.head?.bind suffixMultiplier = none := by
    cases rest with
    | nil => rfl
    | cons first others =>
        have stops := ends first rfl
        change suffixMultiplier first = none
        rw [suffixMultiplier, if_neg, if_neg, if_neg] <;> rintro rfl <;> cases stops
  have fits : parseI64 (decimal value.toNat) = .ok value := by
    rw [parseI64, digitsValue_decimal, if_pos (by omega), Int.toNat_of_nonneg natural.1]
  have some : decimal value.toNat ≠ [] := Nat.toDigits_ne_nil
  simp only [parseNumber, skip_decimal, taken, suffix, if_neg some, fits, ok_map]

/-! Tests. -/

theorem keyword_matchType {matchType : Text} (known : matchType ∈ matchTypes) :
    Keyword matchType ∧ ':' :: matchType ≠ ":comparator".toList ∧
      ':' :: matchType ∈ [":is".toList, ":contains".toList, ":matches".toList] := by
  simp only [matchTypes, List.mem_cons, List.not_mem_nil, or_false] at known
  rcases known with rfl | rfl | rfl
  · exact ⟨⟨by decide, by decide⟩, by decide, by decide⟩
  · exact ⟨⟨by decide, by decide⟩, by decide, by decide⟩
  · exact ⟨⟨by decide, by decide⟩, by decide, by decide⟩

theorem testTags_matchType (strict : Bool) (steps : Nat) (comparator : Option Text) (old : Text)
    {matchType : Text} (known : matchType ∈ matchTypes) (rest : Text) :
    testTags alphanumeric strict (steps + 2) comparator old
        (':' :: (matchType ++ ' ' :: '[' :: rest)) =
      .ok ((comparator, matchType), '[' :: rest) := by
  obtain ⟨keyword, other, listed⟩ := keyword_matchType known
  have tag := @Keyword.parseTag alphanumeric _ _ keyword
    (ends_cons rfl : Ends alphanumeric (' ' :: '[' :: rest))
  have next : skipWhitespace (' ' :: '[' :: rest) = '[' :: rest := rfl
  rw [testTags, if_neg (by simp), tag, ok_bind]
  simp only [next, if_neg other, if_pos listed, List.tail_cons]
  rw [testTags, List.head?_cons, if_pos (by decide)]

theorem testTags_print (strict : Bool) (comparator : Option Text) {matchType : Text}
    (known : matchType ∈ matchTypes) (rest : Text) (steps : Nat) :
    testTags alphanumeric strict (steps + 3) none "is".toList
        (skipWhitespace (printTags comparator matchType ++ ' ' :: '[' :: rest)) =
      .ok ((comparator, matchType), '[' :: rest) := by
  cases comparator with
  | none => exact testTags_matchType strict (steps + 1) none _ known rest
  | some name =>
      have keyword : Keyword "comparator".toList := ⟨by decide, by decide⟩
      have tag := @Keyword.parseTag alphanumeric _ _ keyword
        (ends_cons rfl : Ends alphanumeric
          (' ' :: (quote name ++ ' ' :: ':' :: (matchType ++ ' ' :: '[' :: rest))))
      have shown : skipWhitespace (printTags (some name) matchType ++ ' ' :: '[' :: rest) =
          ':' :: ("comparator".toList ++
            ' ' :: (quote name ++ ' ' :: ':' :: (matchType ++ ' ' :: '[' :: rest))) := by
        simp only [printTags, List.cons_append, List.append_assoc, skipWhitespace_space]
        rfl
      have quoted : skipWhitespace
          (' ' :: (quote name ++ ' ' :: ':' :: (matchType ++ ' ' :: '[' :: rest))) =
            quote name ++ ' ' :: ':' :: (matchType ++ ' ' :: '[' :: rest) :=
        (skipWhitespace_space _).trans ((starts_quote name [] (by decide)).skip _)
      have read := parseString_quote name (' ' :: ':' :: (matchType ++ ' ' :: '[' :: rest))
      rw [shown, testTags, if_neg (by simp), tag, ok_bind]
      simp only [quoted, read, ok_bind]
      exact testTags_matchType strict steps (some name) _ known rest

theorem skip_printTags (comparator : Option Text) (matchType rest : Text) :
    ∃ tail, skipWhitespace (printTags comparator matchType ++ rest) = ':' :: (tail ++ rest) := by
  cases comparator with
  | none => exact ⟨matchType, rfl⟩
  | some name =>
      refine ⟨"comparator".toList ++ (' ' :: (quote name ++ (' ' :: ':' :: matchType))), ?_⟩
      simp only [printTags, List.cons_append, List.append_assoc, skipWhitespace_space]
      rfl

theorem parseMatchTest_print (strict : Bool)
    (make : Option Text → Text → List Text → List Text → SieveTest) (comparator : Option Text)
    {matchType : Text} (known : matchType ∈ matchTypes) (names keys : List Text) (rest : Text) :
    parseMatchTest alphanumeric strict make (printTags comparator matchType ++
        (' ' :: (printStrings names ++ (' ' :: (printStrings keys ++ rest))))) =
      .ok (make comparator matchType names keys, rest) := by
  let lists := printStrings names ++ (' ' :: (printStrings keys ++ rest))
  let input := skipWhitespace (printTags comparator matchType ++ ' ' :: lists)
  obtain ⟨others, opens⟩ : ∃ others, lists = '[' :: others := ⟨_, rfl⟩
  obtain ⟨steps, enough⟩ : ∃ steps, input.length + 1 = steps + 3 := by
    obtain ⟨tail, shape⟩ := skip_printTags comparator matchType (' ' :: lists)
    refine ⟨input.length - 2, ?_⟩
    change (skipWhitespace (printTags comparator matchType ++ ' ' :: lists)).length + 1 =
      (skipWhitespace (printTags comparator matchType ++ ' ' :: lists)).length - 2 + 3
    rw [shape, List.length_cons, List.length_append, List.length_cons, opens, List.length_cons]
    omega
  have tags := @testTags_print alphanumeric strict comparator matchType known others steps
  rw [← opens] at tags
  have first : parseStringOrList lists = _ :=
    parseStringOrList_print names (' ' :: (printStrings keys ++ rest))
  have second := parseStringOrList_print keys rest
  have next : skipWhitespace (' ' :: (printStrings keys ++ rest)) = printStrings keys ++ rest := rfl
  change (testTags alphanumeric strict (input.length + 1) none "is".toList input >>= _) = _
  rw [enough, tags, ok_bind]
  simp only [first, ok_bind, next, second]
  rfl

theorem Keyword.starts {word others : Text} (keyword : Keyword word)
    (plain : ∀ symbol ∈ others, symbol.isLower = false) (rest : Text) :
    Starts others (word ++ rest) := by
  obtain ⟨nonempty, letters⟩ := keyword
  cases word with
  | nil => exact absurd rfl nonempty
  | cons first tail =>
      have lower := letters first List.mem_cons_self
      refine ⟨first, tail ++ rest, rfl, isWhitespace_lower lower, ?_⟩
      intro member
      rcases List.mem_cons.mp member with same | member
      · exact ne_of_lower lower rfl same
      · rw [plain first member] at lower
        cases lower

theorem testWord_keyword (test : SieveTest) : Keyword (testWord test) := by
  cases test <;> constructor <;> dsimp only [testWord] <;> decide

theorem starts_printTest {others : Text} (plain : ∀ symbol ∈ others, symbol.isLower = false)
    (test : SieveTest) : Starts others (printTest test) :=
  (testWord_keyword test).starts plain _

theorem printTests_eq (tests : List SieveTest) : printTests tests = tests.map printTest := by
  induction tests with
  | nil => rfl
  | cons test tests ih => rw [printTests, ih, List.map_cons, printTest]

theorem parseTestList_print {item : Text → Parsing (SieveTest × Text)} {tests : List SieveTest}
    (make : List SieveTest → SieveTest)
    (reads : ∀ test ∈ tests, ∀ symbol ∈ [',', ')'], ∀ rest,
      item (printTest test ++ symbol :: rest) = .ok (test, symbol :: rest)) (rest : Text) :
    parseTestList item make
        (' ' :: '(' :: (commaSeparated (tests.map printTest) ++ [')']) ++ rest) =
      .ok (make tests, rest) := by
  have closes : Starts [','] [')'] := ⟨')', [], rfl, rfl, by decide⟩
  have starts : ∀ test ∈ tests, Starts [')'] (printTest test) :=
    fun test _ => starts_printTest (by decide) test
  have items := itemsUntil_print closes starts reads rest
    ((commaSeparated (tests.map printTest) ++ ')' :: rest).length + 1) _
    (by rw [List.length_append]; omega) (skip_items closes starts rest)
  have opens : expect "(".toList (skipWhitespace
      (' ' :: '(' :: (commaSeparated (tests.map printTest) ++ ')' :: rest))) =
      .ok (commaSeparated (tests.map printTest) ++ ')' :: rest) := expect_cons rfl (by decide) _
  have shuts : expect ")".toList (')' :: rest) = .ok rest := expect_cons rfl (by decide) rest
  rw [parseTestList, List.cons_append, List.cons_append, List.append_assoc, List.singleton_append,
    opens, ok_bind, items, ok_bind]
  simp only [shuts, ok_bind]
  rfl

theorem ends_space (rest : Text) : Ends alphanumeric (' ' :: rest) := ends_cons rfl

theorem ends_printTags (comparator : Option Text) (matchType rest : Text) :
    Ends alphanumeric (printTags comparator matchType ++ rest) := by
  cases comparator with
  | none => exact ends_space _
  | some name => exact ends_space _

theorem ends_printTestRest (test : SieveTest) {rest : Text} (ends : Ends alphanumeric rest) :
    Ends alphanumeric (printTestRest test ++ rest) := by
  cases test with
  | true | false => exact ends
  | header | address | envelope =>
      rw [printTestRest, printMatch, List.append_assoc]
      exact ends_printTags _ _ _
  | «exists» | size | allOf | anyOf | not => exact ends_space _

theorem parseTest_word (test : SieveTest) (steps : Nat) {rest : Text}
    (ends : Ends alphanumeric rest) :
    parseTest alphanumeric (steps + 1) (printTest test ++ rest) =
      parseTestNamed alphanumeric (parseTest alphanumeric steps) (testWord test)
        (printTestRest test ++ rest) := by
  rw [parseTest, printTest, List.append_assoc,
    (testWord_keyword test).parseWord (ends_printTestRest test ends), ok_bind]

theorem parseMatch_print (strict : Bool)
    (make : Option Text → Text → List Text → List Text → SieveTest) {comparator : Option Text}
    {matchType : Text} {names keys : List Text}
    (printable : printableMatch comparator matchType names keys = true) (rest : Text) :
    parseMatchTest alphanumeric strict make
        (printMatch comparator matchType names keys ++ rest) =
      .ok (make comparator matchType names keys, rest) := by
  simp only [printableMatch, Bool.and_eq_true, List.contains_iff_mem] at printable
  simp only [printMatch, List.append_assoc, List.cons_append]
  exact parseMatchTest_print strict make comparator printable.1.1.2 names keys rest

theorem parseSizeTest_print (above : Bool) {limit : Int} (natural : naturalI64 limit = true)
    {rest : Text} (ends : Ends alphanumeric rest) :
    parseSizeTest alphanumeric (' ' :: ((if above then ":over".toList else ":under".toList) ++
        (' ' :: (decimal limit.toNat ++ rest)))) = .ok (.size above limit, rest) := by
  have number : parseNumber (skipWhitespace (' ' :: (decimal limit.toNat ++ rest))) =
      .ok (limit, rest) := by
    rw [skipWhitespace_space, skip_decimal]
    exact parseNumber_print natural ends
  cases above with
  | true =>
      have tag := @Keyword.parseTag alphanumeric "over".toList _ ⟨by decide, by decide⟩
        (ends_space (decimal limit.toNat ++ rest))
      change (parseTag alphanumeric (':' :: ("over".toList ++ _)) >>= _) = _
      rw [tag, ok_bind]
      change (parseNumber (skipWhitespace (' ' :: (decimal limit.toNat ++ rest))) >>= _) = _
      rw [number]
      rfl
  | false =>
      have tag := @Keyword.parseTag alphanumeric "under".toList _ ⟨by decide, by decide⟩
        (ends_space (decimal limit.toNat ++ rest))
      change (parseTag alphanumeric (':' :: ("under".toList ++ _)) >>= _) = _
      rw [tag, ok_bind]
      change (parseNumber (skipWhitespace (' ' :: (decimal limit.toNat ++ rest))) >>= _) = _
      rw [number]
      rfl

theorem length_commaSeparated {α : Type} {print : α → Text} {items : List α} {value : α}
    (member : value ∈ items) :
    (print value).length ≤ (commaSeparated (items.map print)).length := by
  induction items with
  | nil => cases member
  | cons first items ih =>
      cases items with
      | nil =>
          rw [List.mem_singleton.mp member]
          exact Nat.le_refl _
      | cons second items =>
          rw [List.map_cons, List.map_cons, commaSeparated, joinWith_cons_cons, ← List.map_cons,
            ← commaSeparated, List.length_append, List.length_append]
          rcases List.mem_cons.mp member with same | member
          · rw [same]
            omega
          · have later := ih member
            omega

mutual

theorem parseTest_print : ∀ test, printableTest test = true → ∀ steps,
    (printTest test).length ≤ steps → ∀ rest, Ends alphanumeric rest →
      parseTest alphanumeric steps (printTest test ++ rest) = .ok (test, rest)
  | test, printable, 0, enough, _, _ => by
      have positive := (@starts_printTest [] (by simp) test).positive
      omega
  | .true, _, steps + 1, _, rest, ends => parseTest_word .true steps ends
  | .false, _, steps + 1, _, rest, ends => parseTest_word .false steps ends
  | .header comparator matchType headers keys, printable, steps + 1, _, rest, ends =>
      (parseTest_word _ steps ends).trans (parseMatch_print true .header printable rest)
  | .address comparator matchType headers keys, printable, steps + 1, _, rest, ends =>
      (parseTest_word _ steps ends).trans (parseMatch_print false .address printable rest)
  | .envelope comparator matchType parts keys, printable, steps + 1, _, rest, ends =>
      (parseTest_word _ steps ends).trans (parseMatch_print false .envelope printable rest)
  | .exists headers, _, steps + 1, _, rest, ends => by
      rw [parseTest_word _ steps ends]
      change (parseStringOrList (printStrings headers ++ rest) >>= _) = _
      rw [parseStringOrList_print]
      rfl
  | .size above limit, printable, steps + 1, _, rest, ends => by
      rw [parseTest_word _ steps ends, printTestRest, printSize, List.cons_append,
        List.append_assoc, List.cons_append]
      exact parseSizeTest_print above printable ends
  | .allOf tests, printable, steps + 1, enough, rest, ends => by
      rw [printTest, printTestRest, printTests_eq, List.length_append, List.length_cons,
        List.length_cons, List.length_append] at enough
      rw [parseTest_word _ steps ends, printTestRest, printTests_eq]
      refine parseTestList_print .allOf (fun test member symbol symbols rest => ?_) rest
      refine parseTests_print tests printable test member steps ?_ _ (ends_cons ?_)
      · have inside := @length_commaSeparated _ printTest _ _ member
        omega
      · rcases List.mem_pair.mp symbols with rfl | rfl <;> rfl
  | .anyOf tests, printable, steps + 1, enough, rest, ends => by
      rw [printTest, printTestRest, printTests_eq, List.length_append, List.length_cons,
        List.length_cons, List.length_append] at enough
      rw [parseTest_word _ steps ends, printTestRest, printTests_eq]
      refine parseTestList_print .anyOf (fun test member symbol symbols rest => ?_) rest
      refine parseTests_print tests printable test member steps ?_ _ (ends_cons ?_)
      · have inside := @length_commaSeparated _ printTest _ _ member
        omega
      · rcases List.mem_pair.mp symbols with rfl | rfl <;> rfl
  | .not test, printable, steps + 1, enough, rest, ends => by
      rw [printTest, printTestRest, List.length_append, List.length_cons, ← printTest] at enough
      have inner := parseTest_print test printable steps (by omega) rest ends
      have next : skipWhitespace (' ' :: (printTest test ++ rest)) = printTest test ++ rest :=
        (skipWhitespace_space _).trans ((@starts_printTest [] (by simp) test).skip rest)
      rw [parseTest_word _ steps ends]
      change (parseTest alphanumeric steps (skipWhitespace (' ' :: (printTest test ++ rest))) >>= _)
        = _
      rw [next, inner]
      rfl

theorem parseTests_print : ∀ tests, printableTests tests = true → ∀ test ∈ tests, ∀ steps,
    (printTest test).length ≤ steps → ∀ rest, Ends alphanumeric rest →
      parseTest alphanumeric steps (printTest test ++ rest) = .ok (test, rest)
  | [], _, _, member => nomatch member
  | first :: tests, printable, test, member => by
      rw [printableTests, Bool.and_eq_true] at printable
      rcases List.mem_cons.mp member with same | member
      · rw [same]
        exact parseTest_print first printable.1
      · exact parseTests_print tests printable.2 test member

end

/-! Commands. -/

theorem expect_semicolon (rest : Text) : expect ";".toList (';' :: rest) = .ok rest :=
  expect_cons rfl (by decide) rest

theorem ends_semicolon (rest : Text) : Ends alphanumeric (';' :: rest) := ends_cons rfl

theorem skip_quote (text rest : Text) :
    skipWhitespace (' ' :: (quote text ++ rest)) = quote text ++ rest :=
  (skipWhitespace_space _).trans ((starts_quote text [] (by decide)).skip rest)

theorem parseRequire_print (extensions : List Text) (rest : Text) :
    parseRequire (' ' :: (printStrings extensions ++ ';' :: rest)) =
      .ok (.require extensions, rest) := by
  have list := parseStringList_print extensions (';' :: rest)
  change (parseStringList (printStrings extensions ++ ';' :: rest) >>= _) = _
  rw [list, ok_bind]
  change (expect ";".toList (';' :: rest) >>= _) = _
  rw [expect_semicolon]
  rfl

theorem parseFileinto_print (mailbox rest : Text) :
    parseFileinto (' ' :: (quote mailbox ++ ';' :: rest)) = .ok (.fileinto mailbox, rest) := by
  rw [parseFileinto, skip_quote, parseString_quote, ok_bind]
  simp only [expect_semicolon, ok_bind]
  rfl

theorem parseRedirect_print (address rest : Text) :
    parseRedirect (' ' :: (quote address ++ ';' :: rest)) = .ok (.redirect address, rest) := by
  rw [parseRedirect, skip_quote, parseString_quote, ok_bind]
  simp only [expect_semicolon, ok_bind]
  rfl

theorem parseSet_print (name value rest : Text) :
    parseSet (' ' :: (quote name ++ ' ' :: (quote value ++ ';' :: rest))) =
      .ok (.set name value, rest) := by
  rw [parseSet, skip_quote, parseString_quote, ok_bind]
  simp only [skip_quote, parseString_quote, expect_semicolon, ok_bind]
  rfl

theorem parseSimple_print (command : SieveCommand) (rest : Text) :
    parseSimple command (';' :: rest) = .ok (command, rest) := by
  rw [parseSimple, expect_semicolon, ok_bind]
  rfl

theorem skip_printOption (word : Text) (text rest : Text) :
    skipWhitespace (printOption word (some text) ++ rest) =
      ':' :: (word ++ ' ' :: (text ++ rest)) := by
  simp only [printOption, List.cons_append, List.append_assoc, skipWhitespace_space]
  rfl

theorem printOption_length (word : Text) (shown : Option Text) (rest : Text) :
    (skipWhitespace rest).length ≤ (skipWhitespace (printOption word shown ++ rest)).length := by
  cases shown with
  | none => exact Nat.le_refl _
  | some text =>
      have shorter := skipWhitespace_length rest
      rw [skip_printOption, List.length_cons, List.length_append, List.length_cons,
        List.length_append]
      omega

theorem vacationTags_option {word : Text} (keyword : Keyword word) {shown : Option Text}
    {tags after : VacationTags} {rest : Text} (starts : ∀ text ∈ shown, Starts [] text)
    (absent : shown = none → after = tags)
    (reads : ∀ text ∈ shown, vacationTag tags (':' :: word) (text ++ rest) = .ok (after, rest))
    {steps : Nat} (more : 0 < steps) :
    ∃ left, steps ≤ left + 1 ∧
      vacationTags alphanumeric steps tags (skipWhitespace (printOption word shown ++ rest)) =
        vacationTags alphanumeric left after (skipWhitespace rest) := by
  cases shown with
  | none => exact ⟨steps, Nat.le_succ _, by rw [absent rfl]; rfl⟩
  | some text =>
      obtain ⟨steps, rfl⟩ := Nat.exists_eq_succ_of_ne_zero (Nat.ne_of_gt more)
      refine ⟨steps, Nat.le_refl _, ?_⟩
      have tag := @Keyword.parseTag alphanumeric word _ keyword (ends_space (text ++ rest))
      have next : skipWhitespace (' ' :: (text ++ rest)) = text ++ rest :=
        (skipWhitespace_space _).trans ((starts text rfl).skip rest)
      rw [skip_printOption, vacationTags, if_neg (by simp), tag, ok_bind]
      simp only [next, reads text rfl, ok_bind]

theorem vacationTags_value {α : Type} {word : Text} (keyword : Keyword word) (print : α → Text)
    (starts : ∀ given, Starts [] (print given)) (tags : Option α → VacationTags)
    (value : Option α) {rest : Text}
    (reads : ∀ given ∈ value, vacationTag (tags none) (':' :: word) (print given ++ rest) =
      .ok (tags (some given), rest))
    {steps : Nat} (more : 0 < steps) :
    ∃ left, steps ≤ left + 1 ∧
      vacationTags alphanumeric steps (tags none)
          (skipWhitespace (printOption word (value.map print) ++ rest)) =
        vacationTags alphanumeric left (tags value) (skipWhitespace rest) := by
  refine vacationTags_option keyword ?_ ?_ ?_ more
  · intro text shown
    obtain ⟨given, _, rfl⟩ := Option.map_eq_some_iff.mp shown
    exact starts given
  · intro absent
    rw [Option.map_eq_none_iff.mp absent]
  · intro text shown
    obtain ⟨given, found, rfl⟩ := Option.map_eq_some_iff.mp shown
    rw [found]
    exact reads given found

theorem ends_printOption {word rest : Text} (shown : Option Text)
    (ends : Ends alphanumeric rest) : Ends alphanumeric (printOption word shown ++ rest) := by
  cases shown with
  | none => exact ends
  | some text => exact ends_space _

theorem parseVacation_print {days : Option Int} (natural : days.all naturalI64 = true)
    (subject sender : Option Text) (addresses : List Text) (message rest : Text) :
    parseVacation alphanumeric (printVacation days subject sender addresses message ++ rest) =
      .ok (.vacation days subject sender addresses message, rest) := by
  let final := ' ' :: (quote message ++ ';' :: rest)
  let fourth := printOption "addresses".toList (some (printStrings addresses)) ++ final
  let third := printOption "from".toList (sender.map quote) ++ fourth
  let second := printOption "subject".toList (subject.map quote) ++ third
  let first := printOption "days".toList (days.map fun days => decimal days.toNat) ++ second
  have ends : Ends alphanumeric second :=
    ends_printOption _ (ends_printOption _ (ends_printOption _ (ends_space _)))
  have long : 5 ≤ (skipWhitespace first).length := by
    have addresses : 5 ≤ (skipWhitespace fourth).length := by
      rw [skip_printOption, List.length_cons, List.length_append]
      exact Nat.le_trans (by decide : 5 ≤ "addresses".toList.length + 0)
        (by omega)
    exact Nat.le_trans addresses (Nat.le_trans (printOption_length _ _ _)
      (Nat.le_trans (printOption_length _ _ _) (printOption_length _ _ _)))
  have readsDays : ∀ given ∈ days, vacationTag ⟨none, none, none, []⟩ ":days".toList
      (decimal given.toNat ++ second) = .ok (⟨some given, none, none, []⟩, second) := by
    intro given found
    rw [Option.mem_def.mp found, Option.all_some] at natural
    change (parseNumber (decimal given.toNat ++ second)).map _ = _
    rw [parseNumber_print natural ends]
    rfl
  have readsSubject : ∀ given ∈ subject, vacationTag ⟨days, none, none, []⟩ ":subject".toList
      (quote given ++ third) = .ok (⟨days, some given, none, []⟩, third) := by
    intro given _
    change (parseString (quote given ++ third)).map _ = _
    rw [parseString_quote]
    rfl
  have readsSender : ∀ given ∈ sender, vacationTag ⟨days, subject, none, []⟩ ":from".toList
      (quote given ++ fourth) = .ok (⟨days, subject, some given, []⟩, fourth) := by
    intro given _
    change (parseString (quote given ++ fourth)).map _ = _
    rw [parseString_quote]
    rfl
  obtain ⟨left, enough, tags⟩ := @vacationTags_value alphanumeric _ "days".toList
    ⟨by decide, by decide⟩ _ (fun _ => starts_decimal _) (⟨·, none, none, []⟩) days second
    readsDays ((skipWhitespace first).length + 1) (Nat.succ_pos _)
  obtain ⟨left₂, enough₂, tags₂⟩ := @vacationTags_value alphanumeric _ "subject".toList
    ⟨by decide, by decide⟩ _ (fun given => starts_quote given [] (by decide))
    (⟨days, ·, none, []⟩) subject third readsSubject left (by omega)
  obtain ⟨left₃, enough₃, tags₃⟩ := @vacationTags_value alphanumeric _ "from".toList
    ⟨by decide, by decide⟩ _ (fun given => starts_quote given [] (by decide))
    (⟨days, subject, ·, []⟩) sender fourth readsSender left₂ (by omega)
  obtain ⟨left₄, enough₄, tags₄⟩ := @vacationTags_option alphanumeric "addresses".toList
    ⟨by decide, by decide⟩ (some (printStrings addresses))
    ⟨days, subject, sender, []⟩ ⟨days, subject, sender, addresses⟩ final
    (by
      intro text shown
      rw [← Option.some.inj shown]
      exact ⟨'[', _, rfl, rfl, by decide⟩)
    (by
      intro absent
      cases absent)
    (by
      intro text shown
      rw [← Option.some.inj shown]
      change (parseStringList (printStrings addresses ++ final)).map _ = _
      rw [parseStringList_print]
      rfl)
    left₃ (by omega)
  obtain ⟨left₅, rfl⟩ : ∃ left₅, left₄ = left₅ + 1 := ⟨left₄ - 1, by omega⟩
  have opens : skipWhitespace final = quote message ++ ';' :: rest := skip_quote _ _
  have done : vacationTags alphanumeric ((skipWhitespace first).length + 1) ⟨none, none, none, []⟩
      (skipWhitespace first) =
        .ok (⟨days, subject, sender, addresses⟩, quote message ++ ';' :: rest) := by
    rw [tags, tags₂, tags₃, tags₄, opens, vacationTags]
    exact if_pos (by rw [quote, List.cons_append, List.head?_cons]; decide)
  have shown : printVacation days subject sender addresses message ++ rest = first := by
    simp only [printVacation, List.append_assoc, List.cons_append, List.nil_append, first, second,
      third, fourth, final]
  rw [shown]
  change (vacationTags alphanumeric ((skipWhitespace first).length + 1) ⟨none, none, none, []⟩
    (skipWhitespace first) >>= _) = _
  rw [done, ok_bind]
  simp only [parseString_quote, expect_semicolon, ok_bind]
  rfl

/-- A text that does not go on with a branch of the `if` before it. -/
structure Follows (alphanumeric : Char → Bool) (rest : Text) : Prop where
  noElsif : peekWord alphanumeric (skipWhitespace rest) ≠ some "elsif".toList
  noElse : peekWord alphanumeric (skipWhitespace rest) ≠ some "else".toList

theorem commandWord_keyword (command : SieveCommand) : Keyword (commandWord command) := by
  cases command <;> constructor <;> dsimp only [commandWord] <;> decide

theorem commandWord_ne (command : SieveCommand) :
    commandWord command ≠ "elsif".toList ∧ commandWord command ≠ "else".toList := by
  cases command <;> constructor <;> dsimp only [commandWord] <;> decide

theorem ends_printCommandRest (command : SieveCommand) (rest : Text) :
    Ends alphanumeric (printCommandRest command ++ rest) := by
  cases command with
  | keep | discard | stop => exact ends_semicolon _
  | fileinto | redirect | set | require | «if» => exact ends_space _
  | vacation days subject sender addresses message =>
      simp only [printCommandRest, printVacation, List.append_assoc]
      exact ends_printOption _ (ends_printOption _ (ends_printOption _ (ends_space _)))

theorem parseCommand_word (command : SieveCommand) (steps : Nat) (rest : Text) :
    parseSieveCommand alphanumeric (steps + 1) (printCommand command ++ rest) =
      parseSieveCommandNamed alphanumeric (parseTest alphanumeric steps)
        (parseSieveCommand alphanumeric steps) (commandWord command)
        (printCommandRest command ++ rest) := by
  have keyword := commandWord_keyword command
  rw [parseSieveCommand, printCommand, List.append_assoc, keyword.skip,
    keyword.parseWord (ends_printCommandRest command rest), ok_bind]

theorem starts_printCommand {others : Text} (plain : ∀ symbol ∈ others, symbol.isLower = false)
    (command : SieveCommand) : Starts others (printCommand command) :=
  (commandWord_keyword command).starts plain _

theorem skip_printCommand (command : SieveCommand) (rest : Text) :
    skipWhitespace (printCommand command ++ rest) = printCommand command ++ rest :=
  (@starts_printCommand [] (by simp) command).skip rest

theorem printCommands_cons (command : SieveCommand) (commands : List SieveCommand) (rest : Text) :
    printCommands (command :: commands) ++ rest =
      '\n' :: (printCommand command ++ (printCommands commands ++ rest)) := by
  simp only [printCommands, printCommand, List.cons_append, List.append_assoc]

theorem peekWord_keyword {word tail : Text} (keyword : Keyword word)
    (ends : Ends alphanumeric tail) : peekWord alphanumeric (word ++ tail) = some word := by
  rw [peekWord, keyword.parseWord ends]

theorem follows_printCommands (commands : List SieveCommand) {rest : Text}
    (closes : rest = [] ∨ ∃ others, rest = '\x7d' :: others) :
    Follows alphanumeric (printCommands commands ++ rest) := by
  cases commands with
  | nil =>
      have nothing : peekWord alphanumeric (skipWhitespace (printCommands [] ++ rest)) = none := by
        rcases closes with rfl | ⟨others, rfl⟩ <;> rfl
      exact ⟨by rw [nothing]; exact nofun, by rw [nothing]; exact nofun⟩
  | cons command commands =>
      have peeked : peekWord alphanumeric
          (skipWhitespace (printCommands (command :: commands) ++ rest)) =
            some (commandWord command) := by
        rw [printCommands_cons, skipWhitespace_newline, skip_printCommand, printCommand,
          List.append_assoc]
        exact peekWord_keyword (commandWord_keyword command) (ends_printCommandRest command _)
      constructor
      · rw [peeked]
        exact fun same => (commandWord_ne command).1 (Option.some.inj same)
      · rw [peeked]
        exact fun same => (commandWord_ne command).2 (Option.some.inj same)

def Reads (alphanumeric : Char → Bool) (command : Text → Parsing (SieveCommand × Text))
    (value : SieveCommand) : Prop :=
  ∀ rest, Follows alphanumeric rest → ∃ left,
    command (printCommand value ++ rest) = .ok (value, left) ∧
      skipWhitespace left = skipWhitespace rest

section Blocks

variable {command : Text → Parsing (SieveCommand × Text)}

theorem commandsUntil_print {commands : List SieveCommand}
    (reads : ∀ value ∈ commands, Reads alphanumeric command value) (rest : Text) :
    ∀ steps input, (printCommands commands).length ≤ steps →
      skipWhitespace input = skipWhitespace (printCommands commands ++ '\x7d' :: rest) →
        commandsUntil command steps input = .ok (commands, '\x7d' :: rest) := by
  induction commands with
  | nil =>
      intro steps input enough shape
      obtain ⟨steps, rfl⟩ := Nat.exists_eq_succ_of_ne_zero (Nat.ne_of_gt enough)
      change skipWhitespace input = '\x7d' :: rest at shape
      rw [commandsUntil, shape, List.head?_cons, if_pos rfl]
  | cons value commands ih =>
      intro steps input enough shape
      rw [printCommands, List.length_cons, List.length_append, List.length_append] at enough
      obtain ⟨steps, rfl⟩ := Nat.exists_eq_succ_of_ne_zero (Nat.ne_zero_of_lt enough)
      have opens : skipWhitespace input =
          printCommand value ++ (printCommands commands ++ '\x7d' :: rest) := by
        rw [shape, printCommands_cons, skipWhitespace_newline, skip_printCommand]
      obtain ⟨left, read, same⟩ := reads value List.mem_cons_self _
        (follows_printCommands commands (.inr ⟨rest, rfl⟩))
      have others := ih (fun other member => reads other (List.mem_cons_of_mem _ member))
        steps left (by omega) same
      have more : (printCommand value ++ (printCommands commands ++ '\x7d' :: rest)).head? ≠
          some '\x7d' := (@starts_printCommand ['\x7d'] (by decide) value).head List.mem_cons_self _
      rw [commandsUntil, opens, if_neg more, read, ok_bind]
      simp only [others, ok_bind]
      rfl

theorem parseBlock_print {commands : List SieveCommand}
    (reads : ∀ value ∈ commands, Reads alphanumeric command value) (rest : Text) :
    parseBlock command (printBlock (printCommands commands) ++ rest) = .ok (commands, rest) := by
  have opens : expect "\x7b".toList (printBlock (printCommands commands) ++ rest) =
      .ok (printCommands commands ++ '\x7d' :: rest) := by
    rw [printBlock, List.cons_append, List.append_assoc]
    exact expect_cons rfl (by decide) _
  have inside := commandsUntil_print reads rest
    ((printCommands commands ++ '\x7d' :: rest).length + 1) _
    (by rw [List.length_append]; omega) rfl
  have shuts : expect "\x7d".toList ('\x7d' :: rest) = .ok rest := expect_cons rfl (by decide) rest
  rw [parseBlock, opens, ok_bind, inside, ok_bind]
  simp only [shuts, ok_bind]
  rfl

theorem skip_printBlock (commands rest : Text) :
    skipWhitespace (' ' :: (printBlock commands ++ rest)) = printBlock commands ++ rest := rfl

theorem skip_printTest (test : SieveTest) (rest : Text) :
    skipWhitespace (' ' :: (printTest test ++ rest)) = printTest test ++ rest :=
  (skipWhitespace_space _).trans ((@starts_printTest [] (by simp) test).skip rest)

theorem parseBranches_print {test : Text → Parsing (SieveTest × Text)}
    {branches : List (SieveTest × List SieveCommand)} {elseCommands : Option (List SieveCommand)}
    (tests : ∀ branch ∈ branches, ∀ rest,
      test (printTest branch.1 ++ ' ' :: rest) = .ok (branch.1, ' ' :: rest))
    (commands : ∀ branch ∈ branches, ∀ value ∈ branch.2, Reads alphanumeric command value)
    (others : ∀ values ∈ elseCommands, ∀ value ∈ values, Reads alphanumeric command value)
    {rest : Text} (follows : Follows alphanumeric rest) :
    ∀ steps, (printBranches branches).length < steps → ∃ left,
      parseBranches alphanumeric test command steps
          (printBranches branches ++ (printElse elseCommands ++ rest)) =
        .ok ((branches, elseCommands), left) ∧ skipWhitespace left = skipWhitespace rest := by
  induction branches with
  | nil =>
      intro steps enough
      obtain ⟨steps, rfl⟩ := Nat.exists_eq_succ_of_ne_zero (Nat.ne_of_gt enough)
      cases elseCommands with
      | none =>
          refine ⟨skipWhitespace rest, ?_, skipWhitespace_twice rest⟩
          change parseBranches alphanumeric test command (steps + 1) rest = _
          rw [parseBranches, if_neg follows.noElsif, if_neg follows.noElse]
      | some values =>
          refine ⟨rest, ?_, rfl⟩
          have keyword : Keyword "else".toList := ⟨by decide, by decide⟩
          let tail := ' ' :: (printBlock (printCommands values) ++ rest)
          have opens : skipWhitespace (printBranches [] ++ (printElse (some values) ++ rest)) =
              "else".toList ++ tail := by
            rw [printBranches, printElse, printOtherwise, List.nil_append, List.cons_append,
              skipWhitespace_space, List.append_assoc, List.cons_append]
            exact keyword.skip _
          have peeked := @peekWord_keyword alphanumeric _ tail keyword (ends_space _)
          have word := @Keyword.parseWord alphanumeric _ tail keyword (ends_space _)
          have block := parseBlock_print (others values rfl) rest
          rw [parseBranches, opens, peeked, if_neg (by decide), if_pos rfl, word, ok_bind]
          simp only [tail, skip_printBlock, block, ok_bind]
          rfl
  | cons branch branches ih =>
      intro steps enough
      obtain ⟨condition, values⟩ := branch
      rw [printBranches, printElsif, List.length_cons, List.length_append, List.length_cons,
        List.length_append, List.length_cons, List.length_append] at enough
      obtain ⟨steps, rfl⟩ := Nat.exists_eq_succ_of_ne_zero (Nat.ne_zero_of_lt enough)
      obtain ⟨left, remaining, same⟩ := ih
        (fun other member => tests other (List.mem_cons_of_mem _ member))
        (fun other member => commands other (List.mem_cons_of_mem _ member)) steps (by omega)
      refine ⟨left, ?_, same⟩
      have keyword : Keyword "elsif".toList := ⟨by decide, by decide⟩
      let after := printBranches branches ++ (printElse elseCommands ++ rest)
      let tail := ' ' :: (printTest condition ++ ' ' :: (printBlock (printCommands values) ++ after))
      have opens : skipWhitespace (printBranches ((condition, values) :: branches) ++
          (printElse elseCommands ++ rest)) = "elsif".toList ++ tail := by
        rw [printBranches, printElsif, List.cons_append, skipWhitespace_space, List.append_assoc,
          List.cons_append, List.append_assoc, List.cons_append, List.append_assoc]
        exact keyword.skip _
      have peeked := @peekWord_keyword alphanumeric _ tail keyword (ends_space _)
      have word := @Keyword.parseWord alphanumeric _ tail keyword (ends_space _)
      have read := tests (condition, values) List.mem_cons_self
        (printBlock (printCommands values) ++ after)
      have block := parseBlock_print (commands (condition, values) List.mem_cons_self) after
      rw [parseBranches, opens, peeked, if_pos rfl, word, ok_bind]
      simp only [tail, skip_printTest, read, ok_bind, skip_printBlock, block, after, remaining]
      rfl

end Blocks

theorem length_printCommands {commands : List SieveCommand} {value : SieveCommand}
    (member : value ∈ commands) :
    (printCommand value).length ≤ (printCommands commands).length := by
  induction commands with
  | nil => cases member
  | cons first commands ih =>
      rw [printCommands, List.length_cons, List.length_append, List.length_append]
      rcases List.mem_cons.mp member with same | member
      · rw [same, printCommand, List.length_append]
        omega
      · have later := ih member
        omega

theorem length_printBranches {branches : List (SieveTest × List SieveCommand)}
    {branch : SieveTest × List SieveCommand} (member : branch ∈ branches) :
    (printTest branch.1).length + (printCommands branch.2).length ≤
      (printBranches branches).length := by
  induction branches with
  | nil => cases member
  | cons first branches ih =>
      obtain ⟨test, commands⟩ := first
      rw [printBranches, printElsif, List.length_cons, List.length_append, List.length_cons,
        List.length_append, List.length_cons, List.length_append, printBlock, List.length_cons,
        List.length_append]
      rcases List.mem_cons.mp member with same | member
      · rw [same]
        dsimp only
        omega
      · have later := ih member
        omega

theorem printableTest_branch {branches : List (SieveTest × List SieveCommand)}
    (printable : printableBranches branches = true) {branch : SieveTest × List SieveCommand}
    (member : branch ∈ branches) : printableTest branch.1 = true := by
  induction branches with
  | nil => cases member
  | cons first branches ih =>
      obtain ⟨test, commands⟩ := first
      rw [printableBranches, Bool.and_eq_true, Bool.and_eq_true] at printable
      rcases List.mem_cons.mp member with same | member
      · rw [same]
        exact printable.1.1
      · exact ih printable.2 member

theorem reads_exactly {command : Text → Parsing (SieveCommand × Text)} {value : SieveCommand}
    (exactly : ∀ rest, command (printCommand value ++ rest) = .ok (value, rest)) :
    Reads alphanumeric command value :=
  fun rest _ => ⟨rest, exactly rest, rfl⟩

theorem parseIf_print {test : Text → Parsing (SieveTest × Text)}
    {command : Text → Parsing (SieveCommand × Text)} {condition : SieveTest}
    {thenCommands : List SieveCommand} {branches : List (SieveTest × List SieveCommand)}
    {elseCommands : Option (List SieveCommand)}
    (conditions : ∀ rest, test (printTest condition ++ ' ' :: rest) = .ok (condition, ' ' :: rest))
    (thens : ∀ value ∈ thenCommands, Reads alphanumeric command value)
    (tests : ∀ branch ∈ branches, ∀ rest,
      test (printTest branch.1 ++ ' ' :: rest) = .ok (branch.1, ' ' :: rest))
    (commands : ∀ branch ∈ branches, ∀ value ∈ branch.2, Reads alphanumeric command value)
    (others : ∀ values ∈ elseCommands, ∀ value ∈ values, Reads alphanumeric command value)
    {rest : Text} (follows : Follows alphanumeric rest) : ∃ left,
      parseIf alphanumeric test command
          (' ' :: (printTest condition ++ (' ' :: (printBlock (printCommands thenCommands) ++
            (printBranches branches ++ (printElse elseCommands ++ rest)))))) =
        .ok (.if condition thenCommands branches elseCommands, left) ∧
          skipWhitespace left = skipWhitespace rest := by
  obtain ⟨left, branched, same⟩ := parseBranches_print tests commands others follows
    ((printBranches branches ++ (printElse elseCommands ++ rest)).length + 1)
    (by rw [List.length_append]; omega)
  refine ⟨left, ?_, same⟩
  have block := parseBlock_print thens
    (printBranches branches ++ (printElse elseCommands ++ rest))
  rw [parseIf, skip_printTest, conditions, ok_bind]
  simp only [skip_printBlock, block, ok_bind, branched]
  rfl

mutual

theorem parseCommand_print : ∀ value, printableCommand value = true → ∀ steps,
    (printCommand value).length ≤ steps →
      Reads alphanumeric (parseSieveCommand alphanumeric steps) value
  | value, _, 0, enough => by
      have positive := (@starts_printCommand [] (by simp) value).positive
      omega
  | .keep, _, steps + 1, _ => reads_exactly fun rest =>
      (parseCommand_word .keep steps rest).trans (parseSimple_print .keep rest)
  | .discard, _, steps + 1, _ => reads_exactly fun rest =>
      (parseCommand_word .discard steps rest).trans (parseSimple_print .discard rest)
  | .stop, _, steps + 1, _ => reads_exactly fun rest =>
      (parseCommand_word .stop steps rest).trans (parseSimple_print .stop rest)
  | .fileinto mailbox, _, steps + 1, _ => reads_exactly fun rest => by
      rw [parseCommand_word, printCommandRest, List.cons_append, List.append_assoc]
      exact parseFileinto_print mailbox rest
  | .redirect address, _, steps + 1, _ => reads_exactly fun rest => by
      rw [parseCommand_word, printCommandRest, List.cons_append, List.append_assoc]
      exact parseRedirect_print address rest
  | .require extensions, _, steps + 1, _ => reads_exactly fun rest => by
      rw [parseCommand_word, printCommandRest, List.cons_append, List.append_assoc]
      exact parseRequire_print extensions rest
  | .set name value, _, steps + 1, _ => reads_exactly fun rest => by
      rw [parseCommand_word, printCommandRest, List.cons_append, List.append_assoc,
        List.cons_append, List.append_assoc]
      exact parseSet_print name value rest
  | .vacation days subject sender addresses message, printable, steps + 1, _ =>
      reads_exactly fun rest => by
      simp only [printableCommand, Bool.and_eq_true] at printable
      rw [parseCommand_word, printCommandRest]
      exact parseVacation_print printable.1.1.1.1 subject sender addresses message rest
  | .if test thenCommands elsifBranches elseCommands, printable, steps + 1, enough => by
      intro rest follows
      rw [printableCommand, Bool.and_eq_true, Bool.and_eq_true, Bool.and_eq_true] at printable
      obtain ⟨⟨⟨condition, thens⟩, branches⟩, others⟩ := printable
      have sizes : (printTest test).length ≤ steps ∧ (printCommands thenCommands).length ≤ steps ∧
          (printBranches elsifBranches).length ≤ steps ∧
            (printElse elseCommands).length ≤ steps := by
        rw [printCommand, printCommandRest, List.length_append, List.length_cons,
          List.length_append, List.length_cons, List.length_append, List.length_append, printBlock,
          List.length_cons, List.length_append] at enough
        omega
      rw [parseCommand_word, printCommandRest, List.cons_append, List.append_assoc,
        List.cons_append, List.append_assoc, List.append_assoc]
      refine parseIf_print
        (fun rest => parseTest_print test condition steps sizes.1 _ (ends_space rest))
        (fun value member => parseCommands_print thenCommands thens value member steps ?_)
        (fun branch member rest => parseTest_print branch.1
          (printableTest_branch branches member) steps ?_ _ (ends_space rest))
        (fun branch member value inside => parseBranchCommands_print elsifBranches branches branch
          member value inside steps ?_)
        (fun values found value member => parseElseCommands_print elseCommands others values found
          value member steps ?_) follows
      · exact Nat.le_trans (length_printCommands member) sizes.2.1
      · have inside := length_printBranches member
        omega
      · have inner := length_printBranches member
        have shorter := length_printCommands inside
        omega
      · have inside := length_printCommands member
        rw [found, printElse, printOtherwise, List.length_cons, List.length_append,
          List.length_cons, printBlock, List.length_cons, List.length_append] at sizes
        omega

theorem parseCommands_print : ∀ commands, printableCommands commands = true →
    ∀ value ∈ commands, ∀ steps, (printCommand value).length ≤ steps →
      Reads alphanumeric (parseSieveCommand alphanumeric steps) value
  | [], _, _, member => nomatch member
  | first :: commands, printable, value, member => by
      rw [printableCommands, Bool.and_eq_true] at printable
      rcases List.mem_cons.mp member with same | member
      · rw [same]
        exact parseCommand_print first printable.1
      · exact parseCommands_print commands printable.2 value member

theorem parseBranchCommands_print : ∀ branches, printableBranches branches = true →
    ∀ branch ∈ branches, ∀ value ∈ branch.2, ∀ steps, (printCommand value).length ≤ steps →
      Reads alphanumeric (parseSieveCommand alphanumeric steps) value
  | [], _, _, member => nomatch member
  | (test, commands) :: branches, printable, branch, member => by
      rw [printableBranches, Bool.and_eq_true, Bool.and_eq_true] at printable
      rcases List.mem_cons.mp member with same | member
      · rw [same]
        exact parseCommands_print commands printable.1.2
      · exact parseBranchCommands_print branches printable.2 branch member

theorem parseElseCommands_print : ∀ commands, printableElse commands = true →
    ∀ values ∈ commands, ∀ value ∈ values, ∀ steps, (printCommand value).length ≤ steps →
      Reads alphanumeric (parseSieveCommand alphanumeric steps) value
  | none, _, _, found => nomatch found
  | some commands, printable, values, found => by
      rw [← Option.some.inj found]
      exact parseCommands_print commands printable

end

end Pieces

/-! Printed text is ASCII. -/

section Ascii

theorem asciiText_append (first second : Text) :
    asciiText (first ++ second) = (asciiText first && asciiText second) := List.all_append

theorem asciiText_cons (character : Char) (text : Text) :
    asciiText (character :: text) = (decide (character.toNat < 128) && asciiText text) := rfl

theorem asciiText_iff {text : Text} :
    asciiText text = true ↔ ∀ character ∈ text, character.toNat < 128 := by
  rw [asciiText, List.all_eq_true]
  simp only [decide_eq_true_eq]

theorem asciiText_quote {text : Text} (ascii : asciiText text = true) :
    asciiText (quote text) = true := by
  have escaped : asciiText (text.flatMap escapeQuoted) = true := by
    rw [asciiText_iff] at ascii ⊢
    intro character member
    obtain ⟨source, inside, escape⟩ := List.mem_flatMap.mp member
    rw [escapeQuoted] at escape
    split at escape
    · rcases List.mem_pair.mp escape with rfl | rfl
      · decide
      · exact ascii _ inside
    · rw [List.mem_singleton.mp escape]
      exact ascii source inside
  rw [quote, asciiText_cons, asciiText_append, escaped]
  rfl

theorem asciiText_commaSeparated {parts : List Text}
    (ascii : ∀ part ∈ parts, asciiText part = true) : asciiText (commaSeparated parts) = true := by
  rw [asciiText_iff]
  intro character member
  rcases mem_joinWith member with comma | ⟨part, inside, here⟩
  · exact asciiText_iff.mp (by decide : asciiText ", ".toList = true) character comma
  · exact asciiText_iff.mp (ascii part inside) character here

theorem asciiText_printStrings {strings : List Text} (ascii : strings.all asciiText = true) :
    asciiText (printStrings strings) = true := by
  have parts : asciiText (commaSeparated (strings.map quote)) = true := by
    apply asciiText_commaSeparated
    intro part member
    obtain ⟨text, inside, rfl⟩ := List.mem_map.mp member
    exact asciiText_quote (List.all_eq_true.mp ascii text inside)
  rw [printStrings, asciiText_cons, asciiText_append, parts]
  rfl

theorem asciiText_decimal (value : Nat) : asciiText (decimal value) = true := by
  rw [asciiText_iff]
  intro digit member
  have code := isDigit_decimal member
  simp only [Char.isDigit, Bool.and_eq_true, decide_eq_true_eq, UInt32.le_iff_toNat_le] at code
  have small : digit.toNat ≤ 57 := code.2
  omega

theorem asciiText_printMatch {comparator : Option Text} {matchType : Text} {names keys : List Text}
    (printable : printableMatch comparator matchType names keys = true) :
    asciiText (printMatch comparator matchType names keys) = true := by
  simp only [printableMatch, Bool.and_eq_true, List.contains_iff_mem] at printable
  obtain ⟨⟨⟨comparators, known⟩, namesAscii⟩, keysAscii⟩ := printable
  have match_ : asciiText matchType = true :=
    (by decide : ∀ word ∈ matchTypes, asciiText word = true) matchType known
  have names_ := asciiText_printStrings namesAscii
  have keys_ := asciiText_printStrings keysAscii
  cases comparator with
  | none =>
      simp only [printMatch, printTags, asciiText_append, asciiText_cons, match_, names_, keys_]
      decide
  | some name =>
      rw [Option.all_some] at comparators
      have name_ := asciiText_quote comparators
      simp only [printMatch, printTags, asciiText_append, asciiText_cons, match_, names_, keys_,
        name_]
      decide

theorem asciiText_testWord (test : SieveTest) : asciiText (testWord test) = true := by
  cases test <;> dsimp only [testWord] <;> decide

mutual

theorem asciiText_printTestRest : ∀ test, printableTest test = true →
    asciiText (printTestRest test) = true
  | .true, _ | .false, _ => rfl
  | .header .., printable => asciiText_printMatch printable
  | .address .., printable => asciiText_printMatch printable
  | .envelope .., printable => asciiText_printMatch printable
  | .exists headers, printable => by
      rw [printTestRest, asciiText_cons, asciiText_printStrings printable]
      decide
  | .size above limit, _ => by
      rw [printTestRest, printSize, asciiText_cons, asciiText_append, asciiText_cons,
        asciiText_decimal]
      cases above <;> decide
  | .allOf tests, printable => by
      rw [printTestRest, asciiText_cons, asciiText_cons, asciiText_append,
        asciiText_commaSeparated (asciiText_printTests tests printable)]
      decide
  | .anyOf tests, printable => by
      rw [printTestRest, asciiText_cons, asciiText_cons, asciiText_append,
        asciiText_commaSeparated (asciiText_printTests tests printable)]
      decide
  | .not test, printable => by
      rw [printTestRest, asciiText_cons, asciiText_append, asciiText_testWord,
        asciiText_printTestRest test printable]
      decide

theorem asciiText_printTests : ∀ tests, printableTests tests = true →
    ∀ part ∈ printTests tests, asciiText part = true
  | [], _, _, member => nomatch member
  | test :: tests, printable, part, member => by
      rw [printableTests, Bool.and_eq_true] at printable
      rw [printTests] at member
      rcases List.mem_cons.mp member with same | member
      · rw [same, asciiText_append, asciiText_testWord,
          asciiText_printTestRest test printable.1, Bool.and_self]
      · exact asciiText_printTests tests printable.2 part member

end

theorem asciiText_printTest {test : SieveTest} (printable : printableTest test = true) :
    asciiText (printTest test) = true := by
  rw [printTest, asciiText_append, asciiText_testWord, asciiText_printTestRest test printable,
    Bool.and_self]

theorem asciiText_printOption {word : Text} {shown : Option Text}
    (wordAscii : asciiText word = true) (ascii : ∀ text ∈ shown, asciiText text = true) :
    asciiText (printOption word shown) = true := by
  cases shown with
  | none => rfl
  | some text =>
      rw [printOption, asciiText_cons, asciiText_cons, asciiText_append, asciiText_cons, wordAscii,
        ascii text rfl]
      decide

theorem asciiText_commandWord (command : SieveCommand) :
    asciiText (commandWord command) = true := by
  cases command <;> dsimp only [commandWord] <;> decide

theorem asciiText_printVacation {days : Option Int} {subject sender : Option Text}
    {addresses : List Text} {message : Text}
    (printable : printableCommand (.vacation days subject sender addresses message) = true) :
    asciiText (printVacation days subject sender addresses message) = true := by
  simp only [printableCommand, Bool.and_eq_true] at printable
  obtain ⟨⟨⟨⟨_, subjects⟩, senders⟩, addressesAscii⟩, messageAscii⟩ := printable
  have quotes : ∀ {text : Option Text}, text.all asciiText = true → ∀ shown ∈ text.map quote,
      asciiText shown = true := by
    intro text ascii shown member
    obtain ⟨value, found, rfl⟩ := Option.map_eq_some_iff.mp member
    rw [found, Option.all_some] at ascii
    exact asciiText_quote ascii
  have days_ : asciiText (printOption "days".toList (days.map fun days => decimal days.toNat)) =
      true := by
    apply asciiText_printOption (by decide)
    intro shown member
    obtain ⟨value, _, rfl⟩ := Option.map_eq_some_iff.mp member
    exact asciiText_decimal _
  have subject_ : asciiText (printOption "subject".toList (subject.map quote)) = true :=
    asciiText_printOption (by decide) (quotes subjects)
  have sender_ : asciiText (printOption "from".toList (sender.map quote)) = true :=
    asciiText_printOption (by decide) (quotes senders)
  have addresses_ : asciiText
      (printOption "addresses".toList (some (printStrings addresses))) = true := by
    apply asciiText_printOption (by decide)
    intro shown member
    rw [← Option.some.inj member]
    exact asciiText_printStrings addressesAscii
  rw [printVacation, asciiText_append, asciiText_append, asciiText_append, asciiText_append,
    asciiText_cons, asciiText_append, days_, subject_, sender_, addresses_,
    asciiText_quote messageAscii]
  decide

mutual

theorem asciiText_printCommandRest : ∀ command, printableCommand command = true →
    asciiText (printCommandRest command) = true
  | .keep, _ | .discard, _ | .stop, _ => by
      rw [printCommandRest]
      decide
  | .fileinto mailbox, printable => by
      rw [printCommandRest, asciiText_cons, asciiText_append, asciiText_quote printable]
      decide
  | .redirect address, printable => by
      rw [printCommandRest, asciiText_cons, asciiText_append, asciiText_quote printable]
      decide
  | .require extensions, printable => by
      rw [printCommandRest, asciiText_cons, asciiText_append, asciiText_printStrings printable]
      decide
  | .set name value, printable => by
      rw [printableCommand, Bool.and_eq_true] at printable
      rw [printCommandRest, asciiText_cons, asciiText_append, asciiText_quote printable.1,
        asciiText_cons, asciiText_append, asciiText_quote printable.2]
      decide
  | .vacation .., printable => asciiText_printVacation printable
  | .if test thenCommands elsifBranches elseCommands, printable => by
      rw [printableCommand, Bool.and_eq_true, Bool.and_eq_true, Bool.and_eq_true] at printable
      obtain ⟨⟨⟨condition, thens⟩, branches⟩, others⟩ := printable
      rw [printCommandRest, asciiText_cons, asciiText_append, asciiText_cons, asciiText_append,
        asciiText_append, printBlock, asciiText_cons, asciiText_append,
        asciiText_printTest condition, asciiText_printCommands thenCommands thens,
        asciiText_printBranches elsifBranches branches, asciiText_printElse elseCommands others]
      decide

theorem asciiText_printCommands : ∀ commands, printableCommands commands = true →
    asciiText (printCommands commands) = true
  | [], _ => by
      rw [printCommands]
      decide
  | command :: commands, printable => by
      rw [printableCommands, Bool.and_eq_true] at printable
      rw [printCommands, asciiText_cons, asciiText_append, asciiText_append, asciiText_commandWord,
        asciiText_printCommandRest command printable.1,
        asciiText_printCommands commands printable.2]
      decide

theorem asciiText_printBranches : ∀ branches, printableBranches branches = true →
    asciiText (printBranches branches) = true
  | [], _ => rfl
  | (test, commands) :: branches, printable => by
      rw [printableBranches, Bool.and_eq_true, Bool.and_eq_true] at printable
      rw [printBranches, printElsif, asciiText_cons, asciiText_append, asciiText_cons,
        asciiText_append, asciiText_cons, asciiText_append, printBlock, asciiText_cons,
        asciiText_append, asciiText_printTest printable.1.1,
        asciiText_printCommands commands printable.1.2,
        asciiText_printBranches branches printable.2]
      decide

theorem asciiText_printElse : ∀ commands, printableElse commands = true →
    asciiText (printElse commands) = true
  | none, _ => rfl
  | some commands, printable => by
      rw [printElse, printOtherwise, asciiText_cons, asciiText_append, asciiText_cons, printBlock,
        asciiText_cons, asciiText_append, asciiText_printCommands commands printable]
      decide

end

end Ascii

def requiresOf (commands : List SieveCommand) : List Text :=
  commands.flatMap fun
    | .require extensions => extensions
    | _ => []

theorem addCommand_eq (script : SieveScript) (command : SieveCommand) :
    script.addCommand command =
      ⟨script.commands ++ [command], script.requires ++ requiresOf [command]⟩ := by
  cases command <;> simp [SieveScript.addCommand, requiresOf]

theorem parseScript_print (alphanumeric : Char → Bool) {commands : List SieveCommand}
    (printable : printableCommands commands = true) {depth : Nat}
    (deep : (printCommands commands).length ≤ depth) :
    ∀ steps script, (printCommands commands).length ≤ steps → ∀ input,
      input = skipWhitespace (printCommands commands) →
        parseScript alphanumeric true depth steps script input =
          .ok ⟨script.commands ++ commands, script.requires ++ requiresOf commands⟩ := by
  induction commands with
  | nil =>
      intro steps script enough input shape
      obtain ⟨steps, rfl⟩ := Nat.exists_eq_succ_of_ne_zero (Nat.ne_of_gt enough)
      rw [parseScript, if_pos ⟨shape, rfl⟩, List.append_nil, requiresOf, List.flatMap_nil,
        List.append_nil]
  | cons command commands ih =>
      intro steps script enough input shape
      rw [printableCommands, Bool.and_eq_true] at printable
      rw [printCommands, List.length_cons, List.length_append, List.length_append] at enough deep
      obtain ⟨steps, rfl⟩ := Nat.exists_eq_succ_of_ne_zero (Nat.ne_zero_of_lt enough)
      have opens : input = printCommand command ++ printCommands commands := by
        have shown := printCommands_cons command commands []
        rw [List.append_nil, List.append_nil] at shown
        rw [shape, shown, skipWhitespace_newline, skip_printCommand]
      have follows : Follows alphanumeric (printCommands commands) :=
        List.append_nil (printCommands commands) ▸ follows_printCommands commands (.inl rfl)
      have size : (printCommand command).length ≤ depth := by
        rw [printCommand, List.length_append]
        omega
      obtain ⟨left, read, same⟩ := parseCommand_print command printable.1 depth size
        (printCommands commands) follows
      have some : ¬(printCommand command ++ printCommands commands = [] ∧ true = true) := by
        have positive := (@starts_printCommand [] (by simp) command).positive
        rintro ⟨empty, _⟩
        have size := congrArg List.length empty
        rw [List.length_append, List.length_nil] at size
        omega
      have others := ih printable.2 (by omega) steps (script.addCommand command) (by omega)
        (skipWhitespace left) same
      rw [parseScript, opens, if_neg some, read, ok_bind]
      simp only [others]
      rw [addCommand_eq, Except.ok.injEq, SieveScript.mk.injEq]
      constructor
      · simp
      · simp [requiresOf]

/-- Parsing what is printed gives back the commands, with the extensions they require. -/
theorem parse_printCommands (alphanumeric : Char → Bool) (commands : List SieveCommand)
    (printable : printableCommands commands = true) :
    SieveScript.parse alphanumeric (printCommands commands) =
      .ok ⟨commands, requiresOf commands⟩ := by
  have short : octetLength (printCommands commands) = (printCommands commands).length :=
    octetLength_ascii (asciiText_iff.mp (asciiText_printCommands commands printable))
  rw [SieveScript.parse, decide_eq_true short]
  exact parseScript_print alphanumeric printable (Nat.le_succ _) _ .empty (Nat.le_succ _) _ rfl

theorem parse_printCommands_vacation :
    let commands : List SieveCommand :=
      [.require ["vacation".toList], .if (.not (.size true 100)) [.keep] [] (some []),
        .vacation (some 7) none (some "a\"b".toList) [] "\\".toList]
    printableCommands commands = true ∧
      SieveScript.parse (fun _ => true) (printCommands commands) =
        .ok ⟨commands, requiresOf commands⟩ :=
  ⟨by decide, parse_printCommands _ _ (by decide)⟩

end Rusmes
