import Mathlib.Algebra.Order.Ring.Int
import Rusmes.Proto.Mail
import Rusmes.Sieve.Script

/-!
The Sieve parser of `parser.rs`. A parser takes the text from its position on and gives
its value with the text that is left. The recursion is bounded by a count of steps;
`parse_not_endless` says that the count given by the text's length is never used up.
-/

namespace Rusmes

open WireText

inductive ParseError
  | failed (message : String)
  | endless
  deriving DecidableEq, Repr

abbrev Parsing := Except ParseError

theorem ran_bind {α β : Type} {run : Parsing α} {next : α → Parsing β} {result : β}
    (ran : (run >>= next) = .ok result) : ∃ value, run = .ok value ∧ next value = .ok result := by
  cases run with
  | error error => cases ran
  | ok value => exact ⟨value, rfl, ran⟩

def characterDebug : Option Char → String
  | none => "None"
  | some character =>
      let shown :=
        if character = '\x27' then ['\\', '\x27']
        else if character = '"' then ['"']
        else escapeDebug character
      "Some('" ++ String.ofList shown ++ "')"

def skipFrom : Bool → Text → Text
  | _, [] => []
  | true, character :: rest => skipFrom (character ≠ '\n') rest
  | false, character :: rest =>
      if isWhitespace character then skipFrom false rest
      else if character = '#' then skipFrom true rest
      else character :: rest

def skipWhitespace (input : Text) : Text := skipFrom false input

theorem skipFrom_length (commented : Bool) (input : Text) :
    (skipFrom commented input).length ≤ input.length := by
  induction input generalizing commented with
  | nil => cases commented <;> exact Nat.le_refl _
  | cons character rest ih =>
      cases commented with
      | true => exact Nat.le_succ_of_le (ih _)
      | false =>
          rw [skipFrom]
          split
          · exact Nat.le_succ_of_le (ih _)
          · split
            · exact Nat.le_succ_of_le (ih _)
            · exact Nat.le_refl _

theorem skipWhitespace_length (input : Text) : (skipWhitespace input).length ≤ input.length :=
  skipFrom_length false input

theorem skipWhitespace_solid {character : Char} (solid : isWhitespace character = false)
    (code : character ≠ '#') (rest : Text) :
    skipWhitespace (character :: rest) = character :: rest := by
  rw [skipWhitespace, skipFrom, solid, if_neg Bool.false_ne_true, if_neg code]

theorem skipFrom_twice (commented : Bool) (input : Text) :
    skipWhitespace (skipFrom commented input) = skipFrom commented input := by
  induction input generalizing commented with
  | nil => cases commented <;> rfl
  | cons character rest ih =>
      cases commented with
      | true => exact ih _
      | false =>
          rw [skipFrom]
          split
          · exact ih _
          · split
            · exact ih _
            · rename_i solid code
              exact skipWhitespace_solid (Bool.eq_false_iff.mpr solid) code rest

theorem skipWhitespace_twice (input : Text) :
    skipWhitespace (skipWhitespace input) = skipWhitespace input :=
  skipFrom_twice false input

def expectEach : Text → Text → Parsing Text
  | [], input => .ok input
  | expected :: others, input =>
      if input.head? = some expected then expectEach others input.tail
      else .error (.failed
        ("Expected '" ++ String.singleton expected ++ "', got '" ++
          characterDebug input.head? ++ "'"))

def expect (word input : Text) : Parsing Text :=
  expectEach word (skipWhitespace input)

section Parser

-- which characters beyond ASCII are alphanumeric
variable (alphanumeric : Char → Bool)

def wordCharacter (character : Char) : Bool :=
  (if character.toNat < 128 then character.isAlphanum else alphanumeric character) ||
    character = '_' || character = '-'

def parseWord (input : Text) : Parsing (Text × Text) :=
  let input := skipWhitespace input
  let word := input.takeWhile (wordCharacter alphanumeric)
  if word = [] then .error (.failed "Expected word")
  else .ok (word, input.dropWhile (wordCharacter alphanumeric))

def peekWord (input : Text) : Option Text :=
  match parseWord alphanumeric input with
  | .ok (word, _) => some word
  | .error _ => none

def parseTag (input : Text) : Parsing (Text × Text) :=
  match skipWhitespace input with
  | ':' :: input =>
      let name := input.takeWhile (wordCharacter alphanumeric)
      if name = [] then .error (.failed "Empty tag")
      else .ok (':' :: name, input.dropWhile (wordCharacter alphanumeric))
  | _ => .error (.failed "Expected tag starting with ':'")

end Parser

def stringRest : Bool → Text → Parsing (Text × Text)
  | _, [] => .error (.failed "Unterminated string")
  | true, character :: input => do
      let (text, input) ← stringRest false input
      return (character :: text, input)
  | false, character :: input =>
      if character = '\\' then stringRest true input
      else if character = '"' then .ok ([], input)
      else do
        let (text, input) ← stringRest false input
        return (character :: text, input)

def parseString (input : Text) : Parsing (Text × Text) :=
  match skipWhitespace input with
  | '"' :: input => stringRest false input
  | _ => .error (.failed "Expected string")

def itemsUntil {α : Type} (closing : Char) (item : Text → Parsing (α × Text)) : Nat → Text → Parsing ((List α) × Text)
  | 0, _ => .error .endless
  | steps + 1, input =>
      if (skipWhitespace input).head? = some closing then .ok ([], skipWhitespace input)
      else do
        let (first, input) ← item (skipWhitespace input)
        let input := skipWhitespace input
        let input := if input.head? = some ',' then input.tail else input
        let (others, input) ← itemsUntil closing item steps input
        return (first :: others, input)

def parseStringList (input : Text) : Parsing ((List Text) × Text) := do
  let input ← expect "[".toList input
  let (strings, input) ← itemsUntil ']' parseString (input.length + 1) input
  let input ← expect "]".toList input
  return (strings, input)

def parseStringOrList (input : Text) : Parsing (List Text × Text) :=
  let input := skipWhitespace input
  if input.head? = some '"' then (parseString input).map fun (text, input) => ([text], input)
  else if input.head? = some '[' then parseStringList input
  else .error (.failed "Expected string or string list")

def i64Max : Nat := 2 ^ 63 - 1

def parseI64 (digits : Text) : Parsing Int :=
  if digitsValue digits ≤ i64Max then .ok (digitsValue digits)
  else .error (.failed "Invalid number: number too large to fit in target type")

def wrappedI64 (value : Int) : Int := value.bmod (2 ^ 64)

def suffixMultiplier (character : Char) : Option Int :=
  if character = 'K' then some 1024
  else if character = 'M' then some (1024 * 1024)
  else if character = 'G' then some (1024 * 1024 * 1024)
  else none

def parseNumber (input : Text) : Parsing (Int × Text) :=
  let input := skipWhitespace input
  let digits := input.takeWhile Char.isDigit
  let input := input.dropWhile Char.isDigit
  if digits = [] then .error (.failed "Expected number")
  else
    match input.head?.bind suffixMultiplier with
    | some multiplier =>
        (parseI64 digits).map fun base => (wrappedI64 (base * multiplier), input.tail)
    | none => (parseI64 digits).map fun value => (value, input)

section Tests

variable (alphanumeric : Char → Bool)

/-- The optional tags of a test: its comparator and match type. Only the header test
refuses tags it does not know. -/
def testTags (strict : Bool) : Nat → Option Text → Text → Text → Parsing ((Option Text × Text) × Text)
  | 0, _, _, _ => .error .endless
  | steps + 1, comparator, matchType, input =>
      if input.head? ≠ some ':' then .ok ((comparator, matchType), input)
      else do
        let (tag, input) ← parseTag alphanumeric input
        let input := skipWhitespace input
        if tag = ":comparator".toList then
          let (name, input) ← parseString input
          testTags strict steps (some name) matchType (skipWhitespace input)
        else if tag ∈ [":is".toList, ":contains".toList, ":matches".toList] then
          testTags strict steps comparator tag.tail input
        else if strict then
          .error (.failed ("Unknown header test tag: " ++ String.ofList tag))
        else testTags strict steps comparator matchType input

def parseMatchTest (strict : Bool)
    (make : Option Text → Text → List Text → List Text → SieveTest) (input : Text) :
    Parsing (SieveTest × Text) := do
  let input := skipWhitespace input
  let ((comparator, matchType), input) ←
    testTags alphanumeric strict (input.length + 1) none "is".toList input
  let (headers, input) ← parseStringOrList input
  let (keys, input) ← parseStringOrList (skipWhitespace input)
  return (make comparator matchType headers keys, input)

def parseHeaderTest : Text → Parsing (SieveTest × Text) :=
  parseMatchTest alphanumeric true .header

def parseAddressTest : Text → Parsing (SieveTest × Text) :=
  parseMatchTest alphanumeric false .address

def parseEnvelopeTest : Text → Parsing (SieveTest × Text) :=
  parseMatchTest alphanumeric false .envelope

def parseExistsTest (input : Text) : Parsing (SieveTest × Text) := do
  let (headers, input) ← parseStringOrList (skipWhitespace input)
  return (.exists headers, input)

def parseSizeTest (input : Text) : Parsing (SieveTest × Text) := do
  let (tag, input) ← parseTag alphanumeric (skipWhitespace input)
  let above ←
    if tag = ":over".toList then .ok true
    else if tag = ":under".toList then .ok false
    else .error (.failed ("Expected :over or :under, got " ++ String.ofList tag))
  let (limit, input) ← parseNumber (skipWhitespace input)
  return (.size above limit, input)

def parseTestList (test : Text → Parsing (SieveTest × Text)) (make : List SieveTest → SieveTest)
    (input : Text) : Parsing (SieveTest × Text) := do
  let input ← expect "(".toList (skipWhitespace input)
  let (tests, input) ← itemsUntil ')' test (input.length + 1) input
  let input ← expect ")".toList input
  return (make tests, input)

def parseAllofTest (test : Text → Parsing (SieveTest × Text)) : Text → Parsing (SieveTest × Text) :=
  parseTestList test .allOf

def parseAnyofTest (test : Text → Parsing (SieveTest × Text)) : Text → Parsing (SieveTest × Text) :=
  parseTestList test .anyOf

def parseNotTest (test : Text → Parsing (SieveTest × Text)) (input : Text) : Parsing (SieveTest × Text) := do
  let (test, input) ← test (skipWhitespace input)
  return (.not test, input)

def parseTestNamed (test : Text → Parsing (SieveTest × Text)) (word input : Text) :
    Parsing (SieveTest × Text) :=
  if word = "true".toList then .ok (.true, input)
  else if word = "false".toList then .ok (.false, input)
  else if word = "header".toList then parseHeaderTest alphanumeric input
  else if word = "address".toList then parseAddressTest alphanumeric input
  else if word = "envelope".toList then parseEnvelopeTest alphanumeric input
  else if word = "exists".toList then parseExistsTest input
  else if word = "size".toList then parseSizeTest alphanumeric input
  else if word = "allof".toList then parseAllofTest test input
  else if word = "anyof".toList then parseAnyofTest test input
  else if word = "not".toList then parseNotTest test input
  else .error (.failed ("Unknown test: " ++ String.ofList word))

def parseTest : Nat → Text → Parsing (SieveTest × Text)
  | 0, _ => .error .endless
  | steps + 1, input => do
      let (word, input) ← parseWord alphanumeric input
      parseTestNamed alphanumeric (parseTest steps) word input

end Tests

/-! Commands. -/

section Commands

variable (alphanumeric : Char → Bool)

def parseRequire (input : Text) : Parsing (SieveCommand × Text) := do
  let input := skipWhitespace input
  let (extensions, input) ←
    if input.head? = some '"' then (parseString input).map fun (text, input) => ([text], input)
    else if input.head? = some '[' then parseStringList input
    else .error (.failed "Expected string or string list after 'require'")
  let input ← expect ";".toList input
  return (.require extensions, input)

def parseSimple (command : SieveCommand) (input : Text) : Parsing (SieveCommand × Text) := do
  let input ← expect ";".toList input
  return (command, input)

def parseFileinto (input : Text) : Parsing (SieveCommand × Text) := do
  let (mailbox, input) ← parseString (skipWhitespace input)
  let input ← expect ";".toList input
  return (.fileinto mailbox, input)

def parseRedirect (input : Text) : Parsing (SieveCommand × Text) := do
  let (address, input) ← parseString (skipWhitespace input)
  let input ← expect ";".toList input
  return (.redirect address, input)

def parseSet (input : Text) : Parsing (SieveCommand × Text) := do
  let (name, input) ← parseString (skipWhitespace input)
  let (value, input) ← parseString (skipWhitespace input)
  let input ← expect ";".toList input
  return (.set name value, input)

structure VacationTags where
  days : Option Int
  subject : Option Text
  sender : Option Text
  addresses : List Text
  deriving DecidableEq, Repr

def vacationTag (tags : VacationTags) (tag input : Text) : Parsing (VacationTags × Text) :=
  if tag = ":days".toList then
    (parseNumber input).map fun (days, input) => ({ tags with days := some days }, input)
  else if tag = ":subject".toList then
    (parseString input).map fun (subject, input) => ({ tags with subject := some subject }, input)
  else if tag = ":from".toList then
    (parseString input).map fun (sender, input) => ({ tags with sender := some sender }, input)
  else if tag = ":addresses".toList then
    (parseStringList input).map fun (addresses, input) => ({ tags with addresses }, input)
  else .error (.failed ("Unknown vacation tag: " ++ String.ofList tag))

def vacationTags : Nat → VacationTags → Text → Parsing (VacationTags × Text)
  | 0, _, _ => .error .endless
  | steps + 1, tags, input =>
      if input.head? ≠ some ':' then .ok (tags, input)
      else do
        let (tag, input) ← parseTag alphanumeric input
        let (tags, input) ← vacationTag tags tag (skipWhitespace input)
        vacationTags steps tags (skipWhitespace input)

def parseVacation (input : Text) : Parsing (SieveCommand × Text) := do
  let input := skipWhitespace input
  let (tags, input) ← vacationTags alphanumeric (input.length + 1) ⟨none, none, none, []⟩ input
  let (message, input) ← parseString input
  let input ← expect ";".toList input
  return (.vacation tags.days tags.subject tags.sender tags.addresses message, input)

def commandsUntil (command : Text → Parsing (SieveCommand × Text)) : Nat → Text → Parsing ((List SieveCommand) × Text)
  | 0, _ => .error .endless
  | steps + 1, input =>
      if (skipWhitespace input).head? = some '\x7d' then .ok ([], skipWhitespace input)
      else do
        let (first, input) ← command (skipWhitespace input)
        let (others, input) ← commandsUntil command steps input
        return (first :: others, input)

def parseBlock (command : Text → Parsing (SieveCommand × Text)) (input : Text) :
    Parsing ((List SieveCommand) × Text) := do
  let input ← expect "\x7b".toList input
  let (commands, input) ← commandsUntil command (input.length + 1) input
  let input ← expect "\x7d".toList input
  return (commands, input)

def parseBranches (test : Text → Parsing (SieveTest × Text)) (command : Text → Parsing (SieveCommand × Text)) :
    Nat → Text →
      Parsing ((List (SieveTest × List SieveCommand) × Option (List SieveCommand)) × Text)
  | 0, _ => .error .endless
  | steps + 1, input =>
      let input := skipWhitespace input
      if peekWord alphanumeric input = some "elsif".toList then do
        let (_, input) ← parseWord alphanumeric input
        let (elsifTest, input) ← test (skipWhitespace input)
        let (elsifCommands, input) ← parseBlock command (skipWhitespace input)
        let ((branches, elseCommands), input) ← parseBranches test command steps input
        return (((elsifTest, elsifCommands) :: branches, elseCommands), input)
      else if peekWord alphanumeric input = some "else".toList then do
        let (_, input) ← parseWord alphanumeric input
        let (elseCommands, input) ← parseBlock command (skipWhitespace input)
        return (([], some elseCommands), input)
      else .ok (([], none), input)

def parseIf (test : Text → Parsing (SieveTest × Text)) (command : Text → Parsing (SieveCommand × Text))
    (input : Text) : Parsing (SieveCommand × Text) := do
  let (condition, input) ← test (skipWhitespace input)
  let (thenCommands, input) ← parseBlock command (skipWhitespace input)
  let ((branches, elseCommands), input) ←
    parseBranches alphanumeric test command (input.length + 1) input
  return (.if condition thenCommands branches elseCommands, input)

def parseSieveCommandNamed (test : Text → Parsing (SieveTest × Text))
    (command : Text → Parsing (SieveCommand × Text)) (word input : Text) :
    Parsing (SieveCommand × Text) :=
  if word = "require".toList then parseRequire input
  else if word = "if".toList then parseIf alphanumeric test command input
  else if word = "keep".toList then parseSimple .keep input
  else if word = "discard".toList then parseSimple .discard input
  else if word = "stop".toList then parseSimple .stop input
  else if word = "fileinto".toList then parseFileinto input
  else if word = "redirect".toList then parseRedirect input
  else if word = "set".toList then parseSet input
  else if word = "vacation".toList then parseVacation alphanumeric input
  else .error (.failed ("Unknown command: " ++ String.ofList word))

def parseSieveCommand : Nat → Text → Parsing (SieveCommand × Text)
  | 0, _ => .error .endless
  | steps + 1, input => do
      let (word, input) ← parseWord alphanumeric (skipWhitespace input)
      parseSieveCommandNamed alphanumeric (parseTest alphanumeric steps) (parseSieveCommand steps) word input

/-- The loop over the commands of a script. The position counts characters and is compared
with a length in octets, so a text with more octets than characters is never at its end. -/
def parseScript (short : Bool) (depth : Nat) : Nat → SieveScript → Text →
    Parsing SieveScript
  | 0, _, _ => .error .endless
  | steps + 1, script, input =>
      if input = [] ∧ short then .ok script
      else do
        let (command, input) ← parseSieveCommand alphanumeric depth input
        parseScript short depth steps (script.addCommand command) (skipWhitespace input)

def SieveScript.parse (input : Text) : Parsing SieveScript :=
  parseScript alphanumeric (octetLength input = input.length) (input.length + 1)
    (input.length + 1) .empty (skipWhitespace input)

end Commands

/-! The count of steps is never used up: every item takes at least one character. -/

/-- A result that leaves fewer characters than a bound, or a failure of the source. -/
def Below {α : Type} (bound : Nat) : Parsing (α × Text) → Prop
  | .ok (_, rest) => rest.length < bound
  | .error error => error ≠ .endless

namespace Below

variable {α β : Type} {bound middle : Nat}

theorem mono {result : Parsing (α × Text)} (below : Below bound result) (larger : bound ≤ middle) :
    Below middle result := by
  cases result with
  | ok pair => exact Nat.lt_of_lt_of_le below larger
  | error error => exact below

theorem failed (message : String) : Below bound (.error (.failed message) : Parsing (α × Text)) :=
  fun same => ParseError.noConfusion same

theorem bind {first : Parsing (α × Text)} {next : α × Text → Parsing (β × Text)}
    (below : Below middle first)
    (others : ∀ value rest, rest.length < middle → Below bound (next (value, rest))) :
    Below bound (first >>= next) := by
  cases first with
  | ok pair => exact others pair.1 pair.2 below
  | error error => exact below

theorem ite {condition : Prop} [Decidable condition] {yes no : Parsing (α × Text)}
    (first : Below bound yes) (second : Below bound no) :
    Below bound (if condition then yes else no) := by
  by_cases held : condition
  · rwa [if_pos held]
  · rwa [if_neg held]

theorem map {first : Parsing (α × Text)} {change : α × Text → β × Text}
    (below : Below bound first) (keeps : ∀ value rest, (change (value, rest)).2 = rest) :
    Below bound (first.map change) := by
  cases first with
  | ok pair =>
      change (change pair).2.length < bound
      rw [keeps]
      exact below
  | error error => exact below

theorem expect {symbol : Char} {input : Text} {next : Text → Parsing (β × Text)}
    (others : ∀ rest, rest.length < input.length → Below bound (next rest)) :
    Below bound (expect [symbol] input >>= next) := by
  have shorter := skipWhitespace_length input
  rw [Rusmes.expect, expectEach]
  split
  · rename_i starts
    cases shape : skipWhitespace input with
    | nil =>
        rw [shape] at starts
        cases starts
    | cons first rest =>
        rw [shape, List.length_cons] at shorter
        exact others rest shorter
  · exact failed _

end Below

theorem length_dropWhile {accepts : Char → Bool} {input : Text}
    (some : input.takeWhile accepts ≠ []) : (input.dropWhile accepts).length < input.length := by
  have whole := congrArg List.length (@List.takeWhile_append_dropWhile _ accepts input)
  have positive := List.length_pos_of_ne_nil some
  rw [List.length_append] at whole
  omega

section Lexical

variable {alphanumeric : Char → Bool}

theorem parseWord_below (input : Text) : Below input.length (parseWord alphanumeric input) := by
  have shorter := skipWhitespace_length input
  rw [parseWord]
  split
  · exact .failed _
  · rename_i some
    exact Nat.lt_of_lt_of_le (length_dropWhile some) shorter

theorem parseTag_below (input : Text) : Below input.length (parseTag alphanumeric input) := by
  have shorter := skipWhitespace_length input
  rw [parseTag]
  split
  · rename_i rest shape
    rw [shape, List.length_cons] at shorter
    dsimp only
    split
    · exact .failed _
    · rename_i some
      exact Nat.lt_trans (length_dropWhile some) shorter
  · exact .failed _

theorem stringRest_below (escaped : Bool) (input : Text) :
    Below input.length (stringRest escaped input) := by
  induction input generalizing escaped with
  | nil => cases escaped <;> exact .failed _
  | cons character input ih =>
      have longer : input.length ≤ (character :: input).length := Nat.le_succ _
      cases escaped with
      | true => exact .bind (ih false) fun _ rest less => Nat.lt_succ_of_lt less
      | false =>
          rw [stringRest]
          split
          · exact (ih true).mono longer
          · split
            · exact Nat.lt_succ_self _
            · exact .bind (ih false) fun _ rest less => Nat.lt_succ_of_lt less

theorem parseString_below (input : Text) : Below input.length (parseString input) := by
  have shorter := skipWhitespace_length input
  rw [parseString]
  split
  · rename_i rest shape
    rw [shape, List.length_cons] at shorter
    exact (stringRest_below false rest).mono (by omega)
  · exact .failed _

theorem parseNumber_below (input : Text) : Below input.length (parseNumber input) := by
  have shorter := skipWhitespace_length input
  have values : ∀ (digits : Text) {α : Type} (change : Int → α × Text) (bound : Nat),
      (∀ value, (change value).2.length < bound) →
        Below bound ((parseI64 digits).map change) := by
    intro digits α change bound small
    rw [parseI64]
    split
    · exact small _
    · exact .failed _
  rw [parseNumber]
  split
  · exact .failed _
  · rename_i some
    have less := length_dropWhile some
    split
    · refine values _ _ _ fun _ => ?_
      rw [List.length_tail]
      omega
    · refine values _ _ _ fun _ => ?_
      dsimp only
      omega

theorem itemsUntil_below {α : Type} {closing : Char} {item : Text → Parsing (α × Text)}
    {bound : Nat} (items : ∀ input, input.length ≤ bound → Below input.length (item input)) :
    ∀ steps input, input.length < steps → input.length ≤ bound →
      Below (input.length + 1) (itemsUntil closing item steps input) := by
  intro steps
  induction steps with
  | zero => intro input more _; omega
  | succ steps ih =>
      intro input more within
      have shorter := skipWhitespace_length input
      rw [itemsUntil]
      split
      · exact Nat.lt_succ_of_le shorter
      · refine .bind (items _ (by omega)) fun first rest less => ?_
        have after := skipWhitespace_length rest
        have comma : (if (skipWhitespace rest).head? = some ',' then (skipWhitespace rest).tail
            else skipWhitespace rest).length ≤ rest.length := by
          split
          · rw [List.length_tail]
            omega
          · exact after
        exact .bind ((ih _ (by omega) (by omega)).mono (by omega)) fun _ _ small => small

theorem parseStringList_below (input : Text) : Below input.length (parseStringList input) := by
  rw [parseStringList]
  refine .expect fun rest less => ?_
  refine .bind (itemsUntil_below (fun input _ => parseString_below input) _ _ (Nat.lt_succ_self _)
    (Nat.le_refl _)) fun _ inner small => ?_
  exact .expect fun final last => by
    change final.length < input.length
    omega

theorem parseStringOrList_below (input : Text) :
    Below input.length (parseStringOrList input) := by
  have shorter := skipWhitespace_length input
  rw [parseStringOrList]
  split
  · exact .map ((parseString_below _).mono shorter) fun _ _ => rfl
  · split
    · exact (parseStringList_below _).mono shorter
    · exact .failed _

end Lexical

section Tests

variable {alphanumeric : Char → Bool}

theorem testTags_below (strict : Bool) : ∀ steps comparator matchType input, input.length < steps →
    Below (input.length + 1) (testTags alphanumeric strict steps comparator matchType input) := by
  intro steps
  induction steps with
  | zero => intro _ _ input more; omega
  | succ steps ih =>
      intro comparator matchType input more
      rw [testTags]
      split
      · exact Nat.lt_succ_self _
      · refine .bind (parseTag_below input) fun tag rest less => ?_
        have after := skipWhitespace_length rest
        have next : ∀ comparator matchType, Below (input.length + 1)
            (testTags alphanumeric strict steps comparator matchType (skipWhitespace rest)) :=
          fun comparator matchType => (ih _ _ _ (by omega)).mono (by omega)
        refine .ite (.bind (parseString_below _) fun name left small => ?_)
          (.ite (next _ _) (.ite (.failed _) (next _ _)))
        have last := skipWhitespace_length left
        have within : (skipWhitespace left).length < steps := by omega
        exact (ih _ _ _ within).mono (by omega)

theorem parseMatchTest_below (strict : Bool)
    (make : Option Text → Text → List Text → List Text → SieveTest) (input : Text) :
    Below input.length (parseMatchTest alphanumeric strict make input) := by
  have shorter := skipWhitespace_length input
  rw [parseMatchTest]
  refine .bind (testTags_below strict _ _ _ _ (Nat.lt_succ_self _)) fun tags rest less => ?_
  refine .bind (parseStringOrList_below rest) fun names left small => ?_
  have after := skipWhitespace_length left
  refine .bind (parseStringOrList_below _) fun keys final last => ?_
  change final.length < input.length
  omega

theorem parseTestNamed_below {test : Text → Parsing (SieveTest × Text)} {bound : Nat}
    (tests : ∀ input, input.length ≤ bound → Below input.length (test input)) (word : Text)
    {input : Text} (within : input.length ≤ bound) :
    Below (input.length + 1) (parseTestNamed alphanumeric test word input) := by
  have shorter := skipWhitespace_length input
  have matches_ : ∀ strict make, Below (input.length + 1)
      (parseMatchTest alphanumeric strict make input) :=
    fun strict make => (parseMatchTest_below strict make input).mono (Nat.le_succ _)
  have list : ∀ make, Below (input.length + 1) (parseTestList test make input) := by
    intro make
    rw [parseTestList]
    refine .expect fun rest less => ?_
    refine .bind (itemsUntil_below tests _ _ (Nat.lt_succ_self _) (by omega)) fun _ left small => ?_
    refine .expect fun final last => ?_
    change final.length < input.length + 1
    omega
  have exists_ : Below (input.length + 1) (parseExistsTest input) := by
    rw [parseExistsTest]
    refine .bind (parseStringOrList_below _) fun _ rest less => ?_
    change rest.length < input.length + 1
    omega
  have size : Below (input.length + 1) (parseSizeTest alphanumeric input) := by
    rw [parseSizeTest]
    refine .bind (parseTag_below _) fun tag rest less => ?_
    have after := skipWhitespace_length rest
    have number : ∀ above, Below (input.length + 1)
        (parseNumber (skipWhitespace rest) >>= fun (limit, input) =>
          .ok (SieveTest.size above limit, input)) := by
      intro above
      refine .bind (parseNumber_below _) fun limit final last => ?_
      change final.length < input.length + 1
      omega
    exact .ite (number true) (.ite (number false) (.failed _))
  have not_ : Below (input.length + 1) (parseNotTest test input) := by
    rw [parseNotTest]
    refine .bind (tests _ (by omega)) fun _ rest less => ?_
    change rest.length < input.length + 1
    omega
  have bare : ∀ made : SieveTest, Below (input.length + 1) (.ok (made, input)) :=
    fun _ => Nat.lt_succ_self _
  exact .ite (bare _) (.ite (bare _) (.ite (matches_ _ _) (.ite (matches_ _ _)
    (.ite (matches_ _ _) (.ite exists_ (.ite size (.ite (list _) (.ite (list _)
      (.ite not_ (.failed _))))))))))

theorem parseTest_below : ∀ steps input, input.length < steps →
    Below input.length (parseTest alphanumeric steps input) := by
  intro steps
  induction steps with
  | zero => intro input more; omega
  | succ steps ih =>
      intro input more
      rw [parseTest]
      refine .bind (parseWord_below input) fun word rest less => ?_
      exact (parseTestNamed_below (fun input within => ih input (Nat.lt_of_le_of_lt within
        (by omega : rest.length < steps))) word (Nat.le_refl _)).mono less

end Tests

section Commands

variable {alphanumeric : Char → Bool} {test : Text → Parsing (SieveTest × Text)}
  {command : Text → Parsing (SieveCommand × Text)} {bound : Nat}

theorem semicolon_below (made : SieveCommand) {input : Text} {limit : Nat}
    (within : input.length ≤ limit) :
    Below limit (expect ";".toList input >>= fun input => .ok (made, input)) :=
  .expect fun rest less => by
    change rest.length < limit
    omega

theorem parseRequire_below (input : Text) : Below input.length (parseRequire input) := by
  have shorter := skipWhitespace_length input
  have finish : ∀ (extensions : List Text) (rest : Text), rest.length < input.length →
      Below input.length (expect ";".toList rest >>= fun input =>
        .ok (SieveCommand.require extensions, input)) :=
    fun extensions rest less => semicolon_below _ (Nat.le_of_lt less)
  have single : Below input.length ((parseString (skipWhitespace input)).map
      fun (text, input) => ([text], input)) :=
    .map ((parseString_below _).mono shorter) fun _ _ => rfl
  rw [parseRequire]
  exact .ite (.bind single finish)
    (.ite (.bind ((parseStringList_below _).mono shorter) finish) (.failed _))

theorem parseFileinto_below (input : Text) : Below input.length (parseFileinto input) := by
  have shorter := skipWhitespace_length input
  rw [parseFileinto]
  exact .bind (parseString_below _) fun mailbox rest less => semicolon_below _ (by omega)

theorem parseRedirect_below (input : Text) : Below input.length (parseRedirect input) := by
  have shorter := skipWhitespace_length input
  rw [parseRedirect]
  exact .bind (parseString_below _) fun address rest less => semicolon_below _ (by omega)

theorem parseSet_below (input : Text) : Below input.length (parseSet input) := by
  have shorter := skipWhitespace_length input
  rw [parseSet]
  refine .bind (parseString_below _) fun name rest less => ?_
  have after := skipWhitespace_length rest
  exact .bind (parseString_below _) fun value left small => semicolon_below _ (by omega)

theorem vacationTag_below (tags : VacationTags) (tag input : Text) :
    Below input.length (vacationTag tags tag input) := by
  rw [vacationTag]
  exact .ite (.map (parseNumber_below _) fun _ _ => rfl)
    (.ite (.map (parseString_below _) fun _ _ => rfl)
      (.ite (.map (parseString_below _) fun _ _ => rfl)
        (.ite (.map (parseStringList_below _) fun _ _ => rfl) (.failed _))))

theorem vacationTags_below : ∀ steps tags input, input.length < steps →
    Below (input.length + 1) (vacationTags alphanumeric steps tags input) := by
  intro steps
  induction steps with
  | zero => intro _ input more; omega
  | succ steps ih =>
      intro tags input more
      rw [vacationTags]
      refine .ite (Nat.lt_succ_self _) (.bind (parseTag_below input) fun tag rest less => ?_)
      have after := skipWhitespace_length rest
      refine .bind (vacationTag_below tags tag _) fun changed left small => ?_
      have last := skipWhitespace_length left
      have within : (skipWhitespace left).length < steps := by omega
      exact (ih changed _ within).mono (by omega)

theorem parseVacation_below (input : Text) :
    Below input.length (parseVacation alphanumeric input) := by
  have shorter := skipWhitespace_length input
  rw [parseVacation]
  refine .bind (vacationTags_below _ _ _ (Nat.lt_succ_self _)) fun tags rest less => ?_
  exact .bind (parseString_below _) fun message left small => semicolon_below _ (by omega)

theorem commandsUntil_below
    (commands : ∀ input, input.length ≤ bound → Below input.length (command input)) :
    ∀ steps input, input.length < steps → input.length ≤ bound →
      Below (input.length + 1) (commandsUntil command steps input) := by
  intro steps
  induction steps with
  | zero => intro input more _; omega
  | succ steps ih =>
      intro input more within
      have shorter := skipWhitespace_length input
      rw [commandsUntil]
      refine .ite (Nat.lt_succ_of_le shorter) (.bind (commands _ (by omega)) fun first rest less => ?_)
      exact .bind ((ih rest (by omega) (by omega)).mono (by omega)) fun _ _ small => small

theorem parseBlock_below
    (commands : ∀ input, input.length ≤ bound → Below input.length (command input)) {input : Text}
    (within : input.length ≤ bound) : Below input.length (parseBlock command input) := by
  rw [parseBlock]
  refine .expect fun rest less => ?_
  refine .bind (commandsUntil_below commands _ _ (Nat.lt_succ_self _) (by omega))
    fun _ left small => ?_
  refine .expect fun final last => ?_
  change final.length < input.length
  omega

theorem parseBranches_below
    (tests : ∀ input, input.length ≤ bound → Below input.length (test input))
    (commands : ∀ input, input.length ≤ bound → Below input.length (command input)) :
    ∀ steps input, input.length < steps → input.length ≤ bound →
      Below (input.length + 1) (parseBranches alphanumeric test command steps input) := by
  intro steps
  induction steps with
  | zero => intro input more _; omega
  | succ steps ih =>
      intro input more within
      have shorter := skipWhitespace_length input
      rw [parseBranches]
      refine .ite (.bind (parseWord_below _) fun _ rest less => ?_)
        (.ite (.bind (parseWord_below _) fun _ rest less => ?_) (Nat.lt_succ_of_le shorter))
      · have after := skipWhitespace_length rest
        refine .bind (tests _ (by omega)) fun condition left small => ?_
        have later := skipWhitespace_length left
        refine .bind (parseBlock_below commands (by omega)) fun values final last => ?_
        exact .bind ((ih final (by omega) (by omega)).mono (by omega)) fun _ _ smaller => smaller
      · have after := skipWhitespace_length rest
        refine .bind (parseBlock_below commands (by omega)) fun values final last => ?_
        change final.length < input.length + 1
        omega

theorem parseIf_below (tests : ∀ input, input.length ≤ bound → Below input.length (test input))
    (commands : ∀ input, input.length ≤ bound → Below input.length (command input)) {input : Text}
    (within : input.length ≤ bound) :
    Below input.length (parseIf alphanumeric test command input) := by
  have shorter := skipWhitespace_length input
  rw [parseIf]
  refine .bind (tests _ (by omega)) fun condition rest less => ?_
  have after := skipWhitespace_length rest
  refine .bind (parseBlock_below commands (by omega)) fun values left small => ?_
  refine .bind (parseBranches_below tests commands _ _ (Nat.lt_succ_self _) (by omega))
    fun _ final last => ?_
  change final.length < input.length
  omega

theorem parseCommand_below : ∀ steps input, input.length < steps →
    Below input.length (parseSieveCommand alphanumeric steps input) := by
  intro steps
  induction steps with
  | zero => intro input more; omega
  | succ steps ih =>
      intro input more
      have shorter := skipWhitespace_length input
      rw [parseSieveCommand]
      refine .bind (parseWord_below _) fun word rest less => ?_
      have tests : ∀ input : Text, input.length ≤ rest.length →
          Below input.length (parseTest alphanumeric steps input) :=
        fun input within => parseTest_below steps input (by omega)
      have commands : ∀ input : Text, input.length ≤ rest.length →
          Below input.length (parseSieveCommand alphanumeric steps input) :=
        fun input within => ih input (by omega)
      have simple : ∀ made, Below rest.length (parseSimple made rest) :=
        fun made => semicolon_below made (Nat.le_refl _)
      have named : Below rest.length (parseSieveCommandNamed alphanumeric
          (parseTest alphanumeric steps) (parseSieveCommand alphanumeric steps) word rest) :=
        .ite (parseRequire_below _) (.ite (parseIf_below tests commands (Nat.le_refl _))
          (.ite (simple _) (.ite (simple _) (.ite (simple _) (.ite (parseFileinto_below _)
            (.ite (parseRedirect_below _) (.ite (parseSet_below _)
              (.ite (parseVacation_below _) (.failed _)))))))))
      exact named.mono (by omega)

theorem parseScript_not_endless (short : Bool) (depth : Nat) : ∀ steps script input,
    input.length < steps → input.length < depth →
      parseScript alphanumeric short depth steps script input ≠ .error .endless := by
  intro steps
  induction steps with
  | zero => intro _ input more; omega
  | succ steps ih =>
      intro script input more within
      rw [parseScript]
      by_cases finished : input = [] ∧ short
      · rw [if_pos finished]
        exact nofun
      · rw [if_neg finished]
        have read := @parseCommand_below alphanumeric depth input within
        cases parsed : parseSieveCommand alphanumeric depth input with
        | error error =>
            rw [parsed] at read
            intro same
            exact read (Except.error.inj same)
        | ok pair =>
            rw [parsed] at read
            have small : pair.2.length < input.length := read
            have after := skipWhitespace_length pair.2
            exact ih (script.addCommand pair.1) (skipWhitespace pair.2) (by omega) (by omega)

/-- The parser gives a script or an error of the source on every text. -/
theorem parse_not_endless (input : Text) :
    SieveScript.parse alphanumeric input ≠ .error .endless :=
  parseScript_not_endless _ _ _ _ _ (Nat.lt_succ_of_le (skipWhitespace_length input))
    (Nat.lt_succ_of_le (skipWhitespace_length input))

end Commands

end Rusmes
