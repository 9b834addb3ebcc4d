import Rusmes.Library.Words
import Rusmes.Pop3.Command
import Rusmes.Smtp.Grammar

/-!
The lines of RFC 1939, RFC 2449 and RFC 5034, from their first character to their last, beside
the parser, which takes the beginning of a line and words of its own alphabets.
-/

namespace Rusmes.Pop3Parser

open WireText Recognizer

def visible (character : Char) : Bool := '!' ≤ character && character ≤ '~'

def mechanismCharacter (character : Char) : Bool :=
  character.isUpper || character.isDigit || character ∈ ['-', '_']

def base64Character (character : Char) : Bool :=
  isAsciiAlphanumeric character || character ∈ ['+', '/']

def lowerHex (character : Char) : Bool :=
  character.isDigit || ('a' ≤ character && character ≤ 'f')

structure Numeral (digits : Text) (value : UInt32) : Prop where
  run : Run Char.isDigit digits
  fits : digitsValue digits < UInt32.size
  value : UInt32.ofNat (digitsValue digits) = value

structure Password (password : Text) : Prop where
  nonempty : password ≠ []
  unbroken : '\r' ∉ password ∧ '\n' ∉ password

structure Digest (digest : Text) : Prop where
  run : Run lowerHex digest
  length : digest.length = 32

structure Mechanism (mechanism : Text) : Prop where
  run : Run mechanismCharacter mechanism
  length : mechanism.length ≤ 20

inductive InitialResponse : Text → Prop
  | empty : InitialResponse ['=']
  | base64 {body padding : Text} : Run base64Character body →
      padding ∈ [[], ['='], ['=', '=']] → (body ++ padding).length % 4 = 0 →
      InitialResponse (body ++ padding)

def bareCommands : List (String × Pop3Command) :=
  [("STAT", .stat), ("NOOP", .noop), ("RSET", .rset), ("QUIT", .quit), ("CAPA", .capa),
    ("STLS", .stls)]

def listingCommands : List (String × (Option UInt32 → Pop3Command)) :=
  [("LIST", .list), ("UIDL", .uidl)]

def messageCommands : List (String × (UInt32 → Pop3Command)) := [("RETR", .retr), ("DELE", .dele)]

inductive CommandLine : Pop3Command → Text → Prop
  | bare {word : String} {command : Pop3Command} {verb : Text} :
      (word, command) ∈ bareCommands → Spells word verb → CommandLine command verb
  | listing {word : String} {command : Option UInt32 → Pop3Command} {verb : Text} :
      (word, command) ∈ listingCommands → Spells word verb → CommandLine (command none) verb
  | listingOne {word : String} {command : Option UInt32 → Pop3Command} {verb digits : Text}
      {number : UInt32} : (word, command) ∈ listingCommands → Spells word verb →
      Numeral digits number → CommandLine (command (some number)) (verb ++ ' ' :: digits)
  | message {word : String} {command : UInt32 → Pop3Command} {verb digits : Text}
      {number : UInt32} : (word, command) ∈ messageCommands → Spells word verb →
      Numeral digits number → CommandLine (command number) (verb ++ ' ' :: digits)
  | top {verb digits lineDigits : Text} {number lines : UInt32} : Spells "TOP" verb →
      Numeral digits number → Numeral lineDigits lines →
      CommandLine (.top number lines) (verb ++ ' ' :: (digits ++ ' ' :: lineDigits))
  | user {verb name : Text} : Spells "USER" verb → Run visible name →
      CommandLine (.user name) (verb ++ ' ' :: name)
  | pass {verb password : Text} : Spells "PASS" verb → Password password →
      CommandLine (.pass password) (verb ++ ' ' :: password)
  | apop {verb name digest : Text} : Spells "APOP" verb → Run visible name → Digest digest →
      CommandLine (.apop name digest) (verb ++ ' ' :: (name ++ ' ' :: digest))
  | mechanisms {verb : Text} : Spells "AUTH" verb → CommandLine (.auth none none) verb
  | auth {verb mechanism : Text} : Spells "AUTH" verb → Mechanism mechanism →
      CommandLine (.auth (some mechanism) none) (verb ++ ' ' :: mechanism)
  | authWith {verb mechanism response : Text} : Spells "AUTH" verb → Mechanism mechanism →
      InitialResponse response →
      CommandLine (.auth (some mechanism) (some response))
        (verb ++ ' ' :: (mechanism ++ ' ' :: response))

def nameCharacter (alphanumeric : Alphanumeric) (character : Char) : Bool :=
  alphanumeric character || character ∈ ['_', '-', '.', '@']

def hexDigit (character : Char) : Bool :=
  character.isDigit || ('a' ≤ character && character ≤ 'f') ||
    ('A' ≤ character && character ≤ 'F')

def Readable (alphanumeric : Alphanumeric) : Pop3Command → Prop
  | .user name => ∀ character ∈ name, nameCharacter alphanumeric character = true
  | .apop name _ => ∀ character ∈ name, nameCharacter alphanumeric character = true
  | .pass password => password ≠ [] ∧ ∀ character ∈ password, isWhitespace character = false
  | _ => True

structure WholeNumeral (digits more : Text) : Prop where
  run : Run Char.isDigit digits
  stops : ∀ first, more.head? = some first → first.isDigit = false
  fits : digitsValue digits < UInt32.size

inductive Begins (alphanumeric : Alphanumeric) : Text → Prop
  | bare {word : String} {verb : Text} (more : Text) :
      word ∈ ["STAT", "NOOP", "RSET", "QUIT", "CAPA", "STLS", "LIST", "UIDL", "AUTH"] →
      Spells word verb → Begins alphanumeric (verb ++ more)
  | message {word : String} {verb blanks digits more : Text} : word ∈ ["RETR", "DELE"] →
      Spells word verb → Run isSpace blanks → WholeNumeral digits more →
      Begins alphanumeric (verb ++ (blanks ++ (digits ++ more)))
  | top {verb blanks digits gap lines more : Text} : Spells "TOP" verb → Run isSpace blanks →
      WholeNumeral digits gap → Run isSpace gap → WholeNumeral lines more →
      Begins alphanumeric (verb ++ (blanks ++ (digits ++ (gap ++ (lines ++ more)))))
  | user {verb blanks more : Text} {first : Char} : Spells "USER" verb → Run isSpace blanks →
      nameCharacter alphanumeric first = true →
      Begins alphanumeric (verb ++ (blanks ++ first :: more))
  | pass {verb blanks more : Text} {first : Char} : Spells "PASS" verb → Run isSpace blanks →
      isWhitespace first = false → Begins alphanumeric (verb ++ (blanks ++ first :: more))
  | apop {verb blanks name gap more : Text} {first : Char} : Spells "APOP" verb →
      Run isSpace blanks → Run (nameCharacter alphanumeric) name → Run isSpace gap →
      hexDigit first = true →
      Begins alphanumeric (verb ++ (blanks ++ (name ++ (gap ++ first :: more))))

section Recognised

variable {α : Type} {kind : Char → Bool} {input left found : Text}

theorem tagNoCase_iff {word : String} : tagNoCase word.toList input = some (left, found) ↔
    input = found ++ left ∧ Spells word found := by
  constructor
  · exact tagNoCase_eq_some
  · rintro ⟨rfl, spelled⟩
    exact tagNoCase_append spelled left

theorem takeWhile1_iff : takeWhile1 kind input = some (left, found) ↔
    input = found ++ left ∧ Run kind found ∧ ∀ first, left.head? = some first → kind first = false := by
  constructor
  · exact takeWhile1_run
  · rintro ⟨rfl, run, stops⟩
    exact run.taken stops

theorem number_iff {value : UInt32} : number input = some (left, value) ↔
    ∃ digits, input = digits ++ left ∧ WholeNumeral digits left ∧
      UInt32.ofNat (digitsValue digits) = value := by
  simp only [number, Option.bind_eq_bind, Option.bind_eq_some_iff, Prod.exists, takeWhile1_iff]
  constructor
  · rintro ⟨after, digits, ⟨rfl, run, stops⟩, given⟩
    split at given
    · rename_i fits
      rw [Option.some.injEq, Prod.mk.injEq] at given
      obtain ⟨rfl, rfl⟩ := given
      exact ⟨digits, rfl, ⟨run, stops, fits⟩, rfl⟩
    · cases given
  · rintro ⟨digits, rfl, whole, rfl⟩
    exact ⟨left, digits, ⟨rfl, whole.run, whole.stops⟩, if_pos whole.fits⟩

end Recognised

def verbCommands (alphanumeric : Alphanumeric) : List (Text × Recognizer Pop3Command) :=
  [("USER".toList, userCommand alphanumeric), ("PASS".toList, passCommand),
    ("STAT".toList, statCommand), ("LIST".toList, listCommand), ("RETR".toList, retrCommand),
    ("DELE".toList, deleCommand), ("NOOP".toList, noopCommand), ("RSET".toList, rsetCommand),
    ("QUIT".toList, quitCommand), ("TOP".toList, topCommand), ("UIDL".toList, uidlCommand),
    ("APOP".toList, apopCommand alphanumeric), ("CAPA".toList, capaCommand),
    ("STLS".toList, stlsCommand), ("AUTH".toList, authCommand)]

theorem verbCommands_apart (alphanumeric : Alphanumeric) :
    (verbCommands alphanumeric).Pairwise fun first second => apart first.1 second.1 = true := by
  have words : ((verbCommands alphanumeric).map Prod.fst).Pairwise fun first second =>
      apart first second = true := by
    simp only [verbCommands, List.map_cons, List.map_nil]
    decide +kernel
  exact List.pairwise_map.mp words

theorem verbCommands_open (alphanumeric : Alphanumeric) :
    ∀ choice ∈ verbCommands alphanumeric, OpensWith choice.1 choice.2 := by
  simp only [verbCommands, List.forall_mem_cons, List.not_mem_nil, false_implies, implies_true,
    and_true, OpensWith]
  refine ⟨?_, ?_, ?_, ?_, ?_, ?_, ?_, ?_, ?_, ?_, ?_, ?_, ?_, ?_, ?_⟩
  all_goals
    intro input other
    simp only [userCommand, passCommand, statCommand, listCommand, retrCommand, deleCommand,
      noopCommand, rsetCommand, quitCommand, topCommand, uidlCommand, apopCommand, capaCommand,
      stlsCommand, authCommand, bareCommand, withArgument, withOptionalNumber, map, preceded, other,
      Option.bind_eq_bind, Option.bind_none, Option.map_none]

theorem pop3Command_eq_some_iff {alphanumeric : Alphanumeric} {input : Text}
    {result : Text × Pop3Command} : pop3Command alphanumeric input = some result ↔
      ∃ choice ∈ verbCommands alphanumeric, choice.2 input = some result :=
  alt_eq_some_iff (verbCommands_open alphanumeric) (verbCommands_apart alphanumeric)

/-! A line of the grammar is read as what it is. -/

section Reads

variable {α : Type} {alphanumeric : Alphanumeric} {kind : Char → Bool} {verb text digits : Text}

theorem chosen {word : String} {recognizer : Recognizer Pop3Command} {result : Text × Pop3Command}
    (listed : (word.toList, recognizer) ∈ verbCommands alphanumeric)
    (recognised : recognizer text = some result) : pop3Command alphanumeric text = some result :=
  pop3Command_eq_some_iff.mpr ⟨_, listed, recognised⟩

theorem preceded_space {argument : Recognizer α}
    (starts : ∀ first, text.head? = some first → isSpace first = false) :
    preceded space1 argument (' ' :: text) = argument text := by
  have run : Run isSpace [' '] := ⟨List.cons_ne_nil _ _, by simp [isSpace]⟩
  have taken := run.taken starts
  rw [List.singleton_append] at taken
  rw [preceded, space1, taken]
  rfl

theorem run_starts (run : Run kind text) (solid : ∀ character, kind character = true →
    isSpace character = false) (more : Text) :
    ∀ first, (text ++ more).head? = some first → isSpace first = false :=
  fun first head => solid first (run.head_append head)

theorem run_starts_all (run : Run kind text) (solid : ∀ character, kind character = true →
    isSpace character = false) : ∀ first, text.head? = some first → isSpace first = false :=
  fun first head => solid first (run.head head)

theorem isSpace_iff {character : Char} : isSpace character = true ↔ character = ' ' ∨ character = '\t' := by
  rw [isSpace, Bool.or_eq_true, decide_eq_true_eq, decide_eq_true_eq]

theorem solid_kind (space : kind ' ' = false) (tabulator : kind '\t' = false) :
    ∀ character, kind character = true → isSpace character = false := by
  intro character inside
  by_contra blank
  rw [Bool.not_eq_false, isSpace_iff] at blank
  rcases blank with rfl | rfl
  · rw [space] at inside
    cases inside
  · rw [tabulator] at inside
    cases inside

theorem Numeral.reads {value : UInt32} (numeral : Numeral digits value) {more : Text}
    (stops : ∀ first, more.head? = some first → first.isDigit = false) :
    number (digits ++ more) = some (more, value) :=
  number_iff.mpr ⟨digits, rfl, ⟨numeral.run, stops, numeral.fits⟩, numeral.value⟩

theorem Numeral.reads_all {value : UInt32} (numeral : Numeral digits value) :
    number digits = some ([], value) := by
  have reads := @Numeral.reads _ _ numeral [] (by simp)
  rwa [List.append_nil] at reads

theorem Numeral.starts {value : UInt32} (numeral : Numeral digits value) (more : Text) :
    ∀ first, (digits ++ more).head? = some first → isSpace first = false :=
  run_starts numeral.run (solid_kind rfl rfl) more

theorem Numeral.starts_all {value : UInt32} (numeral : Numeral digits value) :
    ∀ first, digits.head? = some first → isSpace first = false :=
  run_starts_all numeral.run (solid_kind rfl rfl)

theorem withArgument_reads {word : String} {argument : Recognizer α} {build : α → Pop3Command}
    {value : α} (spelled : Spells word verb)
    (starts : ∀ first, text.head? = some first → isSpace first = false)
    (taken : argument text = some ([], value)) :
    withArgument word argument build (verb ++ ' ' :: text) = some ([], build value) := by
  rw [withArgument, map, preceded, tagNoCase_append spelled]
  simp only [Option.bind_eq_bind, Option.bind_some, preceded_space starts, taken, Option.map_some]

theorem bare_reads {word : String} {command : Pop3Command} (listed : (word, command) ∈ bareCommands)
    (spelled : Spells word verb) : pop3Command alphanumeric verb = some ([], command) := by
  have reads : bareCommand word command verb = some ([], command) := by
    have opened := tagNoCase_append spelled []
    rw [List.append_nil] at opened
    rw [bareCommand, map, opened]
    rfl
  simp only [bareCommands, List.mem_cons, Prod.mk.injEq, List.not_mem_nil, or_false] at listed
  rcases listed with ⟨rfl, rfl⟩ | ⟨rfl, rfl⟩ | ⟨rfl, rfl⟩ | ⟨rfl, rfl⟩ | ⟨rfl, rfl⟩ | ⟨rfl, rfl⟩
  · exact chosen (List.mem_of_getElem? (i := 2) rfl) reads
  · exact chosen (List.mem_of_getElem? (i := 6) rfl) reads
  · exact chosen (List.mem_of_getElem? (i := 7) rfl) reads
  · exact chosen (List.mem_of_getElem? (i := 8) rfl) reads
  · exact chosen (List.mem_of_getElem? (i := 12) rfl) reads
  · exact chosen (List.mem_of_getElem? (i := 13) rfl) reads

theorem listing_chosen {word : String} {command : Option UInt32 → Pop3Command}
    {result : Text × Pop3Command} (listed : (word, command) ∈ listingCommands)
    (reads : withOptionalNumber word command text = some result) :
    pop3Command alphanumeric text = some result := by
  simp only [listingCommands, List.mem_cons, Prod.mk.injEq, List.not_mem_nil, or_false] at listed
  rcases listed with ⟨rfl, rfl⟩ | ⟨rfl, rfl⟩
  · exact chosen (List.mem_of_getElem? (i := 3) rfl) reads
  · exact chosen (List.mem_of_getElem? (i := 10) rfl) reads

theorem listing_reads {word : String} {command : Option UInt32 → Pop3Command} {tail : Text}
    {number : Option UInt32} (listed : (word, command) ∈ listingCommands)
    (spelled : Spells word verb)
    (taken : opt (preceded space1 messageNumber) tail = some ([], number)) :
    pop3Command alphanumeric (verb ++ tail) = some ([], command number) := by
  apply listing_chosen listed
  rw [withOptionalNumber, map, preceded, tagNoCase_append spelled]
  simp only [Option.bind_eq_bind, Option.bind_some, taken, Option.map_some]

theorem message_reads {word : String} {command : UInt32 → Pop3Command} {number : UInt32}
    (listed : (word, command) ∈ messageCommands) (spelled : Spells word verb)
    (numeral : Numeral digits number) :
    pop3Command alphanumeric (verb ++ ' ' :: digits) = some ([], command number) := by
  have reads : withArgument word messageNumber command (verb ++ ' ' :: digits) =
      some ([], command number) :=
    withArgument_reads spelled numeral.starts_all numeral.reads_all
  simp only [messageCommands, List.mem_cons, Prod.mk.injEq, List.not_mem_nil, or_false] at listed
  rcases listed with ⟨rfl, rfl⟩ | ⟨rfl, rfl⟩
  · exact chosen (List.mem_of_getElem? (i := 4) rfl) reads
  · exact chosen (List.mem_of_getElem? (i := 5) rfl) reads

theorem top_reads {lineDigits : Text} {number lines : UInt32} (spelled : Spells "TOP" verb)
    (numeral : Numeral digits number) (lineNumeral : Numeral lineDigits lines) :
    pop3Command alphanumeric (verb ++ ' ' :: (digits ++ ' ' :: lineDigits)) =
      some ([], .top number lines) := by
  have stops : ∀ first, (' ' :: lineDigits).head? = some first → first.isDigit = false := by
    intro first head
    rw [← Option.some.inj head]
    rfl
  refine chosen (List.mem_of_getElem? (i := 9) rfl) ?_
  simp only [topCommand, tagNoCase_append spelled, Option.bind_eq_bind, Option.bind_some,
    preceded_space (numeral.starts _), preceded_space lineNumeral.starts_all, messageNumber,
    lineCount, numeral.reads stops, lineNumeral.reads_all]

theorem mechanism_taken {mechanism tail : Text} (named : Mechanism mechanism)
    (stops : ∀ first, tail.head? = some first → first = ' ') :
    saslMechanism (mechanism ++ tail) = some (tail, mechanism) := by
  apply takeWhile1_append named.run.1
  · intro character member
    have inside := named.run.2 character member
    simp only [mechanismCharacter, Bool.or_eq_true] at inside
    have letter : character.isUpper = true → character.isAlpha = true := by
      intro upper
      delta Char.isAlpha
      rw [upper, Bool.true_or]
    simp only [isAsciiAlphanumeric, Bool.or_eq_true]
    tauto
  · intro first head
    rw [stops first head]
    rfl

theorem mechanismCharacter_solid : ∀ character, mechanismCharacter character = true →
    isSpace character = false :=
  solid_kind rfl rfl

theorem auth_reads {mechanism tail : Text} {response : Option Text} (spelled : Spells "AUTH" verb)
    (named : Mechanism mechanism) (stops : ∀ first, tail.head? = some first → first = ' ')
    (taken : opt (preceded space1 saslInitialResponse) tail = some ([], response)) :
    pop3Command alphanumeric (verb ++ ' ' :: (mechanism ++ tail)) =
      some ([], .auth (some mechanism) response) := by
  have first : opt (preceded space1 saslMechanism) (' ' :: (mechanism ++ tail)) =
      some (tail, some mechanism) := by
    rw [opt, preceded_space (run_starts named.run mechanismCharacter_solid tail),
      mechanism_taken named stops]
  refine chosen (List.mem_of_getElem? (i := 14) rfl) ?_
  simp only [authCommand, tagNoCase_append spelled, Option.bind_eq_bind, Option.bind_some, first,
    taken]

theorem response_taken {response : Text} (given : InitialResponse response) :
    opt (preceded space1 saslInitialResponse) (' ' :: response) = some ([], some response) := by
  have run : Run (fun character => isAsciiAlphanumeric character ||
      character ∈ ['+', '/', '=', ',']) response := by
    cases given with
    | empty => exact ⟨List.cons_ne_nil _ _, by simp⟩
    | @base64 body padding bodyRun padded size =>
        refine ⟨by simp [bodyRun.1], fun character member => ?_⟩
        rcases List.mem_append.mp member with inside | pad
        · have kind := bodyRun.2 character inside
          simp only [base64Character, Bool.or_eq_true, decide_eq_true_eq, List.mem_cons] at kind ⊢
          tauto
        · have mark : character = '=' := by
            simp only [List.mem_cons, List.not_mem_nil, or_false] at padded
            rcases padded with rfl | rfl | rfl
            · cases pad
            · simpa using pad
            · simpa using pad
          rw [mark]
          rfl
  rw [opt, preceded_space (run_starts_all run (solid_kind rfl rfl)), saslInitialResponse,
    run.taken_all]

theorem digest_taken {text : Text} (given : Digest text) : digest text = some ([], text) := by
  have run : Run hexDigit text := by
    refine ⟨given.run.1, fun character member => ?_⟩
    have inside := given.run.2 character member
    rw [lowerHex] at inside
    rw [hexDigit, inside, Bool.true_or]
  exact run.taken_all

theorem user_reads {name : Text} (spelled : Spells "USER" verb) (named : Run visible name)
    (readable : ∀ character ∈ name, nameCharacter alphanumeric character = true) :
    pop3Command alphanumeric (verb ++ ' ' :: name) = some ([], .user name) := by
  have run : Run (nameCharacter alphanumeric) name := ⟨named.1, readable⟩
  exact chosen (List.mem_of_getElem? (i := 0) rfl)
    (withArgument_reads spelled (run_starts_all named (solid_kind rfl rfl)) run.taken_all)

theorem pass_reads {password : Text} (spelled : Spells "PASS" verb) (nonempty : password ≠ [])
    (readable : ∀ character ∈ password, isWhitespace character = false) :
    pop3Command alphanumeric (verb ++ ' ' :: password) = some ([], .pass password) := by
  have run : Run (fun character => !isWhitespace character) password :=
    ⟨nonempty, fun character member => by simp [readable character member]⟩
  exact chosen (List.mem_of_getElem? (i := 1) rfl)
    (withArgument_reads spelled (run_starts_all run (solid_kind rfl rfl)) run.taken_all)

theorem apop_reads {name text : Text} (blank : alphanumeric ' ' = false) (spelled : Spells "APOP" verb)
    (named : Run visible name)
    (readable : ∀ character ∈ name, nameCharacter alphanumeric character = true)
    (given : Digest text) :
    pop3Command alphanumeric (verb ++ ' ' :: (name ++ ' ' :: text)) = some ([], .apop name text) := by
  have run : Run (nameCharacter alphanumeric) name := ⟨named.1, readable⟩
  have taken : username alphanumeric (name ++ ' ' :: text) = some (' ' :: text, name) := by
    apply run.taken
    intro first head
    rw [← Option.some.inj head, nameCharacter, blank]
    rfl
  refine chosen (List.mem_of_getElem? (i := 11) rfl) ?_
  simp only [apopCommand, tagNoCase_append spelled, Option.bind_eq_bind, Option.bind_some,
    preceded_space (run_starts named (solid_kind rfl rfl) _), taken,
    preceded_space (run_starts_all given.run (solid_kind rfl rfl)), digest_taken given]

theorem CommandLine.reads {command : Pop3Command} (blank : alphanumeric ' ' = false)
    (line : CommandLine command text) (readable : Readable alphanumeric command) :
    pop3Command alphanumeric text = some ([], command) := by
  cases line with
  | bare listed spelled => exact bare_reads listed spelled
  | listing listed spelled =>
      have reads := @listing_reads alphanumeric _ _ _ [] none listed spelled rfl
      rwa [List.append_nil] at reads
  | listingOne listed spelled numeral =>
      apply listing_reads listed spelled
      rw [opt, preceded_space numeral.starts_all, messageNumber, numeral.reads_all]
  | message listed spelled numeral => exact message_reads listed spelled numeral
  | top spelled numeral lineNumeral => exact top_reads spelled numeral lineNumeral
  | user spelled named => exact user_reads spelled named readable
  | pass spelled given => exact pass_reads spelled given.nonempty readable.2
  | apop spelled named given => exact apop_reads blank spelled named readable given
  | mechanisms spelled =>
      have opened := tagNoCase_append spelled []
      rw [List.append_nil] at opened
      refine chosen (List.mem_of_getElem? (i := 14) rfl) ?_
      simp only [authCommand, opened, Option.bind_eq_bind, Option.bind_some]
      rfl
  | @auth verb mechanism spelled named =>
      have reads : pop3Command alphanumeric (verb ++ ' ' :: (mechanism ++ [])) =
          some ([], .auth (some mechanism) none) :=
        auth_reads spelled named (by simp) rfl
      rwa [List.append_nil] at reads
  | authWith spelled named given =>
      exact auth_reads spelled named (by simp) (response_taken given)

end Reads

/-! What the parser takes begins with a command. -/

section Begins

variable {α : Type} {alphanumeric : Alphanumeric} {word : String} {text left : Text}
  {command : Pop3Command} {result : Text × Pop3Command}

def Taken (alphanumeric : Alphanumeric) (text : Text) (command : Pop3Command) : Prop :=
  Begins alphanumeric text ∧ Readable alphanumeric command

theorem withArgument_iff {argument : Recognizer α} {build : α → Pop3Command} :
    withArgument word argument build text = some (left, command) ↔
      ∃ verb blanks after value, text = verb ++ (blanks ++ after) ∧ Spells word verb ∧
        Run isSpace blanks ∧ (∀ first, after.head? = some first → isSpace first = false) ∧
        argument after = some (left, value) ∧ build value = command := by
  simp only [withArgument, map, Option.map_eq_some_iff, preceded_eq_some, Prod.exists,
    tagNoCase_iff, space1, takeWhile1_iff, Prod.mk.injEq]
  constructor
  · rintro ⟨_, value, ⟨_, verb, ⟨rfl, spelled⟩, after, blanks, ⟨rfl, run, stops⟩, taken⟩, rfl, built⟩
    exact ⟨verb, blanks, after, value, rfl, spelled, run, stops, taken, built⟩
  · rintro ⟨verb, blanks, after, value, rfl, spelled, run, stops, taken, built⟩
    exact ⟨left, value, ⟨_, verb, ⟨rfl, spelled⟩, after, blanks, ⟨rfl, run, stops⟩, taken⟩, rfl, built⟩

theorem bare_taken {verb : Text}
    (listed : word ∈ ["STAT", "NOOP", "RSET", "QUIT", "CAPA", "STLS", "LIST", "UIDL", "AUTH"])
    (opened : tagNoCase word.toList text = some (left, verb)) : Begins alphanumeric text := by
  obtain ⟨rfl, spelled⟩ := tagNoCase_iff.mp opened
  exact .bare left listed spelled

theorem bareCommand_taken {given : Pop3Command} (listed : (word, given) ∈ bareCommands)
    (found : bareCommand word given text = some (left, command)) :
    Taken alphanumeric text command := by
  simp only [bareCommand, map, Option.map_eq_some_iff, Prod.exists, Prod.mk.injEq] at found
  obtain ⟨_, verb, opened, rfl, rfl⟩ := found
  simp only [bareCommands, List.mem_cons, Prod.mk.injEq, List.not_mem_nil, or_false] at listed
  rcases listed with ⟨rfl, rfl⟩ | ⟨rfl, rfl⟩ | ⟨rfl, rfl⟩ | ⟨rfl, rfl⟩ | ⟨rfl, rfl⟩ | ⟨rfl, rfl⟩
  all_goals exact ⟨bare_taken (by simp) opened, trivial⟩

theorem listing_taken {build : Option UInt32 → Pop3Command} (listed : (word, build) ∈ listingCommands)
    (found : withOptionalNumber word build text = some (left, command)) :
    Taken alphanumeric text command := by
  simp only [withOptionalNumber, map, Option.map_eq_some_iff, preceded_eq_some, Prod.exists,
    Prod.mk.injEq] at found
  obtain ⟨_, number, ⟨_, verb, opened, -⟩, -, rfl⟩ := found
  simp only [listingCommands, List.mem_cons, Prod.mk.injEq, List.not_mem_nil, or_false] at listed
  rcases listed with ⟨rfl, rfl⟩ | ⟨rfl, rfl⟩
  all_goals exact ⟨bare_taken (by simp) opened, trivial⟩

theorem message_taken {build : UInt32 → Pop3Command} (listed : (word, build) ∈ messageCommands)
    (found : withArgument word messageNumber build text = some (left, command)) :
    Taken alphanumeric text command := by
  obtain ⟨verb, blanks, after, value, rfl, spelled, run, -, taken, rfl⟩ := withArgument_iff.mp found
  obtain ⟨digits, rfl, whole, -⟩ := number_iff.mp taken
  simp only [messageCommands, List.mem_cons, Prod.mk.injEq, List.not_mem_nil, or_false] at listed
  rcases listed with ⟨rfl, rfl⟩ | ⟨rfl, rfl⟩
  all_goals exact ⟨.message (by simp) spelled run whole, trivial⟩

theorem user_taken (found : userCommand alphanumeric text = some (left, command)) :
    Taken alphanumeric text command := by
  obtain ⟨verb, blanks, after, name, rfl, spelled, run, -, taken, rfl⟩ := withArgument_iff.mp found
  obtain ⟨rfl, named, -⟩ := takeWhile1_iff.mp taken
  obtain ⟨first, rest, rfl⟩ := List.exists_cons_of_ne_nil named.1
  exact ⟨.user spelled run (named.2 first List.mem_cons_self), named.2⟩

theorem pass_taken (found : passCommand text = some (left, command)) :
    Taken alphanumeric text command := by
  obtain ⟨verb, blanks, after, secret, rfl, spelled, run, -, taken, rfl⟩ := withArgument_iff.mp found
  obtain ⟨rfl, given, -⟩ := takeWhile1_iff.mp taken
  have solid : ∀ character ∈ secret, isWhitespace character = false := fun character member => by
    simpa using given.2 character member
  obtain ⟨first, rest, rfl⟩ := List.exists_cons_of_ne_nil given.1
  exact ⟨.pass spelled run (solid first List.mem_cons_self), given.1, solid⟩

theorem top_taken (found : topCommand text = some (left, command)) :
    Taken alphanumeric text command := by
  simp only [topCommand, Option.bind_eq_bind, Option.bind_eq_some_iff, preceded_eq_some,
    Prod.exists, tagNoCase_iff, space1, takeWhile1_iff, messageNumber, lineCount, number_iff,
    Option.some.injEq, Prod.mk.injEq] at found
  obtain ⟨_, verb, ⟨rfl, spelled⟩, _, number, ⟨_, blanks, ⟨rfl, run, -⟩, digits, rfl, whole, -⟩,
    _, lines, ⟨_, gap, ⟨rfl, gapRun, -⟩, lineDigits, rfl, lineWhole, -⟩, rfl, rfl⟩ := found
  refine ⟨.top spelled run ⟨whole.run, ?_, whole.fits⟩ gapRun lineWhole, trivial⟩
  intro first head
  apply whole.stops first
  rw [List.head?_append_of_ne_nil _ gapRun.1, head]

theorem apop_taken (found : apopCommand alphanumeric text = some (left, command)) :
    Taken alphanumeric text command := by
  simp only [apopCommand, username, digest, Option.bind_eq_bind, Option.bind_eq_some_iff,
    preceded_eq_some, Prod.exists, tagNoCase_iff, space1, takeWhile1_iff, Option.some.injEq,
    Prod.mk.injEq] at found
  obtain ⟨_, verb, ⟨rfl, spelled⟩, _, name, ⟨_, blanks, ⟨rfl, run, -⟩, rfl, named, -⟩, _, text,
    ⟨_, gap, ⟨rfl, gapRun, -⟩, rfl, given, -⟩, rfl, rfl⟩ := found
  obtain ⟨first, rest, rfl⟩ := List.exists_cons_of_ne_nil given.1
  exact ⟨.apop spelled run named gapRun (given.2 first List.mem_cons_self), named.2⟩

theorem auth_taken (found : authCommand text = some (left, command)) :
    Taken alphanumeric text command := by
  simp only [authCommand, Option.bind_eq_bind, Option.bind_eq_some_iff, Prod.exists,
    Option.some.injEq, Prod.mk.injEq] at found
  obtain ⟨_, verb, opened, _, _, -, _, _, -, -, rfl⟩ := found
  exact ⟨bare_taken (by simp) opened, trivial⟩

theorem pop3Command_taken (found : pop3Command alphanumeric text = some (left, command)) :
    Taken alphanumeric text command := by
  obtain ⟨choice, member, recognised⟩ := pop3Command_eq_some_iff.mp found
  simp only [verbCommands, List.mem_cons, List.not_mem_nil, or_false] at member
  rcases member with rfl | rfl | rfl | rfl | rfl | rfl | rfl | rfl | rfl | rfl | rfl | rfl | rfl |
    rfl | rfl
  · exact user_taken recognised
  · exact pass_taken recognised
  · exact bareCommand_taken (List.mem_of_getElem? (i := 0) rfl) recognised
  · exact listing_taken (List.mem_of_getElem? (i := 0) rfl) recognised
  · exact message_taken (List.mem_of_getElem? (i := 0) rfl) recognised
  · exact message_taken (List.mem_of_getElem? (i := 1) rfl) recognised
  · exact bareCommand_taken (List.mem_of_getElem? (i := 1) rfl) recognised
  · exact bareCommand_taken (List.mem_of_getElem? (i := 2) rfl) recognised
  · exact bareCommand_taken (List.mem_of_getElem? (i := 3) rfl) recognised
  · exact top_taken recognised
  · exact listing_taken (List.mem_of_getElem? (i := 1) rfl) recognised
  · exact apop_taken recognised
  · exact bareCommand_taken (List.mem_of_getElem? (i := 4) rfl) recognised
  · exact bareCommand_taken (List.mem_of_getElem? (i := 5) rfl) recognised
  · exact auth_taken recognised

theorem withArgument_some {argument : Recognizer α} {build : α → Pop3Command} {verb blanks after : Text}
    {value : α} (spelled : Spells word verb) (run : Run isSpace blanks)
    (starts : ∀ first, after.head? = some first → isSpace first = false)
    (taken : argument after = some (left, value)) :
    withArgument word argument build (verb ++ (blanks ++ after)) = some (left, build value) :=
  withArgument_iff.mpr ⟨verb, blanks, after, value, rfl, spelled, run, starts, taken, rfl⟩

theorem bare_accepted {verb : Text}
    (listed : word ∈ ["STAT", "NOOP", "RSET", "QUIT", "CAPA", "STLS", "LIST", "UIDL", "AUTH"])
    (spelled : Spells word verb) (more : Text) :
    ∃ result, pop3Command alphanumeric (verb ++ more) = some result := by
  have bare {given : Pop3Command} : bareCommand word given (verb ++ more) = some (more, given) := by
    rw [bareCommand, map, tagNoCase_append spelled]
    rfl
  have optional {build : Option UInt32 → Pop3Command} :
      ∃ result, withOptionalNumber word build (verb ++ more) = some result := by
    obtain ⟨after, number, taken⟩ := opt_some (preceded space1 messageNumber) more
    refine ⟨(after, build number), ?_⟩
    simp only [withOptionalNumber, map, preceded, tagNoCase_append spelled, Option.bind_eq_bind,
      Option.bind_some]
    rw [taken]
    rfl
  simp only [List.mem_cons, List.not_mem_nil, or_false] at listed
  rcases listed with rfl | rfl | rfl | rfl | rfl | rfl | rfl | rfl | rfl
  · exact ⟨_, chosen (List.mem_of_getElem? (i := 2) rfl) bare⟩
  · exact ⟨_, chosen (List.mem_of_getElem? (i := 6) rfl) bare⟩
  · exact ⟨_, chosen (List.mem_of_getElem? (i := 7) rfl) bare⟩
  · exact ⟨_, chosen (List.mem_of_getElem? (i := 8) rfl) bare⟩
  · exact ⟨_, chosen (List.mem_of_getElem? (i := 12) rfl) bare⟩
  · exact ⟨_, chosen (List.mem_of_getElem? (i := 13) rfl) bare⟩
  · obtain ⟨result, taken⟩ := @optional .list
    exact ⟨result, chosen (List.mem_of_getElem? (i := 3) rfl) taken⟩
  · obtain ⟨result, taken⟩ := @optional .uidl
    exact ⟨result, chosen (List.mem_of_getElem? (i := 10) rfl) taken⟩
  · obtain ⟨after, mechanism, first⟩ := opt_some (preceded space1 saslMechanism) more
    obtain ⟨rest, response, second⟩ := opt_some (preceded space1 saslInitialResponse) after
    refine ⟨(rest, .auth mechanism response), chosen (List.mem_of_getElem? (i := 14) rfl) ?_⟩
    simp only [authCommand, tagNoCase_append spelled, Option.bind_eq_bind, Option.bind_some, first,
      second]

theorem taken_cons {kind : Char → Bool} {first : Char} (inside : kind first = true) (more : Text) :
    ∃ left found, takeWhile1 kind (first :: more) = some (left, found) := by
  have run : Run kind [first] := ⟨List.cons_ne_nil _ _, by simpa using inside⟩
  exact run.taken_some more

theorem starts_cons {kind : Char → Bool} (solid : ∀ character, kind character = true →
    isSpace character = false) {first : Char} (inside : kind first = true) (more : Text) :
    ∀ other, (first :: more).head? = some other → isSpace other = false := by
  intro other head
  rw [← Option.some.inj head]
  exact solid first inside

theorem WholeNumeral.starts {digits more : Text} (whole : WholeNumeral digits more) (rest : Text) :
    ∀ first, (digits ++ rest).head? = some first → isSpace first = false :=
  run_starts whole.run (solid_kind rfl rfl) rest

theorem WholeNumeral.reads {digits more : Text} (whole : WholeNumeral digits more) :
    number (digits ++ more) = some (more, UInt32.ofNat (digitsValue digits)) :=
  number_iff.mpr ⟨digits, rfl, whole, rfl⟩

theorem nameCharacter_solid
    (blank : ∀ character, isSpace character = true → alphanumeric character = false) :
    ∀ character, nameCharacter alphanumeric character = true → isSpace character = false := by
  apply solid_kind
  · rw [nameCharacter, blank ' ' rfl]
    rfl
  · rw [nameCharacter, blank '\t' rfl]
    rfl

theorem top_accepted {verb blanks digits gap lines more : Text} (spelled : Spells "TOP" verb)
    (run : Run isSpace blanks) (whole : WholeNumeral digits gap) (gapRun : Run isSpace gap)
    (lineWhole : WholeNumeral lines more) :
    ∃ result, topCommand (verb ++ (blanks ++ (digits ++ (gap ++ (lines ++ more))))) = some result := by
  have before : WholeNumeral digits (gap ++ (lines ++ more)) := by
    refine ⟨whole.run, fun first head => ?_, whole.fits⟩
    rw [List.head?_append_of_ne_nil _ gapRun.1] at head
    exact whole.stops first head
  have first : preceded space1 messageNumber (blanks ++ (digits ++ (gap ++ (lines ++ more)))) =
      some (gap ++ (lines ++ more), UInt32.ofNat (digitsValue digits)) :=
    preceded_eq_some.mpr ⟨_, run.taken (whole.starts _), before.reads⟩
  have second : preceded space1 lineCount (gap ++ (lines ++ more)) =
      some (more, UInt32.ofNat (digitsValue lines)) :=
    preceded_eq_some.mpr ⟨_, gapRun.taken (lineWhole.starts _), lineWhole.reads⟩
  refine ⟨(more, .top (.ofNat (digitsValue digits)) (.ofNat (digitsValue lines))), ?_⟩
  simp only [topCommand, tagNoCase_append spelled, Option.bind_eq_bind, Option.bind_some, first,
    second]

theorem apop_accepted
    (blank : ∀ character, isSpace character = true → alphanumeric character = false)
    {verb blanks name gap more : Text} {first : Char} (spelled : Spells "APOP" verb)
    (run : Run isSpace blanks) (named : Run (nameCharacter alphanumeric) name)
    (gapRun : Run isSpace gap) (digit : hexDigit first = true) :
    ∃ result, apopCommand alphanumeric (verb ++ (blanks ++ (name ++ (gap ++ first :: more)))) =
      some result := by
  have solid := nameCharacter_solid blank
  have called : username alphanumeric (name ++ (gap ++ first :: more)) =
      some (gap ++ first :: more, name) := by
    apply named.taken
    intro other head
    have space := gapRun.head_append head
    by_contra inside
    rw [solid other (by simpa using inside)] at space
    cases space
  have opening : preceded space1 (username alphanumeric)
      (blanks ++ (name ++ (gap ++ first :: more))) = some (gap ++ first :: more, name) :=
    preceded_eq_some.mpr ⟨_, run.taken (run_starts named solid _), called⟩
  obtain ⟨left, found, taken⟩ := taken_cons digit more
  have closing : preceded space1 digest (gap ++ first :: more) = some (left, found) :=
    preceded_eq_some.mpr
      ⟨_, gapRun.taken (starts_cons (solid_kind rfl rfl) digit more), taken⟩
  refine ⟨(left, .apop name found), ?_⟩
  simp only [apopCommand, tagNoCase_append spelled, Option.bind_eq_bind, Option.bind_some, opening,
    closing]

theorem Begins.accepted
    (blank : ∀ character, isSpace character = true → alphanumeric character = false)
    (begins : Begins alphanumeric text) : ∃ result, pop3Command alphanumeric text = some result := by
  cases begins with
  | bare more listed spelled => exact bare_accepted listed spelled more
  | message listed spelled run whole =>
      simp only [List.mem_cons, List.not_mem_nil, or_false] at listed
      rcases listed with rfl | rfl
      · exact ⟨_, chosen (List.mem_of_getElem? (i := 4) rfl)
          (withArgument_some spelled run (whole.starts _) whole.reads)⟩
      · exact ⟨_, chosen (List.mem_of_getElem? (i := 5) rfl)
          (withArgument_some spelled run (whole.starts _) whole.reads)⟩
  | top spelled run whole gapRun lineWhole =>
      obtain ⟨result, taken⟩ := top_accepted spelled run whole gapRun lineWhole
      exact ⟨result, chosen (List.mem_of_getElem? (i := 9) rfl) taken⟩
  | @user verb blanks more first spelled run inside =>
      obtain ⟨left, found, taken⟩ := taken_cons inside more
      exact ⟨_, chosen (List.mem_of_getElem? (i := 0) rfl)
        (withArgument_some spelled run (starts_cons (nameCharacter_solid blank) inside more) taken)⟩
  | @pass verb blanks more first spelled run solid =>
      have inside : (!isWhitespace first) = true := by simp [solid]
      obtain ⟨left, found, taken⟩ :=
        @taken_cons (fun character => !isWhitespace character) first inside more
      exact ⟨_, chosen (List.mem_of_getElem? (i := 1) rfl)
        (withArgument_some spelled run (@starts_cons (fun character => !isWhitespace character)
          (solid_kind rfl rfl) first inside more) taken)⟩
  | apop spelled run named gapRun digit =>
      obtain ⟨result, taken⟩ := apop_accepted blank spelled run named gapRun digit
      exact ⟨result, chosen (List.mem_of_getElem? (i := 11) rfl) taken⟩

end Begins

theorem parseCommand_ok_iff {alphanumeric : Alphanumeric} {line : Text} {command : Pop3Command} :
    parseCommand alphanumeric line = .ok command ↔
      ∃ left, pop3Command alphanumeric (trim line) = some (left, command) := by
  rw [parseCommand]
  cases pop3Command alphanumeric (trim line) with
  | none => simp
  | some result => simp [Prod.ext_iff]

theorem trim_pass {password : Text} (nonempty : password ≠ [])
    (solid : ∀ character ∈ password, isWhitespace character = false) :
    trim ("PASS ".toList ++ password) = "PASS ".toList ++ password := by
  have ends := trimEnd_word nonempty solid "PASS ".toList []
  rw [List.append_nil, show trimEnd ([] : Text) = [] from rfl, List.append_nil] at ends
  exact ends

/-- A line is read from end to end if it is one of the grammar's whose words the parser can
take, or if no command is at its beginning; a password is, if it has no blank. -/
theorem lines_whole_iff {alphanumeric : Alphanumeric}
    (blank : ∀ character, isSpace character = true → alphanumeric character = false) :
    (∀ line, (∀ command, parseCommand alphanumeric line = .ok command →
          CommandLine command (trim line)) ↔
        (∃ command, CommandLine command (trim line) ∧ Readable alphanumeric command) ∨
          ¬Begins alphanumeric (trim line)) ∧
      ∀ password, parseCommand alphanumeric ("PASS ".toList ++ password) = .ok (.pass password) ↔
        password ≠ [] ∧ ∀ character ∈ password, isWhitespace character = false := by
  refine ⟨fun line => ⟨fun whole => ?_, ?_⟩, fun password => ⟨fun accepted => ?_, ?_⟩⟩
  · by_cases begins : Begins alphanumeric (trim line)
    · obtain ⟨⟨left, command⟩, recognised⟩ := begins.accepted blank
      have taken := pop3Command_taken recognised
      exact Or.inl ⟨command, whole command (parseCommand_ok_iff.mpr ⟨left, recognised⟩), taken.2⟩
    · exact Or.inr begins
  · rintro condition command accepted
    obtain ⟨left, recognised⟩ := parseCommand_ok_iff.mp accepted
    rcases condition with ⟨other, derivation, readable⟩ | nothing
    · have reads := derivation.reads (blank ' ' rfl) readable
      rw [recognised, Option.some.injEq, Prod.mk.injEq] at reads
      rwa [reads.2]
    · exact absurd (pop3Command_taken recognised).1 nothing
  · obtain ⟨left, recognised⟩ := parseCommand_ok_iff.mp accepted
    exact (pop3Command_taken recognised).2
  · rintro ⟨nonempty, solid⟩
    apply parseCommand_ok_iff.mpr
    rw [trim_pass nonempty solid]
    exact ⟨[], pass_reads (Spells.itself "PASS") nonempty solid⟩

theorem ascii_blank : ∀ character, isSpace character = true →
    isAsciiAlphanumeric character = false := by
  intro character space
  rcases isSpace_iff.mp space with rfl | rfl
  · rfl
  · rfl

theorem retr_whole : CommandLine (.retr 7) (trim " retr 7\r\n".toList) := by
  have accepted : parseCommand isAsciiAlphanumeric " retr 7\r\n".toList = .ok (.retr 7) := by
    decide +kernel
  have line : trim " retr 7\r\n".toList = "retr".toList ++ ' ' :: "7".toList := by decide +kernel
  have spelled : Spells "RETR" "retr".toList := decide_eq_true (by decide)
  have derivation : CommandLine (.retr 7) (trim " retr 7\r\n".toList) := by
    rw [line]
    exact .message (List.mem_of_getElem? (i := 0) rfl) spelled
      ⟨⟨by decide, by decide⟩, by decide, rfl⟩
  exact ((lines_whole_iff ascii_blank).1 _).mpr (Or.inl ⟨.retr 7, derivation, trivial⟩) _ accepted

/-- A number that does not fit makes LIST a listing of all, and a password ends at its first
blank. -/
theorem list_number_dropped :
    parseCommand isAsciiAlphanumeric "LIST 4294967296".toList = .ok (.list none) ∧
      ¬CommandLine (.list none) (trim "LIST 4294967296".toList) ∧
      parseCommand isAsciiAlphanumeric "PASS two words".toList = .ok (.pass "two".toList) := by
  refine ⟨by decide +kernel, fun line => ?_, by decide +kernel⟩
  have reads := @CommandLine.reads isAsciiAlphanumeric _ _ rfl line trivial
  have left : pop3Command isAsciiAlphanumeric (trim "LIST 4294967296".toList) =
      some (" 4294967296".toList, .list none) := by
    decide +kernel
  rw [left] at reads
  cases reads

end Rusmes.Pop3Parser
