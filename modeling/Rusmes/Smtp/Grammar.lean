import Rusmes.Smtp.Verbs

/-!
The grammar of a command line, from its first character to its last, beside the parser,
which is content with the beginning of a line.
-/

namespace Rusmes

open WireText Recognizer

def Run (kind : Char → Bool) (text : Text) : Prop :=
  text ≠ [] ∧ ∀ character ∈ text, kind character = true

def Spells (word : String) (text : Text) : Prop :=
  eqIgnoreAsciiCase text word.toList = true

def Argument (text : Text) : Prop :=
  text ≠ [] ∧ ∀ first, text.head? = some first → isSpace first = false

def keywordCharacter (character : Char) : Bool := character.isAlphanum || character = '-'

def valueCharacter (character : Char) : Bool :=
  character.isAlphanum || character = '-' || character = '.'

inductive ParameterText : MailParam → Text → Prop
  | flag {keyword : Text} : Run keywordCharacter keyword → ParameterText ⟨keyword, none⟩ keyword
  | valued {keyword value : Text} : Run keywordCharacter keyword → Run valueCharacter value →
      ParameterText ⟨keyword, some value⟩ (keyword ++ '=' :: value)

inductive ParameterList : List MailParam → Text → Prop
  | last {param : MailParam} {text : Text} : ParameterText param text →
      ParameterList [param] text
  | more {param : MailParam} {text blanks others : Text} {params : List MailParam} :
      ParameterText param text → Run isWhitespace blanks → ParameterList params others →
      ParameterList (param :: params) (text ++ (blanks ++ others))

inductive ParameterTail : List MailParam → Text → Prop
  | absent : ParameterTail [] []
  | present {params : List MailParam} {blanks text : Text} : Run isSpace blanks →
      ParameterList params text → ParameterTail params (blanks ++ text)

def greetings : List (String × (Text → SmtpCommand)) := [("HELO", .helo), ("EHLO", .ehlo)]

def pathCommands : List (String × (MailAddress → List MailParam → SmtpCommand)) :=
  [("MAIL FROM:", .mail), ("RCPT TO:", .rcpt)]

def bareCommands : List (String × SmtpCommand) :=
  [("DATA", .data), ("RSET", .rset), ("NOOP", .noop), ("QUIT", .quit), ("HELP", .help none),
    ("STARTTLS", .startTls)]

def argumentCommands : List (String × (Text → SmtpCommand)) :=
  [("VRFY", .vrfy), ("EXPN", .expn), ("HELP", fun topic => .help (some topic))]

inductive CommandLine (smtputf8 : Bool) : SmtpCommand → Text → Prop
  | greeting {word : String} {command : Text → SmtpCommand} {verb blanks name : Text} :
      (word, command) ∈ greetings → Spells word verb → Run isSpace blanks →
      Run domainCharacter name → CommandLine smtputf8 (command name) (verb ++ (blanks ++ name))
  | path {word : String} {command : MailAddress → List MailParam → SmtpCommand}
      {verb blanks address tail : Text} {mailbox : MailAddress} {params : List MailParam} :
      (word, command) ∈ pathCommands → Spells word verb →
      (∀ character ∈ blanks, isSpace character = true) →
      Run (mailboxCharacter smtputf8) address → mailboxAddress smtputf8 address = .ok mailbox →
      ParameterTail params tail →
      CommandLine smtputf8 (command mailbox params)
        (verb ++ (blanks ++ '<' :: (address ++ '>' :: tail)))
  | bare {word : String} {command : SmtpCommand} {verb : Text} :
      (word, command) ∈ bareCommands → Spells word verb → CommandLine smtputf8 command verb
  | argument {word : String} {command : Text → SmtpCommand} {verb blanks text : Text} :
      (word, command) ∈ argumentCommands → Spells word verb → Run isSpace blanks →
      Argument text → CommandLine smtputf8 (command text) (verb ++ (blanks ++ text))
  | bdat {verb blanks digits : Text} {size : Nat} : Spells "BDAT" verb → Run isSpace blanks →
      Run Char.isDigit digits → parseUsize digits = some size →
      CommandLine smtputf8 (.bdat size false) (verb ++ (blanks ++ digits))
  | bdatLast {verb blanks digits gap last : Text} {size : Nat} : Spells "BDAT" verb →
      Run isSpace blanks → Run Char.isDigit digits → parseUsize digits = some size →
      Run isSpace gap → Spells "LAST" last →
      CommandLine smtputf8 (.bdat size true) (verb ++ (blanks ++ (digits ++ (gap ++ last))))
  | auth {verb blanks mechanism : Text} : Spells "AUTH" verb → Run isSpace blanks →
      Run keywordCharacter mechanism →
      CommandLine smtputf8 (.auth mechanism none) (verb ++ (blanks ++ mechanism))
  | authWith {verb blanks mechanism gap response : Text} : Spells "AUTH" verb →
      Run isSpace blanks → Run keywordCharacter mechanism → Run isSpace gap → Argument response →
      CommandLine smtputf8 (.auth mechanism (some response))
        (verb ++ (blanks ++ (mechanism ++ (gap ++ response))))

/-! Characters of words and blanks. -/

theorem domainCharacter_solid_code : ∀ code < 128, domainCharacter (Char.ofNat code) = true →
    isWhitespace (Char.ofNat code) = false ∧ isSpace (Char.ofNat code) = false ∧
      Char.ofNat code ≠ '=' := by
  decide +kernel

theorem domainCharacter_solid {character : Char} (ok : domainCharacter character = true) :
    isWhitespace character = false ∧ isSpace character = false ∧ character ≠ '=' := by
  have facts := domainCharacter_solid_code character.toNat (domainCharacter_ascii ok)
  rw [Char.ofNat_toNat] at facts
  exact facts ok

theorem keywordCharacter_domain {character : Char} (ok : keywordCharacter character = true) :
    domainCharacter character = true := by
  simp only [keywordCharacter, Bool.or_eq_true] at ok
  simp only [domainCharacter, Bool.or_eq_true]
  tauto

theorem valueCharacter_domain (character : Char) :
    valueCharacter character = domainCharacter character := by
  rw [valueCharacter, domainCharacter, Bool.or_right_comm]

theorem isWhitespace_not_domain {character : Char} (white : isWhitespace character = true) :
    domainCharacter character = false := by
  by_contra word
  rw [(domainCharacter_solid (Bool.not_eq_false _ ▸ word)).1] at white
  cases white

theorem not_keyword_of_not_domain {character : Char} (other : domainCharacter character = false) :
    keywordCharacter character = false := by
  by_contra word
  rw [keywordCharacter_domain (Bool.not_eq_false _ ▸ word)] at other
  cases other

theorem isDigit_keyword {character : Char} (digit : character.isDigit = true) :
    keywordCharacter character = true := by
  simp [keywordCharacter, Char.isAlphanum, digit]

theorem not_digit_of_not_keyword {character : Char} (other : keywordCharacter character = false) :
    character.isDigit = false := by
  by_contra digit
  rw [isDigit_keyword (Bool.not_eq_false _ ▸ digit)] at other
  cases other

theorem isDigit_solid {character : Char} (digit : character.isDigit = true) :
    isWhitespace character = false :=
  (domainCharacter_solid (keywordCharacter_domain (isDigit_keyword digit))).1

theorem toLower_of_outside {character : Char}
    (outside : character.toNat < 65 ∨ 90 < character.toNat) : character.toLower = character := by
  delta Char.toLower
  rw [dif_neg]
  rintro ⟨low, high⟩
  have code : character.toNat = character.val.toNat := rfl
  have least : 65 ≤ character.val.toNat := UInt32.le_iff_toNat_le.mp low
  have greatest : character.val.toNat ≤ 90 := UInt32.le_iff_toNat_le.mp high
  omega

theorem isDigit_toLower {character : Char} (digit : character.isDigit = true) :
    character.toLower = character := by
  apply toLower_of_outside
  have small : character.toNat ≤ 57 := (Char.isDigit_iff_toNat.mp digit).2
  omega

theorem isWhitespace_toLower {character : Char} (white : isWhitespace character = true) :
    character.toLower = character := by
  apply toLower_of_outside
  simp only [isWhitespace, Bool.or_eq_true, Bool.and_eq_true, decide_eq_true_eq] at white
  omega

theorem isSpace_whitespace {character : Char} (space : isSpace character = true) :
    isWhitespace character = true := by
  rw [isSpace, Bool.or_eq_true, decide_eq_true_eq, decide_eq_true_eq] at space
  rcases space with rfl | rfl <;> rfl

theorem isSpace_not_keyword {character : Char} (space : isSpace character = true) :
    keywordCharacter character = false :=
  not_keyword_of_not_domain (isWhitespace_not_domain (isSpace_whitespace space))

theorem solid_not_space {character : Char} (solid : isWhitespace character = false) :
    isSpace character = false := by
  by_contra space
  rw [isSpace_whitespace (Bool.not_eq_false _ ▸ space)] at solid
  cases solid

theorem Spells.itself (word : String) : Spells word word.toList :=
  decide_eq_true rfl

theorem Spells.length {word : String} {text : Text} (spelled : Spells word text) :
    text.length = word.toList.length := by
  have lengths := congrArg List.length (of_decide_eq_true spelled)
  simpa using lengths

theorem Spells.free {word : String} {text : Text} (spelled : Spells word text)
    {kind : Char → Bool}
    (caseless : ∀ character, kind character = true → character.toLower = character)
    (letters : ∀ letter ∈ word.toList.map Char.toLower, kind letter = false) :
    ∀ character ∈ text, kind character = false := by
  intro character member
  have same : text.map Char.toLower = word.toList.map Char.toLower := of_decide_eq_true spelled
  have lower := letters character.toLower (same ▸ List.mem_map_of_mem member)
  by_contra inside
  rw [Bool.not_eq_false] at inside
  rw [caseless character inside, inside] at lower
  cases lower

theorem Spells.solid {word : String} {text : Text} (spelled : Spells word text)
    (letters : ∀ letter ∈ word.toList.map Char.toLower, isWhitespace letter = false) :
    ∀ character ∈ text, isWhitespace character = false :=
  spelled.free (fun _ => isWhitespace_toLower) letters

section Runs

variable {kind : Char → Bool} {text : Text}

theorem Run.head (run : Run kind text) {first : Char} (head : text.head? = some first) :
    kind first = true :=
  run.2 first (List.mem_of_mem_head? head)

theorem Run.head_append (run : Run kind text) {more : Text} {first : Char}
    (head : (text ++ more).head? = some first) : kind first = true := by
  rw [List.head?_append_of_ne_nil _ run.1] at head
  exact run.head head

theorem Run.taken (run : Run kind text) {more : Text}
    (stops : ∀ first, more.head? = some first → kind first = false) :
    takeWhile1 kind (text ++ more) = some (more, text) :=
  takeWhile1_append run.1 run.2 stops

theorem Run.taken_all (run : Run kind text) : takeWhile1 kind text = some ([], text) := by
  have taken : takeWhile1 kind (text ++ []) = some ([], text) := run.taken (by simp)
  rwa [List.append_nil] at taken

theorem Run.taken_some (run : Run kind text) (more : Text) :
    ∃ left found, takeWhile1 kind (text ++ more) = some (left, found) := by
  have nonempty : (text ++ more).takeWhile kind ≠ [] := by
    rw [List.takeWhile_append_of_pos run.2]
    simp [run.1]
  exact ⟨_, _, if_neg nonempty⟩

end Runs

theorem Run.spaced {kind : Char → Bool} {blanks text : Text} (run : Run isSpace blanks)
    (more : Text) (next : Run kind text) (solid : ∀ character, kind character = true → isSpace character = false) :
    space1 (blanks ++ (text ++ more)) = some (text ++ more, blanks) :=
  run.taken fun first head => solid first (next.head_append head)

theorem Argument.spaced {blanks text : Text} (argument : Argument text) (more : Text)
    (run : Run isSpace blanks) : space1 (blanks ++ (text ++ more)) = some (text ++ more, blanks) := by
  apply run.taken
  intro first head
  rw [List.head?_append_of_ne_nil _ argument.1] at head
  exact argument.2 first head

theorem ParameterText.head {param : MailParam} {text : Text} (written : ParameterText param text)
    (more : Text) : ∀ first, (text ++ more).head? = some first → keywordCharacter first = true := by
  intro first head
  cases written with
  | flag keyword => exact keyword.head_append head
  | valued keyword value =>
      rw [List.append_assoc] at head
      exact keyword.head_append head

theorem mailParameter_whole {param : MailParam} {text : Text} (written : ParameterText param text)
    {more : Text} (stops : ∀ first, more.head? = some first → isWhitespace first = true) :
    mailParameter (text ++ more) = some (more, param) := by
  have noKeyword : ∀ first, more.head? = some first → domainCharacter first = false := by
    intro first head
    exact isWhitespace_not_domain (stops first head)
  have stopsKeyword : ∀ first, more.head? = some first → keywordCharacter first = false := by
    intro first head
    exact not_keyword_of_not_domain (noKeyword first head)
  cases written with
  | flag keyword =>
      have taken : takeWhile1 (fun character => character.isAlphanum || character = '-')
          (text ++ more) = some (more, text) := keyword.taken stopsKeyword
      have unsigned : Recognizer.char '=' more = none := by
        cases more with
        | nil => rfl
        | cons first rest =>
            have blank := stops first rfl
            have different : first ≠ '=' := by
              rintro rfl
              cases blank
            rw [Recognizer.char, if_neg different]
      simp [mailParameter, taken, opt, preceded, unsigned]
  | @valued text given keyword value =>
      have taken : takeWhile1 (fun character => character.isAlphanum || character = '-')
          (text ++ '=' :: (given ++ more)) = some ('=' :: (given ++ more), text) := by
        apply keyword.taken
        intro first head
        obtain rfl := Option.some.inj head
        rfl
      have read : parameterValue (given ++ more) = some (more, given) := by
        apply value.taken
        intro first head
        rw [← noKeyword first head]
        exact valueCharacter_domain first
      simp [mailParameter, taken, opt, preceded, Recognizer.char, read]

theorem ParameterList.head {params : List MailParam} {text : Text}
    (written : ParameterList params text) :
    text ≠ [] ∧ ∀ first, text.head? = some first → keywordCharacter first = true := by
  have nonempty {param : MailParam} {text : Text} (written : ParameterText param text) :
      text ≠ [] := by
    cases written with
    | flag keyword => exact keyword.1
    | valued keyword value => simp
  cases written with
  | last param =>
      have head := param.head []
      rw [List.append_nil] at head
      exact ⟨nonempty param, head⟩
  | more param blanks others => exact ⟨by simp [nonempty param], param.head _⟩

theorem mailParameters_whole {params : List MailParam} {text : Text}
    (written : ParameterList params text) : mailParameters text = some ([], params) := by
  rw [mailParameters, Option.some.injEq]
  induction written with
  | @last param text written =>
      have read : mailParameter (text ++ []) = some ([], param) :=
        mailParameter_whole written (by simp)
      rw [List.append_nil] at read
      obtain ⟨fuel, size⟩ := Nat.exists_eq_succ_of_ne_zero
        (List.length_pos_iff.mpr (ParameterList.last written).head.1).ne'
      rw [size, Nat.succ_eq_add_one, mailParametersLoop, read]
      rfl
  | @more param text blanks others params written run rest ih =>
      obtain ⟨nonempty, solid⟩ := rest.head
      have read : mailParameter (text ++ (blanks ++ others)) = some (blanks ++ others, param) :=
        mailParameter_whole written fun first head => run.head_append head
      have trimmed : trimStart (blanks ++ others) = others := by
        rw [trimStart_append run.2]
        cases others with
        | nil => rfl
        | cons first tail =>
            have word := keywordCharacter_domain (solid first rfl)
            rw [trimStart, List.dropWhile_cons, (domainCharacter_solid word).1]
            rfl
      have size : (text ++ (blanks ++ others)).length =
          (text.length + blanks.length + others.length - 1) + 1 := by
        have blank := List.length_pos_iff.mpr run.1
        simp only [List.length_append]
        omega
      have enough : others.length ≤ text.length + blanks.length + others.length - 1 := by
        have blank := List.length_pos_iff.mpr run.1
        omega
      rw [size, mailParametersLoop, read]
      dsimp only
      rw [trimmed, if_neg nonempty, mailParametersLoop_enough enough, ih]

theorem parameterTail_whole {params : List MailParam} {text : Text}
    (written : ParameterTail params text) :
    ∃ found, opt (preceded space1 mailParameters) text = some ([], found) ∧
      found.getD [] = params := by
  cases written with
  | absent => exact ⟨none, rfl, rfl⟩
  | @present params blanks text run listed =>
      have spaced : space1 (blanks ++ text) = some (text, blanks) := by
        apply run.taken
        intro first head
        exact (domainCharacter_solid (keywordCharacter_domain (listed.head.2 first head))).2.1
      refine ⟨some params, ?_, rfl⟩
      simp [opt, preceded, spaced, mailParameters_whole listed]

/-! Commands are read whole, and the beginning of one is enough for the parser. -/

theorem opt_some {α : Type} (recognizer : Recognizer α) (input : Text) :
    ∃ left found, opt recognizer input = some (left, found) := by
  cases recognised : recognizer input with
  | none => exact ⟨input, none, by rw [opt, recognised]⟩
  | some result => exact ⟨result.1, some result.2, by rw [opt, recognised]⟩

section ReadsAs

variable {smtputf8 : Bool} {word : String} {verb blanks more : Text}

/-- The parser takes what is written and something after it, and what is written for the
command it is where nothing follows. -/
def ReadsAs (smtputf8 : Bool) (command : SmtpCommand) (written more : Text) : Prop :=
  ∃ result, smtpCommand smtputf8 (written ++ more) = some result ∧
    (more = [] → result = ([], command))

theorem smtpCommand_choice {recognizer : Recognizer SmtpCommand} {input : Text}
    {result : Text × SmtpCommand} (listed : (word.toList, recognizer) ∈ verbCommands smtputf8)
    (recognised : recognizer input = some result) : smtpCommand smtputf8 input = some result :=
  smtpCommand_eq_some_iff.mpr ⟨_, listed, recognised⟩

theorem greeting_reads {command : Text → SmtpCommand} {name : Text}
    (listed : (word, command) ∈ greetings) (spelled : Spells word verb) (run : Run isSpace blanks)
    (named : Run domainCharacter name) :
    ReadsAs smtputf8 (command name) (verb ++ (blanks ++ name)) more := by
  obtain ⟨left, found, taken⟩ := named.taken_some more
  have spaced := run.spaced more named fun _ ok => (domainCharacter_solid ok).2.1
  have reads : map (preceded (tagNoCase word.toList) (preceded space1 domain)) command
      (verb ++ (blanks ++ name) ++ more) = some (left, command found) := by
    simp [map, preceded, tagNoCase_append spelled, spaced, domain, taken]
  refine ⟨(left, command found), ?_, ?_⟩
  · simp only [greetings, List.mem_cons, Prod.mk.injEq, List.not_mem_nil, or_false] at listed
    rcases listed with ⟨rfl, rfl⟩ | ⟨rfl, rfl⟩
    · exact smtpCommand_choice (List.mem_of_getElem? (i := 0) rfl) reads
    · exact smtpCommand_choice (List.mem_of_getElem? (i := 1) rfl) reads
  · rintro rfl
    rw [List.append_nil, named.taken_all] at taken
    cases taken
    rfl

theorem bare_reads {command : SmtpCommand} (listed : (word, command) ∈ bareCommands)
    (spelled : Spells word verb) : ReadsAs smtputf8 command verb more := by
  have reads : map (tagNoCase word.toList) (fun _ => command) (verb ++ more) =
      some (more, command) := by
    simp [map, tagNoCase_append spelled]
  have plain {command : SmtpCommand}
      (taken : smtpCommand smtputf8 (verb ++ more) = some (more, command)) :
      ReadsAs smtputf8 command verb more :=
    ⟨(more, command), taken, fun empty => by rw [empty]⟩
  simp only [bareCommands, List.mem_cons, Prod.mk.injEq, List.not_mem_nil, or_false] at listed
  rcases listed with ⟨rfl, rfl⟩ | ⟨rfl, rfl⟩ | ⟨rfl, rfl⟩ | ⟨rfl, rfl⟩ | ⟨rfl, rfl⟩ | ⟨rfl, rfl⟩
  · exact plain (smtpCommand_choice (List.mem_of_getElem? (i := 4) rfl) reads)
  · exact plain (smtpCommand_choice (List.mem_of_getElem? (i := 6) rfl) reads)
  · exact plain (smtpCommand_choice (List.mem_of_getElem? (i := 7) rfl) reads)
  · exact plain (smtpCommand_choice (List.mem_of_getElem? (i := 8) rfl) reads)
  · obtain ⟨left, found, taken⟩ := opt_some (preceded space1 rest) more
    have help : helpCommand (verb ++ more) = some (left, .help found) := by
      simp only [helpCommand, map, preceded, tagNoCase_append spelled, taken, Option.bind_eq_bind,
        Option.bind_some, Option.map_some]
    refine ⟨(left, .help found), smtpCommand_choice (List.mem_of_getElem? (i := 11) rfl) help, ?_⟩
    rintro rfl
    cases taken
    rfl
  · exact plain (smtpCommand_choice (List.mem_of_getElem? (i := 12) rfl) reads)

theorem argument_reads {command : Text → SmtpCommand} {text : Text}
    (listed : (word, command) ∈ argumentCommands) (spelled : Spells word verb)
    (run : Run isSpace blanks) (argument : Argument text) :
    ReadsAs smtputf8 (command text) (verb ++ (blanks ++ text)) more := by
  have spaced := argument.spaced more run
  have reads : map (preceded (tagNoCase word.toList) (preceded space1 rest)) command
      (verb ++ (blanks ++ text) ++ more) = some ([], command (text ++ more)) := by
    simp [map, preceded, tagNoCase_append spelled, spaced, rest]
  refine ⟨([], command (text ++ more)), ?_, fun empty => by rw [empty, List.append_nil]⟩
  simp only [argumentCommands, List.mem_cons, Prod.mk.injEq, List.not_mem_nil, or_false] at listed
  rcases listed with ⟨rfl, rfl⟩ | ⟨rfl, rfl⟩ | ⟨rfl, rfl⟩
  · exact smtpCommand_choice (List.mem_of_getElem? (i := 9) rfl) reads
  · exact smtpCommand_choice (List.mem_of_getElem? (i := 10) rfl) reads
  · have help : helpCommand (verb ++ (blanks ++ text) ++ more) =
        some ([], .help (some (text ++ more))) := by
      simp only [helpCommand, map, preceded, opt, List.append_assoc, tagNoCase_append spelled,
        spaced, rest, Option.bind_eq_bind, Option.bind_some, Option.map_some]
    exact smtpCommand_choice (List.mem_of_getElem? (i := 11) rfl) help

theorem path_reads {command : MailAddress → List MailParam → SmtpCommand} {address tail : Text}
    {mailbox : MailAddress} {params : List MailParam} (listed : (word, command) ∈ pathCommands)
    (spelled : Spells word verb) (spaces : ∀ character ∈ blanks, isSpace character = true)
    (run : Run (mailboxCharacter smtputf8) address)
    (made : mailboxAddress smtputf8 address = .ok mailbox) (written : ParameterTail params tail) :
    ReadsAs smtputf8 (command mailbox params)
      (verb ++ (blanks ++ '<' :: (address ++ '>' :: tail))) more := by
  have spaced : space0 (blanks ++ '<' :: (address ++ '>' :: (tail ++ more))) =
      some ('<' :: (address ++ '>' :: (tail ++ more)), blanks) := by
    rw [space0, List.dropWhile_append_of_pos spaces, List.takeWhile_append_of_pos spaces,
      List.dropWhile_cons, List.takeWhile_cons]
    simp [isSpace]
  have closed : mailboxCharacter smtputf8 '>' = false := by
    cases smtputf8 <;> rfl
  have path : delimited '<' '>' (Rusmes.mailbox smtputf8)
      ('<' :: (address ++ '>' :: (tail ++ more))) = some (tail ++ more, mailbox) := by
    refine delimited_eq_some.mpr ⟨_, rfl, mailbox_eq_some.mpr ⟨address, ?_, made⟩⟩
    apply run.taken
    intro first head
    rwa [← Option.some.inj head]
  obtain ⟨left, found, taken⟩ := opt_some (preceded space1 mailParameters) (tail ++ more)
  have reads : smtpCommand smtputf8 (verb ++ (blanks ++ '<' :: (address ++ '>' :: tail)) ++ more) =
      some (left, command mailbox (found.getD [])) := by
    simp only [pathCommands, List.mem_cons, Prod.mk.injEq, List.not_mem_nil, or_false] at listed
    rcases listed with ⟨rfl, rfl⟩ | ⟨rfl, rfl⟩
    · apply smtpCommand_choice (List.mem_of_getElem? (i := 2) rfl)
      simp only [mailCommand, reversePath, List.append_assoc, List.cons_append,
        tagNoCase_append spelled, spaced, path, taken, Option.bind_eq_bind, Option.bind_some]
    · apply smtpCommand_choice (List.mem_of_getElem? (i := 3) rfl)
      simp only [rcptCommand, forwardPath, List.append_assoc, List.cons_append,
        tagNoCase_append spelled, spaced, path, taken, Option.bind_eq_bind, Option.bind_some]
  refine ⟨_, reads, ?_⟩
  rintro rfl
  obtain ⟨given, whole, rfl⟩ := parameterTail_whole written
  rw [List.append_nil, whole] at taken
  cases taken
  rfl

theorem auth_reads {mechanism tail : Text} {response : Option Text}
    (spelled : Spells "AUTH" verb) (run : Run isSpace blanks) (named : Run keywordCharacter mechanism)
    (stops : ∀ first, tail.head? = some first → keywordCharacter first = false)
    (rests : opt (preceded space1 rest) tail = some ([], response)) :
    ReadsAs smtputf8 (.auth mechanism response) (verb ++ (blanks ++ (mechanism ++ tail))) more := by
  obtain ⟨left, found, taken⟩ := named.taken_some (tail ++ more)
  have split : takeWhile1 (fun character => character.isAlphanum || character = '-')
      (mechanism ++ (tail ++ more)) = some (left, found) := taken
  have spaced := run.spaced (tail ++ more) named fun _ ok =>
    (domainCharacter_solid (keywordCharacter_domain ok)).2.1
  obtain ⟨after, answer, ended⟩ := opt_some (preceded space1 rest) left
  have reads : authCommand (verb ++ (blanks ++ (mechanism ++ tail)) ++ more) =
      some (after, .auth found answer) := by
    simp only [authCommand, List.append_assoc, tagNoCase_append spelled, spaced, split, ended,
      Option.bind_eq_bind, Option.bind_some]
  refine ⟨_, smtpCommand_choice (List.mem_of_getElem? (i := 13) rfl) reads, ?_⟩
  rintro rfl
  rw [List.append_nil, named.taken stops] at taken
  cases taken
  rw [rests] at ended
  cases ended
  rfl

theorem bdat_reads {digits tail : Text} {size : Nat} {last : Option Text}
    (spelled : Spells "BDAT" verb) (run : Run isSpace blanks) (number : Run Char.isDigit digits)
    (parsed : parseUsize digits = some size)
    (stops : ∀ first, (tail ++ more).head? = some first → first.isDigit = false)
    (ends : opt (preceded space1 (tagNoCase "LAST".toList)) tail = some ([], last)) :
    ReadsAs smtputf8 (.bdat size last.isSome) (verb ++ (blanks ++ (digits ++ tail))) more := by
  have taken := number.taken stops
  have spaced := run.spaced (tail ++ more) number fun _ digit =>
    solid_not_space (isDigit_solid digit)
  obtain ⟨left, found, ended⟩ := opt_some (preceded space1 (tagNoCase "LAST".toList)) (tail ++ more)
  have reads : bdatCommand (verb ++ (blanks ++ (digits ++ tail)) ++ more) =
      some (left, .bdat size found.isSome) := by
    simp only [bdatCommand, List.append_assoc, tagNoCase_append spelled, spaced, taken, ended,
      parsed, Option.bind_eq_bind, Option.bind_some]
  refine ⟨_, smtpCommand_choice (List.mem_of_getElem? (i := 5) rfl) reads, ?_⟩
  rintro rfl
  rw [List.append_nil, ends] at ended
  cases ended
  rfl

end ReadsAs

def CutsNumber (written more : Text) : Prop :=
  ∃ last first, written.getLast? = some last ∧ more.head? = some first ∧
    last.isDigit = true ∧ first.isDigit = true

theorem Argument.rests {gap text : Text} (run : Run isSpace gap) (argument : Argument text) :
    opt (preceded space1 rest) (gap ++ text) = some ([], some text) := by
  have spaced := argument.spaced [] run
  rw [List.append_nil] at spaced
  simp [opt, preceded, spaced, rest]

theorem CommandLine.reads {smtputf8 : Bool} {command : SmtpCommand} {written : Text}
    (line : CommandLine smtputf8 command written) {more : Text}
    (whole : ¬ CutsNumber written more) : ReadsAs smtputf8 command written more := by
  cases line with
  | greeting listed spelled run named => exact greeting_reads listed spelled run named
  | path listed spelled spaces run made tail =>
      exact path_reads listed spelled spaces run made tail
  | bare listed spelled => exact bare_reads listed spelled
  | argument listed spelled run text => exact argument_reads listed spelled run text
  | @bdat verb blanks digits size spelled run number parsed =>
      have stops : ∀ first, ([] ++ more).head? = some first → first.isDigit = false := by
        intro first head
        by_contra digit
        obtain ⟨front, last, rfl⟩ := (List.eq_nil_or_concat digits).resolve_left number.1
        apply whole
        refine ⟨last, first, ?_, head, number.2 last (by simp), by simpa using digit⟩
        simp [← List.append_assoc]
      have reads : ReadsAs smtputf8 (.bdat size false) (verb ++ (blanks ++ (digits ++ []))) more :=
        bdat_reads spelled run number parsed stops rfl
      rwa [List.append_nil] at reads
  | @bdatLast verb blanks digits gap last size spelled run number parsed gapRun spelledLast =>
      have stops : ∀ first, (gap ++ last ++ more).head? = some first → first.isDigit = false := by
        intro first head
        rw [List.append_assoc] at head
        exact not_digit_of_not_keyword (isSpace_not_keyword (gapRun.head_append head))
      have spelledAll := tagNoCase_append spelledLast []
      rw [List.append_nil] at spelledAll
      have spaced : space1 (gap ++ last) = some (last, gap) := by
        apply gapRun.taken
        intro first head
        exact solid_not_space (spelledLast.solid (by decide) first (List.mem_of_mem_head? head))
      have ends : opt (preceded space1 (tagNoCase "LAST".toList)) (gap ++ last) =
          some ([], some last) := by
        simp only [opt, preceded, spaced, spelledAll, Option.bind_eq_bind, Option.bind_some]
      exact bdat_reads spelled run number parsed stops ends
  | @auth verb blanks mechanism spelled run named =>
      have reads : ReadsAs smtputf8 (.auth mechanism none) (verb ++ (blanks ++ (mechanism ++ [])))
          more :=
        auth_reads spelled run named (by simp) rfl
      rwa [List.append_nil] at reads
  | @authWith verb blanks mechanism gap response spelled run named gapRun argument =>
      refine auth_reads spelled run named ?_ (argument.rests gapRun)
      intro first head
      exact isSpace_not_keyword (gapRun.head_append head)

/-! What the parser takes begins with a command. -/

def Begins (smtputf8 : Bool) (text : Text) : Prop :=
  ∃ command written more, text = written ++ more ∧ CommandLine smtputf8 command written ∧
    ¬ CutsNumber written more

theorem not_cutsNumber_of_last {written more : Text} {last : Char}
    (ends : written.getLast? = some last) (plain : last.isDigit = false) :
    ¬ CutsNumber written more := by
  rintro ⟨_, _, same, _, digit, _⟩
  rw [ends, Option.some.injEq] at same
  rw [← same, plain] at digit
  cases digit

theorem not_cutsNumber_of_next {written more : Text}
    (next : ∀ first, more.head? = some first → first.isDigit = false) :
    ¬ CutsNumber written more := by
  rintro ⟨_, first, _, head, _, digit⟩
  rw [next first head] at digit
  cases digit

theorem takeWhile1_run {kind : Char → Bool} {input left found : Text}
    (taken : takeWhile1 kind input = some (left, found)) :
    input = found ++ left ∧ Run kind found ∧
      ∀ first, left.head? = some first → kind first = false := by
  obtain ⟨whole, nonempty, characters, stops⟩ := takeWhile1_eq_some taken
  exact ⟨whole, ⟨nonempty, characters⟩, stops⟩

section Begins

variable {smtputf8 : Bool} {word : String} {text : Text} {result : Text × SmtpCommand}

theorem greeting_begins {command : Text → SmtpCommand} (listed : (word, command) ∈ greetings)
    (recognised : map (preceded (tagNoCase word.toList) (preceded space1 domain)) command text =
      some result) : Begins smtputf8 text := by
  simp only [map, Option.map_eq_some_iff, preceded_eq_some, Prod.exists] at recognised
  obtain ⟨left, name, ⟨afterVerb, verb, opened, afterBlanks, blanks, spaced, taken⟩, -⟩ :=
    recognised
  obtain ⟨rfl, spelled⟩ := tagNoCase_eq_some opened
  obtain ⟨rfl, run, -⟩ := takeWhile1_run spaced
  obtain ⟨rfl, named, stops⟩ := takeWhile1_run taken
  refine ⟨command name, verb ++ (blanks ++ name), left, by simp, .greeting listed spelled run named,
    not_cutsNumber_of_next ?_⟩
  intro first head
  exact not_digit_of_not_keyword (not_keyword_of_not_domain (stops first head))

theorem bare_begins {command : SmtpCommand} {left verb : Text}
    (listed : (word, command) ∈ bareCommands)
    (opened : tagNoCase word.toList text = some (left, verb)) : Begins smtputf8 text := by
  have letters : ∀ entry ∈ bareCommands, ∀ letter ∈ entry.1.toList.map Char.toLower,
      letter.isDigit = false := by
    decide
  obtain ⟨rfl, spelled⟩ := tagNoCase_eq_some opened
  refine ⟨command, verb, left, rfl, .bare listed spelled, ?_⟩
  rintro ⟨last, _, ends, _, digit, _⟩
  have plain := Spells.free spelled (fun _ => isDigit_toLower) (letters (word, command) listed) last
    (List.mem_of_getLast? ends)
  rw [plain] at digit
  cases digit

theorem argument_begins {command : Text → SmtpCommand} (listed : (word, command) ∈ argumentCommands)
    (trimmed : ∀ last, text.getLast? = some last → isWhitespace last = false)
    (recognised : map (preceded (tagNoCase word.toList) (preceded space1 rest)) command text =
      some result) : Begins smtputf8 text := by
  simp only [map, Option.map_eq_some_iff, preceded_eq_some, Prod.exists] at recognised
  obtain ⟨left, query, ⟨afterVerb, verb, opened, afterBlanks, blanks, spaced, taken⟩, -⟩ :=
    recognised
  obtain ⟨rfl, spelled⟩ := tagNoCase_eq_some opened
  obtain ⟨rfl, run, stops⟩ := takeWhile1_run spaced
  have nonempty : afterBlanks ≠ [] := by
    rintro rfl
    obtain ⟨front, last, rfl⟩ := (List.eq_nil_or_concat blanks).resolve_left run.1
    have solid := trimmed last (by simp [List.getLast?_append])
    rw [isSpace_whitespace (run.2 last (by simp))] at solid
    cases solid
  refine ⟨command afterBlanks, verb ++ (blanks ++ afterBlanks), [], by simp,
    .argument listed spelled run ⟨nonempty, stops⟩, not_cutsNumber_of_next ?_⟩
  intro first head
  cases head

theorem path_begins {command : MailAddress → List MailParam → SmtpCommand} {left verb afterVerb : Text}
    {address : MailAddress} (listed : (word, command) ∈ pathCommands)
    (opened : tagNoCase word.toList text = some (afterVerb, verb))
    (path : delimited '<' '>' (mailbox smtputf8) (afterVerb.dropWhile isSpace) =
      some (left, address)) : Begins smtputf8 text := by
  obtain ⟨rfl, spelled⟩ := tagNoCase_eq_some opened
  obtain ⟨between, start, inside⟩ := delimited_eq_some.mp path
  obtain ⟨inner, taken, made⟩ := mailbox_eq_some.mp inside
  obtain ⟨rfl, run, -⟩ := takeWhile1_run taken
  have split : afterVerb = afterVerb.takeWhile isSpace ++ '<' :: (inner ++ '>' :: left) := by
    rw [← start, List.takeWhile_append_dropWhile]
  refine ⟨command address [], verb ++ (afterVerb.takeWhile isSpace ++ '<' :: (inner ++ ['>'])), left,
    ?_, .path listed spelled (fun character member => List.mem_takeWhile_imp member) run made
      .absent, ?_⟩
  · conv_lhs => rw [split]
    simp
  · have ends : (verb ++ (afterVerb.takeWhile isSpace ++ '<' :: (inner ++ ['>']))).getLast? =
        some '>' := by
      have closed : verb ++ (afterVerb.takeWhile isSpace ++ '<' :: (inner ++ ['>'])) =
          verb ++ (afterVerb.takeWhile isSpace ++ '<' :: inner) ++ ['>'] := by
        simp
      rw [closed, List.getLast?_concat]
    exact not_cutsNumber_of_last ends rfl

theorem auth_begins (recognised : authCommand text = some result) : Begins smtputf8 text := by
  simp only [authCommand, Option.bind_eq_bind, Option.bind_eq_some_iff, Prod.exists] at recognised
  obtain ⟨afterVerb, verb, opened, afterBlanks, blanks, spaced, left, mechanism, taken, -⟩ :=
    recognised
  obtain ⟨rfl, spelled⟩ := tagNoCase_eq_some opened
  obtain ⟨rfl, run, -⟩ := takeWhile1_run spaced
  obtain ⟨rfl, named, stops⟩ := takeWhile1_run taken
  refine ⟨.auth mechanism none, verb ++ (blanks ++ mechanism), left, by simp,
    .auth spelled run named, not_cutsNumber_of_next ?_⟩
  intro first head
  exact not_digit_of_not_keyword (stops first head)

theorem bdat_begins (recognised : bdatCommand text = some result) : Begins smtputf8 text := by
  simp only [bdatCommand, Option.bind_eq_bind, Option.bind_eq_some_iff, Prod.exists] at recognised
  obtain ⟨afterVerb, verb, opened, afterBlanks, blanks, spaced, left, digits, taken, after, last,
    -, size, parsed, -⟩ := recognised
  obtain ⟨rfl, spelled⟩ := tagNoCase_eq_some opened
  obtain ⟨rfl, run, -⟩ := takeWhile1_run spaced
  obtain ⟨rfl, number, stops⟩ := takeWhile1_run taken
  exact ⟨.bdat size false, verb ++ (blanks ++ digits), left, by simp,
    .bdat spelled run number parsed, not_cutsNumber_of_next stops⟩

end Begins

theorem smtpCommand_begins {smtputf8 : Bool} {text : Text} {result : Text × SmtpCommand}
    (recognised : smtpCommand smtputf8 text = some result)
    (trimmed : ∀ last, text.getLast? = some last → isWhitespace last = false) :
    Begins smtputf8 text := by
  have opened {word : String} {command : SmtpCommand}
      (found : map (tagNoCase word.toList) (fun _ => command) text = some result) :
      ∃ left verb, tagNoCase word.toList text = some (left, verb) := by
    obtain ⟨entry, tagged, -⟩ := Option.map_eq_some_iff.mp found
    exact ⟨entry.1, entry.2, tagged⟩
  have bare {word : String} {command : SmtpCommand} (listed : (word, command) ∈ bareCommands)
      (found : map (tagNoCase word.toList) (fun _ => command) text = some result) :
      Begins smtputf8 text := by
    obtain ⟨left, verb, tagged⟩ := opened found
    exact bare_begins listed tagged
  obtain ⟨choice, member, found⟩ := smtpCommand_eq_some_iff.mp recognised
  simp only [verbCommands, List.mem_cons, List.not_mem_nil, or_false] at member
  rcases member with rfl | rfl | rfl | rfl | rfl | rfl | rfl | rfl | rfl | rfl | rfl | rfl | rfl |
    rfl
  · exact greeting_begins (List.mem_of_getElem? (i := 0) rfl) found
  · exact greeting_begins (List.mem_of_getElem? (i := 1) rfl) found
  · simp only [mailCommand, reversePath, space0, Option.bind_eq_bind, Option.bind_eq_some_iff,
      Option.some.injEq, Prod.exists, Prod.mk.injEq] at found
    obtain ⟨afterVerb, verb, tagged, _, _, ⟨rfl, -⟩, left, address, path, -⟩ := found
    exact path_begins (List.mem_of_getElem? (i := 0) rfl) tagged path
  · simp only [rcptCommand, forwardPath, space0, Option.bind_eq_bind, Option.bind_eq_some_iff,
      Option.some.injEq, Prod.exists, Prod.mk.injEq] at found
    obtain ⟨afterVerb, verb, tagged, _, _, ⟨rfl, -⟩, left, address, path, -⟩ := found
    exact path_begins (List.mem_of_getElem? (i := 1) rfl) tagged path
  · exact bare (List.mem_of_getElem? (i := 0) rfl) found
  · exact bdat_begins found
  · exact bare (List.mem_of_getElem? (i := 1) rfl) found
  · exact bare (List.mem_of_getElem? (i := 2) rfl) found
  · exact bare (List.mem_of_getElem? (i := 3) rfl) found
  · exact argument_begins (List.mem_of_getElem? (i := 0) rfl) trimmed found
  · exact argument_begins (List.mem_of_getElem? (i := 1) rfl) trimmed found
  · simp only [helpCommand, map, Option.map_eq_some_iff, preceded_eq_some, Prod.exists] at found
    obtain ⟨_, _, ⟨left, verb, tagged, -⟩, -⟩ := found
    exact bare_begins (List.mem_of_getElem? (i := 4) rfl) tagged
  · exact bare (List.mem_of_getElem? (i := 5) rfl) found
  · exact auth_begins found

theorem CommandLine.parsed {smtputf8 : Bool} {command : SmtpCommand} {text : Text}
    (line : CommandLine smtputf8 command text) : smtpCommand smtputf8 text = some ([], command) := by
  have uncut : ¬ CutsNumber text [] := by
    rintro ⟨_, _, _, head, _⟩
    cases head
  obtain ⟨result, recognised, whole⟩ := line.reads uncut
  rwa [List.append_nil, whole rfl] at recognised

theorem parseCommandSmtputf8_ok_iff {line : Text} {smtputf8 : Bool} {command : SmtpCommand} :
    parseCommandSmtputf8 line smtputf8 = .ok command ↔
      ∃ left, smtpCommand smtputf8 (trim line) = some (left, command) := by
  rw [parseCommandSmtputf8, parseCommandInner]
  cases smtpCommand smtputf8 (trim line) with
  | none => simp
  | some result => simp [Prod.ext_iff]

/-- What is accepted is a command from end to end exactly if the line is one, or if no
command is at its beginning. -/
theorem accepted_line_whole_iff (line : Text) (smtputf8 : Bool) :
    (∀ command, parseCommandSmtputf8 line smtputf8 = .ok command →
        CommandLine smtputf8 command (trim line)) ↔
      ((∃ command, CommandLine smtputf8 command (trim line)) ∨ ¬ Begins smtputf8 (trim line)) := by
  constructor
  · intro whole
    by_cases begins : Begins smtputf8 (trim line)
    · obtain ⟨command, written, more, split, derivation, uncut⟩ := begins
      obtain ⟨result, recognised, -⟩ := derivation.reads uncut
      rw [← split] at recognised
      exact Or.inl ⟨result.2, whole result.2 (parseCommandSmtputf8_ok_iff.mpr ⟨result.1, recognised⟩)⟩
    · exact Or.inr begins
  · rintro condition command accepted
    obtain ⟨left, recognised⟩ := parseCommandSmtputf8_ok_iff.mp accepted
    rcases condition with ⟨other, derivation⟩ | nothing
    · have parsed := derivation.parsed
      rw [recognised, Option.some.injEq, Prod.mk.injEq] at parsed
      rwa [parsed.2]
    · exact absurd (smtpCommand_begins recognised fun last ends => trim_last ends) nothing

/-- QUIT is accepted with a word after it. -/
theorem quit_now_accepted :
    parseCommandSmtputf8 "QUIT now".toList true = .ok .quit ∧
      ¬ CommandLine true .quit (trim "QUIT now".toList) := by
  refine ⟨by decide +kernel, ?_⟩
  intro line
  have parsed := line.parsed
  have left : smtpCommand true (trim "QUIT now".toList) = some (" now".toList, .quit) := by
    decide +kernel
  rw [left] at parsed
  cases parsed

end Rusmes
