import Rusmes.Smtp.Parser

/-!
The alternatives of the command parser and the words they open with. No word is the
beginning of another, so the order of the alternatives does not matter, and the parser
with SMTPUTF8 can be compared with the one without it command by command.
-/

namespace Rusmes

open WireText Recognizer

def verbCommands (smtputf8 : Bool) : List (Text × Recognizer SmtpCommand) :=
  [("HELO".toList, heloCommand), ("EHLO".toList, ehloCommand),
    ("MAIL FROM:".toList, mailCommand smtputf8), ("RCPT TO:".toList, rcptCommand smtputf8),
    ("DATA".toList, dataCommand), ("BDAT".toList, bdatCommand), ("RSET".toList, rsetCommand),
    ("NOOP".toList, noopCommand), ("QUIT".toList, quitCommand), ("VRFY".toList, vrfyCommand),
    ("EXPN".toList, expnCommand), ("HELP".toList, helpCommand),
    ("STARTTLS".toList, starttlsCommand), ("AUTH".toList, authCommand)]

theorem verbCommands_apart (smtputf8 : Bool) :
    (verbCommands smtputf8).Pairwise fun first second => apart first.1 second.1 = true := by
  have words : ((verbCommands smtputf8).map Prod.fst).Pairwise fun first second =>
      apart first second = true := by
    cases smtputf8 <;> decide +kernel
  exact List.pairwise_map.mp words

theorem verbCommands_open (smtputf8 : Bool) :
    ∀ choice ∈ verbCommands smtputf8, OpensWith choice.1 choice.2 := by
  simp only [verbCommands, List.forall_mem_cons, List.not_mem_nil, false_implies, implies_true,
    and_true, OpensWith]
  refine ⟨?_, ?_, ?_, ?_, ?_, ?_, ?_, ?_, ?_, ?_, ?_, ?_, ?_, ?_⟩
  all_goals
    intro input other
    simp only [heloCommand, ehloCommand, mailCommand, rcptCommand, dataCommand, bdatCommand,
      rsetCommand, noopCommand, quitCommand, vrfyCommand, expnCommand, helpCommand,
      starttlsCommand, authCommand, map, preceded, other, Option.bind_eq_bind, Option.bind_none,
      Option.map_none]

theorem smtpCommand_eq_some_iff {smtputf8 : Bool} {input : Text} {result : Text × SmtpCommand} :
    smtpCommand smtputf8 input = some result ↔
      ∃ choice ∈ verbCommands smtputf8, choice.2 input = some result :=
  alt_eq_some_iff (verbCommands_open smtputf8) (verbCommands_apart smtputf8)

theorem smtpCommand_opened {smtputf8 : Bool} {choice : Text × Recognizer SmtpCommand}
    (member : choice ∈ verbCommands smtputf8) {input : Text} {opened : Text × Text}
    (tagged : tagNoCase choice.1 input = some opened) :
    smtpCommand smtputf8 input = choice.2 input :=
  alt_opened (verbCommands_open smtputf8) (verbCommands_apart smtputf8) member tagged

def plainCommands : List (Recognizer SmtpCommand) :=
  [heloCommand, ehloCommand, dataCommand, bdatCommand, rsetCommand, noopCommand, quitCommand,
    vrfyCommand, expnCommand, helpCommand, starttlsCommand, authCommand]

theorem smtpCommand_cases {smtputf8 : Bool} {input : Text} {result : Text × SmtpCommand} :
    smtpCommand smtputf8 input = some result ↔
      mailCommand smtputf8 input = some result ∨ rcptCommand smtputf8 input = some result ∨
        ∃ command ∈ plainCommands, command input = some result := by
  have addressed {helo ehlo mail rcpt others : Prop} :
      (helo ∨ ehlo ∨ mail ∨ rcpt ∨ others) ↔ (mail ∨ rcpt ∨ helo ∨ ehlo ∨ others) := by
    tauto
  rw [smtpCommand_eq_some_iff]
  simp only [verbCommands, plainCommands, List.exists_mem_cons_iff, List.not_mem_nil, false_and,
    exists_false, or_false]
  exact addressed

def mailboxCharacter (smtputf8 : Bool) (character : Char) : Bool :=
  if smtputf8 then character ≠ '>'
  else character.isAlphanum || character = '@' || character = '.' || character = '-' ||
    character = '_' || character = '+'

def mailboxAddress (smtputf8 : Bool) (text : Text) : Except MailError MailAddress :=
  if smtputf8 then MailAddress.fromStrSmtputf8 text else MailAddress.fromStr text

theorem mailbox_eq_some {smtputf8 : Bool} {input remaining : Text} {address : MailAddress} :
    mailbox smtputf8 input = some (remaining, address) ↔
      ∃ text, takeWhile1 (mailboxCharacter smtputf8) input = some (remaining, text) ∧
        mailboxAddress smtputf8 text = .ok address := by
  have read : mailbox smtputf8 input =
      (takeWhile1 (mailboxCharacter smtputf8) input).bind fun found =>
        (mailboxAddress smtputf8 found.2).toOption.map (Prod.mk found.1) := by
    cases smtputf8 with
    | true =>
        apply Option.bind_congr
        intro found _
        simp only [mailboxAddress, if_true]
        cases MailAddress.fromStrSmtputf8 found.2 <;> rfl
    | false =>
        apply Option.bind_congr
        intro found _
        simp only [mailboxAddress, Bool.false_eq_true, if_false]
        cases MailAddress.fromStr found.2 <;> rfl
  have validated (made : Except MailError MailAddress) (found : MailAddress) :
      made.toOption = some found ↔ made = .ok found := by
    cases made <;> simp [Except.toOption]
  simp only [read, Option.bind_eq_some_iff, Option.map_eq_some_iff, validated, Prod.exists,
    Prod.mk.injEq]
  constructor
  · rintro ⟨_, text, taken, _, made, rfl, rfl⟩
    exact ⟨text, taken, made⟩
  · rintro ⟨text, taken, made⟩
    exact ⟨remaining, text, taken, address, made, rfl, rfl⟩

theorem path_extends {input remaining : Text} {address : MailAddress}
    (recognised : delimited '<' '>' (mailbox false) input = some (remaining, address)) :
    delimited '<' '>' (mailbox true) input = some (remaining, address) := by
  obtain ⟨between, opened, inside⟩ := delimited_eq_some.mp recognised
  obtain ⟨text, taken, made⟩ := mailbox_eq_some.mp inside
  refine delimited_eq_some.mpr ⟨between, opened, mailbox_eq_some.mpr ⟨text, ?_,
    MailAddress.fromStr_smtputf8 made⟩⟩
  obtain ⟨rfl, nonempty, characters, -⟩ := takeWhile1_eq_some taken
  apply takeWhile1_append nonempty
  · intro character member
    have plain := characters character member
    simp only [mailboxCharacter, if_true, ne_eq, decide_not, Bool.not_eq_true',
      decide_eq_false_iff_not]
    rintro rfl
    exact absurd plain (by decide)
  · intro first head
    obtain rfl := Option.some.inj head
    rfl

theorem mailCommand_extends {input : Text} {result : Text × SmtpCommand}
    (recognised : mailCommand false input = some result) : mailCommand true input = some result := by
  simp only [mailCommand, reversePath, Option.bind_eq_bind, Option.bind_eq_some_iff,
    Prod.exists] at recognised ⊢
  obtain ⟨afterVerb, verb, opened, afterBlanks, blanks, spaced, afterPath, sender, path, others⟩ :=
    recognised
  exact ⟨afterVerb, verb, opened, afterBlanks, blanks, spaced, afterPath, sender,
    path_extends path, others⟩

theorem rcptCommand_extends {input : Text} {result : Text × SmtpCommand}
    (recognised : rcptCommand false input = some result) : rcptCommand true input = some result := by
  simp only [rcptCommand, forwardPath, Option.bind_eq_bind, Option.bind_eq_some_iff,
    Prod.exists] at recognised ⊢
  obtain ⟨afterVerb, verb, opened, afterBlanks, blanks, spaced, afterPath, recipient, path,
    others⟩ := recognised
  exact ⟨afterVerb, verb, opened, afterBlanks, blanks, spaced, afterPath, recipient,
    path_extends path, others⟩

theorem smtpCommand_extends {input : Text} {result : Text × SmtpCommand}
    (recognised : smtpCommand false input = some result) : smtpCommand true input = some result := by
  rw [smtpCommand_cases] at recognised ⊢
  rcases recognised with mail | rcpt | plain
  · exact Or.inl (mailCommand_extends mail)
  · exact Or.inr (Or.inl (rcptCommand_extends rcpt))
  · exact Or.inr (Or.inr plain)

def LineOpens (word : String) (line : Text) : Prop :=
  (tagNoCase word.toList (trim line)).isSome = true

theorem smtpCommand_agrees {input : Text} (noMail : tagNoCase "MAIL FROM:".toList input = none)
    (noRcpt : tagNoCase "RCPT TO:".toList input = none) (first second : Bool) :
    smtpCommand first input = smtpCommand second input := by
  have silent (smtputf8 : Bool) : mailCommand smtputf8 input = none ∧
      rcptCommand smtputf8 input = none :=
    ⟨verbCommands_open smtputf8 ("MAIL FROM:".toList, mailCommand smtputf8) (by simp [verbCommands])
        input noMail,
      verbCommands_open smtputf8 ("RCPT TO:".toList, rcptCommand smtputf8) (by simp [verbCommands])
        input noRcpt⟩
  apply Option.ext
  intro result
  rw [smtpCommand_cases, smtpCommand_cases, (silent first).1, (silent first).2, (silent second).1,
    (silent second).2]

/-- The parser with SMTPUTF8 takes every command the other one takes for the same, and a
line that opens with neither MAIL FROM: nor RCPT TO: is the same to both. -/
theorem parseCommandSmtputf8_extends (line : Text) :
    (∀ command, parseCommand line = .ok command →
        parseCommandSmtputf8 line true = .ok command) ∧
      (¬ LineOpens "MAIL FROM:" line → ¬ LineOpens "RCPT TO:" line →
        parseCommandSmtputf8 line true = parseCommand line) := by
  constructor
  · intro command parsed
    rw [parseCommand, parseCommandInner] at parsed
    rw [parseCommandSmtputf8, parseCommandInner]
    cases found : smtpCommand false (trim line) with
    | none =>
        rw [found] at parsed
        cases parsed
    | some result =>
        rw [found] at parsed
        rw [smtpCommand_extends found]
        exact parsed
  · intro noMail noRcpt
    rw [LineOpens, Bool.not_eq_true, Option.isSome_eq_false_iff, Option.isNone_iff_eq_none]
      at noMail noRcpt
    rw [parseCommand, parseCommandSmtputf8, parseCommandInner, parseCommandInner,
      smtpCommand_agrees noMail noRcpt true false]

end Rusmes
