import Rusmes.Library.Recognizer
import Rusmes.Smtp.Command

/-!
The command parser of `parser.rs`. Like the source's combinators it does not ask
for the end of the line.
-/

namespace Rusmes

open WireText

open Recognizer

def domain : Recognizer Text :=
  takeWhile1 domainCharacter

def parameterValue : Recognizer Text :=
  takeWhile1 fun character => character.isAlphanum || character = '-' || character = '.'

def mailParameter : Recognizer MailParam := fun input => do
  let (input, keyword) ← takeWhile1 (fun character => character.isAlphanum || character = '-') input
  let (input, value) ← opt (preceded (char '=') parameterValue) input
  some (input, ⟨keyword, value⟩)

theorem takeWhile1_shorter {accepts : Char → Bool} {input remaining value : Text}
    (parsed : takeWhile1 accepts input = some (remaining, value)) :
    remaining.length < input.length := by
  simp only [takeWhile1] at parsed
  split at parsed
  · cases parsed
  · rename_i nonempty
    simp only [Option.some.injEq, Prod.mk.injEq] at parsed
    have parts := congrArg List.length (List.takeWhile_append_dropWhile (p := accepts) (l := input))
    have positive := List.length_pos_iff.mpr nonempty
    rw [List.length_append, parsed.1] at parts
    omega

theorem mailParameter_shorter {input remaining : Text} {param : MailParam}
    (parsed : mailParameter input = some (remaining, param)) : remaining.length < input.length := by
  simp only [mailParameter, Option.bind_eq_bind, Option.bind_eq_some_iff, Prod.exists] at parsed
  obtain ⟨afterKeyword, keyword, first, afterValue, value, second, same⟩ := parsed
  simp only [Option.some.injEq, Prod.mk.injEq] at same
  have shorter := takeWhile1_shorter first
  suffices bound : afterValue.length ≤ afterKeyword.length by
    rw [← same.1]
    omega
  simp only [opt] at second
  split at second
  · rename_i left found preceding
    simp only [Option.some.injEq, Prod.mk.injEq] at second
    simp only [preceded, Option.bind_eq_bind, Option.bind_eq_some_iff, Prod.exists] at preceding
    obtain ⟨afterSign, _, sign, valueParsed⟩ := preceding
    have inner := takeWhile1_shorter valueParsed
    rw [second.1] at inner
    cases afterKeyword with
    | nil => simp [char] at sign
    | cons first tail =>
        simp only [char] at sign
        split at sign
        · simp only [Option.some.injEq, Prod.mk.injEq] at sign
          rw [← sign.1] at inner
          simp only [List.length_cons]
          omega
        · cases sign
  · simp only [Option.some.injEq, Prod.mk.injEq] at second
    rw [second.1]

/-- The loop of `mail_parameters`; every round takes at least one character. -/
def mailParametersLoop : Nat → Text → Text × List MailParam
  | 0, input => (input, [])
  | fuel + 1, input =>
      match mailParameter input with
      | none => (input, [])
      | some (remaining, param) =>
          if trimStart remaining = [] then ([], [param])
          else
            let (left, params) := mailParametersLoop fuel (trimStart remaining)
            (left, param :: params)

theorem mailParametersLoop_enough {fuel : Nat} {input : Text} (enough : input.length ≤ fuel) :
    mailParametersLoop fuel input = mailParametersLoop input.length input := by
  induction fuel using Nat.strongRecOn generalizing input with
  | ind fuel ih =>
      cases fuel with
      | zero =>
          have empty : input.length = 0 := by omega
          rw [empty]
      | succ fuel =>
          cases size : input.length with
          | zero =>
              rw [List.length_eq_zero_iff.mp size]
              rfl
          | succ length =>
              simp only [mailParametersLoop]
              cases parsed : mailParameter input with
              | none => rfl
              | some found =>
                  have shorter := mailParameter_shorter parsed
                  have trimmed : (trimStart found.1).length ≤ found.1.length :=
                    List.length_dropWhile_le _ _
                  have outer := ih fuel (by omega) (by omega : (trimStart found.1).length ≤ fuel)
                  have inner := ih length (by omega) (by omega : (trimStart found.1).length ≤ length)
                  simp only [outer, inner]

def mailParameters : Recognizer (List MailParam) := fun input =>
  some (mailParametersLoop input.length input)

def mailbox (smtputf8 : Bool) : Recognizer MailAddress := fun input =>
  if smtputf8 then do
    let (input, address) ← takeWhile1 (fun character => character ≠ '>') input
    match MailAddress.fromStrSmtputf8 address with
    | .ok mailbox => some (input, mailbox)
    | .error _ => none
  else do
    let (input, address) ← takeWhile1 (fun character => character.isAlphanum || character = '@' ||
      character = '.' || character = '-' || character = '_' || character = '+') input
    match MailAddress.fromStr address with
    | .ok mailbox => some (input, mailbox)
    | .error _ => none

def reversePath (smtputf8 : Bool) : Recognizer MailAddress :=
  delimited '<' '>' (mailbox smtputf8)

def forwardPath (smtputf8 : Bool) : Recognizer MailAddress :=
  delimited '<' '>' (mailbox smtputf8)

def heloCommand : Recognizer SmtpCommand :=
  map (preceded (tagNoCase "HELO".toList) (preceded space1 domain)) .helo

def ehloCommand : Recognizer SmtpCommand :=
  map (preceded (tagNoCase "EHLO".toList) (preceded space1 domain)) .ehlo

def mailCommand (smtputf8 : Bool) : Recognizer SmtpCommand := fun input => do
  let (input, _) ← tagNoCase "MAIL FROM:".toList input
  let (input, _) ← space0 input
  let (input, sender) ← reversePath smtputf8 input
  let (input, params) ← opt (preceded space1 mailParameters) input
  some (input, .mail sender (params.getD []))

def rcptCommand (smtputf8 : Bool) : Recognizer SmtpCommand := fun input => do
  let (input, _) ← tagNoCase "RCPT TO:".toList input
  let (input, _) ← space0 input
  let (input, recipient) ← forwardPath smtputf8 input
  let (input, params) ← opt (preceded space1 mailParameters) input
  some (input, .rcpt recipient (params.getD []))

def dataCommand : Recognizer SmtpCommand :=
  map (tagNoCase "DATA".toList) fun _ => .data

def bdatCommand : Recognizer SmtpCommand := fun input => do
  let (input, _) ← tagNoCase "BDAT".toList input
  let (input, _) ← space1 input
  let (input, digits) ← takeWhile1 Char.isDigit input
  let (input, last) ← opt (preceded space1 (tagNoCase "LAST".toList)) input
  let chunkSize ← parseUsize digits
  some (input, .bdat chunkSize last.isSome)

def rsetCommand : Recognizer SmtpCommand :=
  map (tagNoCase "RSET".toList) fun _ => .rset

def noopCommand : Recognizer SmtpCommand :=
  map (tagNoCase "NOOP".toList) fun _ => .noop

def quitCommand : Recognizer SmtpCommand :=
  map (tagNoCase "QUIT".toList) fun _ => .quit

def vrfyCommand : Recognizer SmtpCommand :=
  map (preceded (tagNoCase "VRFY".toList) (preceded space1 rest)) .vrfy

def expnCommand : Recognizer SmtpCommand :=
  map (preceded (tagNoCase "EXPN".toList) (preceded space1 rest)) .expn

def helpCommand : Recognizer SmtpCommand :=
  map (preceded (tagNoCase "HELP".toList) (opt (preceded space1 rest))) .help

def starttlsCommand : Recognizer SmtpCommand :=
  map (tagNoCase "STARTTLS".toList) fun _ => .startTls

def authCommand : Recognizer SmtpCommand := fun input => do
  let (input, _) ← tagNoCase "AUTH".toList input
  let (input, _) ← space1 input
  let (input, mechanism) ←
    takeWhile1 (fun character => character.isAlphanum || character = '-') input
  let (input, initialResponse) ← opt (preceded space1 rest) input
  some (input, .auth mechanism initialResponse)

def smtpCommand (smtputf8 : Bool) : Recognizer SmtpCommand :=
  alt [heloCommand, ehloCommand, mailCommand smtputf8, rcptCommand smtputf8, dataCommand,
    bdatCommand, rsetCommand, noopCommand, quitCommand, vrfyCommand, expnCommand, helpCommand,
    starttlsCommand, authCommand]

def parseCommandInner (input : Text) (smtputf8 : Bool) : Except Text SmtpCommand :=
  match smtpCommand smtputf8 input with
  | some (_, command) => .ok command
  | none => .error ("Failed to parse command: ".toList ++ input)

def parseCommand (input : Text) : Except Text SmtpCommand :=
  parseCommandInner (trim input) false

def parseCommandSmtputf8 (input : Text) (smtputf8SessionActive : Bool) : Except Text SmtpCommand :=
  parseCommandInner (trim input) smtputf8SessionActive

end Rusmes
