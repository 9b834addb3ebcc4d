import Rusmes.Library.Recognizer
import Rusmes.Proto.Mail

/-!
Commands and responses of the POP3 server: `command.rs`, `parser.rs` and
`response.rs`.
-/

namespace Rusmes

open WireText

inductive Pop3Command
  | user (name : Text)
  | pass (password : Text)
  | stat
  | list (message : Option UInt32)
  | retr (message : UInt32)
  | dele (message : UInt32)
  | noop
  | rset
  | quit
  | top (message lines : UInt32)
  | uidl (message : Option UInt32)
  | apop (name digest : Text)
  | capa
  | stls
  | auth (mechanism initialResponse : Option Text)
  deriving DecidableEq, Repr

namespace Pop3Parser

open Recognizer

abbrev Alphanumeric := Char → Bool

def isAsciiAlphanumeric (character : Char) : Bool := character.isAlpha || character.isDigit

def username (alphanumeric : Alphanumeric) : Recognizer Text :=
  takeWhile1 fun character => alphanumeric character || character ∈ ['_', '-', '.', '@']

def password : Recognizer Text :=
  takeWhile1 fun character => !isWhitespace character

def number : Recognizer UInt32 := fun input => do
  let (input, digits) ← takeWhile1 Char.isDigit input
  if digitsValue digits < UInt32.size then some (input, UInt32.ofNat (digitsValue digits)) else none

def messageNumber : Recognizer UInt32 := number

def lineCount : Recognizer UInt32 := number

def digest : Recognizer Text :=
  takeWhile1 fun character =>
    character.isDigit || ('a' ≤ character && character ≤ 'f') ||
      ('A' ≤ character && character ≤ 'F')

def saslMechanism : Recognizer Text :=
  takeWhile1 fun character => isAsciiAlphanumeric character || character ∈ ['-', '_']

def saslInitialResponse : Recognizer Text :=
  takeWhile1 fun character => isAsciiAlphanumeric character || character ∈ ['+', '/', '=', ',']

def bareCommand (name : String) (command : Pop3Command) : Recognizer Pop3Command :=
  map (tagNoCase name.toList) fun _ => command

def withArgument {α : Type} (name : String) (argument : Recognizer α) (build : α → Pop3Command) :
    Recognizer Pop3Command :=
  map (preceded (tagNoCase name.toList) (preceded space1 argument)) build

def withOptionalNumber (name : String) (build : Option UInt32 → Pop3Command) :
    Recognizer Pop3Command :=
  map (preceded (tagNoCase name.toList) (opt (preceded space1 messageNumber))) build

def userCommand (alphanumeric : Alphanumeric) : Recognizer Pop3Command :=
  withArgument "USER" (username alphanumeric) .user

def passCommand : Recognizer Pop3Command := withArgument "PASS" password .pass

def statCommand : Recognizer Pop3Command := bareCommand "STAT" .stat

def listCommand : Recognizer Pop3Command := withOptionalNumber "LIST" .list

def retrCommand : Recognizer Pop3Command := withArgument "RETR" messageNumber .retr

def deleCommand : Recognizer Pop3Command := withArgument "DELE" messageNumber .dele

def noopCommand : Recognizer Pop3Command := bareCommand "NOOP" .noop

def rsetCommand : Recognizer Pop3Command := bareCommand "RSET" .rset

def quitCommand : Recognizer Pop3Command := bareCommand "QUIT" .quit

def topCommand : Recognizer Pop3Command := fun input => do
  let (input, _) ← tagNoCase "TOP".toList input
  let (input, message) ← preceded space1 messageNumber input
  let (input, lines) ← preceded space1 lineCount input
  some (input, .top message lines)

def uidlCommand : Recognizer Pop3Command := withOptionalNumber "UIDL" .uidl

def apopCommand (alphanumeric : Alphanumeric) : Recognizer Pop3Command := fun input => do
  let (input, _) ← tagNoCase "APOP".toList input
  let (input, name) ← preceded space1 (username alphanumeric) input
  let (input, digest) ← preceded space1 digest input
  some (input, .apop name digest)

def capaCommand : Recognizer Pop3Command := bareCommand "CAPA" .capa

def stlsCommand : Recognizer Pop3Command := bareCommand "STLS" .stls

def authCommand : Recognizer Pop3Command := fun input => do
  let (input, _) ← tagNoCase "AUTH".toList input
  let (input, mechanism) ← opt (preceded space1 saslMechanism) input
  let (input, initialResponse) ← opt (preceded space1 saslInitialResponse) input
  some (input, .auth mechanism initialResponse)

def pop3Command (alphanumeric : Alphanumeric) : Recognizer Pop3Command :=
  alt [userCommand alphanumeric, passCommand, statCommand, listCommand, retrCommand, deleCommand,
    noopCommand, rsetCommand, quitCommand, topCommand, uidlCommand, apopCommand alphanumeric,
    capaCommand, stlsCommand, authCommand]

def parseCommand (alphanumeric : Alphanumeric) (input : Text) : Except Text Pop3Command :=
  match pop3Command alphanumeric (trim input) with
  | some (_, command) => .ok command
  | none => .error ("Failed to parse command: ".toList ++ trim input)

end Pop3Parser

inductive Pop3Status
  | ok
  | err
  | continuation
  deriving DecidableEq, Repr

structure Pop3Response where
  status : Pop3Status
  message : Text
  multilineData : Option (List Text)
  deriving DecidableEq, Repr

namespace Pop3Response

def ok (message : Text) : Pop3Response := ⟨.ok, message, none⟩

def err (message : Text) : Pop3Response := ⟨.err, message, none⟩

def okMultiline (message : Text) (data : List Text) : Pop3Response := ⟨.ok, message, some data⟩

def cont (challenge : Text) : Pop3Response := ⟨.continuation, challenge, none⟩

def stuffed (line : Text) : Text :=
  (if line.head? = some '.' then '.' :: line else line) ++ "\r\n".toList

def toWire (response : Pop3Response) : Text :=
  let data :=
    match response.multilineData with
    | none => []
    | some lines => lines.flatMap stuffed ++ ".\r\n".toList
  match response.status with
  | .continuation => "+ ".toList ++ response.message ++ "\r\n".toList
  | .ok => "+OK ".toList ++ response.message ++ "\r\n".toList ++ data
  | .err => "-ERR ".toList ++ response.message ++ "\r\n".toList ++ data

end Pop3Response

end Rusmes
