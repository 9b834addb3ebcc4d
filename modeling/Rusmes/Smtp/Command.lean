import Rusmes.Proto.Mail

/-!
The vocabulary of an SMTP session: commands with their parameters, and replies
with the texts the server sends.
-/

namespace Rusmes

open WireText

structure MailParam where
  keyword : Text
  value : Option Text
  deriving DecidableEq, Repr

inductive SmtpCommand
  | helo (domain : Text)
  | ehlo (domain : Text)
  | mail (sender : MailAddress) (params : List MailParam)
  | rcpt (recipient : MailAddress) (params : List MailParam)
  | data
  | bdat (chunkSize : Nat) (last : Bool)
  | rset
  | noop
  | quit
  | vrfy (query : Text)
  | expn (list : Text)
  | help (topic : Option Text)
  | startTls
  | auth (mechanism : Text) (initialResponse : Option Text)
  deriving DecidableEq, Repr

structure SmtpResponse where
  code : Nat
  lines : List Text
  deriving DecidableEq, Repr

namespace SmtpResponse

def new (code : Nat) (message : Text) : SmtpResponse :=
  ⟨code, [message]⟩

def serviceReady (domain : Text) : SmtpResponse :=
  new 220 (domain ++ " RusMES SMTP Server ready".toList)

def closing : SmtpResponse :=
  new 221 "Bye".toList

def ok (message : Text) : SmtpResponse :=
  new 250 message

def okSimple : SmtpResponse :=
  new 250 "OK".toList

def ehlo (domain : Text) (extensions : List Text) : SmtpResponse :=
  ⟨250, domain :: extensions⟩

def startData : SmtpResponse :=
  new 354 "Start mail input; end with <CRLF>.<CRLF>".toList

def mailboxUnavailable (message : Text) : SmtpResponse :=
  new 450 message

def localError (message : Text) : SmtpResponse :=
  new 451 message

def syntaxError (message : Text) : SmtpResponse :=
  new 500 message

def parameterError (message : Text) : SmtpResponse :=
  new 501 message

def notImplemented (message : Text) : SmtpResponse :=
  new 502 message

def badSequence (message : Text) : SmtpResponse :=
  new 503 message

def parameterNotImplemented (message : Text) : SmtpResponse :=
  new 504 message

def storageExceeded (message : Text) : SmtpResponse :=
  new 552 message

end SmtpResponse

/-- The octets of a reply: every line but the last carries a hyphen. -/
def SmtpResponse.format (response : SmtpResponse) : Text :=
  let rec lines : List Text → Text
    | [] => []
    | [line] => decimal response.code ++ ' ' :: line ++ "\r\n".toList
    | line :: rest => decimal response.code ++ '-' :: line ++ "\r\n".toList ++ lines rest
  lines response.lines

end Rusmes
