import Rusmes.Proto.Mime

/-!
IMAP commands as the parser of a command line hands them over, and the responses
the handlers give back.
-/

namespace Rusmes

open WireText

inductive StoreMode
  | replace
  | add
  | remove
  deriving DecidableEq, Repr

inductive UidSubcommand
  | fetch (sequence : Text) (items : List Text)
  | store (sequence : Text) (mode : StoreMode) (flags : List Text)
  | search (criteria : List Text)
  | copy (sequence mailbox : Text)
  | move (sequence mailbox : Text)
  | expunge (sequence : Text)
  deriving DecidableEq, Repr

inductive ImapCommand
  | login (user password : Text)
  | select (mailbox : Text)
  | examine (mailbox : Text)
  | fetch (sequence : Text) (items : List Text)
  | store (sequence : Text) (mode : StoreMode) (flags : List Text)
  | search (criteria : List Text)
  | list (reference mailbox : Text)
  | lsub (reference mailbox : Text)
  | subscribe (mailbox : Text)
  | unsubscribe (mailbox : Text)
  | create (mailbox : Text)
  | createSpecialUse (mailbox specialUse : Text)
  | delete (mailbox : Text)
  | rename (old new : Text)
  | append (mailbox : Text) (flags : List Text) (dateTime : Option Text) (messageLiteral : Octets)
  | copy (sequence mailbox : Text)
  | move (sequence mailbox : Text)
  | expunge
  | close
  | capability
  | logout
  | noop
  | idle
  | namespace
  | authenticate (mechanism : Text) (initialResponse : Option Text)
  | compress (mechanism : Text)
  | uid (subcommand : UidSubcommand)
  deriving DecidableEq, Repr

structure ImapResponse where
  tag : Option Text
  status : Text
  message : Text
  deriving DecidableEq, Repr

namespace ImapResponse

def ok (tag message : Text) : ImapResponse := ⟨some tag, "OK".toList, message⟩

def bad (tag message : Text) : ImapResponse := ⟨some tag, "BAD".toList, message⟩

def no (tag message : Text) : ImapResponse := ⟨some tag, "NO".toList, message⟩

def lineEnd : Text := ['\r', '\n']

def listing (lines : List Text) (tag completion : Text) : ImapResponse :=
  let joined := joinWith lineEnd lines
  let block := if joined = [] then [] else joined ++ lineEnd
  ⟨none, [], block ++ tag ++ " OK ".toList ++ completion⟩

def format (response : ImapResponse) : Text :=
  match response.tag with
  | some tag => tag ++ ' ' :: response.status ++ ' ' :: response.message ++ lineEnd
  | none => '*' :: ' ' :: response.status ++ ' ' :: response.message ++ lineEnd

end ImapResponse

end Rusmes
