import Mathlib.Data.List.AList
import Rusmes.Proto.Address

/-!
The mail envelope: identifiers, processing states, attributes and the message
it wraps, with the operations of `mail.rs`. Identifiers are drawn by the caller,
who passes the fresh one to the operation that stores it.
-/

namespace Rusmes

open WireText

structure MailId where
  uuid : BitVec 128
  deriving DecidableEq, Repr

structure MessageId where
  uuid : BitVec 128
  deriving DecidableEq, Repr

def hexDigits (width value : Nat) : Text :=
  (Nat.toDigits 16 value).leftpad width '0'

def MailId.display (id : MailId) : String :=
  let digits := hexDigits 32 id.uuid.toNat
  let group (start length : Nat) := String.ofList ((digits.drop start).take length)
  String.intercalate "-" [group 0 8, group 8 4, group 12 4, group 16 4, group 20 12]

inductive MailState
  | root
  | transport
  | localDelivery
  | error
  | ghost
  | custom (name : Text)
  deriving DecidableEq, Repr

/-- One character inside a string's `{:?}` form; beyond ASCII all are printed. -/
def escapeDebug (character : Char) : Text :=
  if character = '"' ∨ character = '\\' then ['\\', character]
  else if character = '\t' then "\\t".toList
  else if character = '\r' then "\\r".toList
  else if character = '\n' then "\\n".toList
  else if character = '\x00' then "\\0".toList
  else if character.toNat < 0x20 ∨ character.toNat = 0x7F then
    "\\u\x7b".toList ++ Nat.toDigits 16 character.toNat ++ "\x7d".toList
  else [character]

def MailState.debug : MailState → String
  | .root => "Root"
  | .transport => "Transport"
  | .localDelivery => "LocalDelivery"
  | .error => "Error"
  | .ghost => "Ghost"
  | .custom name => "Custom(\"" ++ String.ofList (name.flatMap escapeDebug) ++ "\")"

inductive IpAddr
  | v4 (octets : BitVec 32)
  | v6 (octets : BitVec 128)
  deriving DecidableEq, Repr

inductive AttributeValue
  | string (value : Text)
  | integer (value : Int)
  | float (bits : BitVec 64)
  | boolean (value : Bool)
  | bytes (value : Octets)
  deriving DecidableEq, Repr

def AttributeValue.asStr : AttributeValue → Option Text
  | .string value => some value
  | _ => none

def AttributeValue.asI64 : AttributeValue → Option Int
  | .integer value => some value
  | _ => none

abbrev HeaderMap := AList fun _ : Text => List Text

/-- A streaming body: the octets its reader still has to give, and the size
announced when it was opened. -/
structure LargeBody where
  reader : Octets
  size : Nat
  deriving DecidableEq, Repr

inductive MessageBody
  | small (bytes : Octets)
  | large (body : LargeBody)
  deriving DecidableEq, Repr

def MessageBody.octets : MessageBody → Octets
  | .small bytes => bytes
  | .large body => body.reader

def HeaderMap.insert (toLowercase : Text → Text) (headers : HeaderMap) (name value : Text) :
    HeaderMap :=
  AList.insert (toLowercase name)
    ((headers.lookup (toLowercase name)).getD [] ++ [value]) headers

structure MimeMessage where
  headers : HeaderMap
  body : MessageBody

structure Mail where
  id : MailId
  state : MailState
  sender : Option MailAddress
  recipients : List MailAddress
  message : MimeMessage
  attributes : AList fun _ : Text => AttributeValue
  remoteAddr : Option IpAddr
  remoteHost : Option Text
  messageId : MessageId

def Mail.new (id : MailId) (messageId : MessageId) (sender : Option MailAddress)
    (recipients : List MailAddress) (message : MimeMessage) (remoteAddr : Option IpAddr)
    (remoteHost : Option Text) : Mail :=
  { id, state := .root, sender, recipients, message, attributes := ∅,
    remoteAddr, remoteHost, messageId }

def Mail.getAttribute (mail : Mail) (key : Text) : Option AttributeValue :=
  mail.attributes.lookup key

def Mail.setAttribute (mail : Mail) (key : Text) (value : AttributeValue) : Mail :=
  { mail with attributes := mail.attributes.insert key value }

/-- The matched portion, under a fresh identifier, and the mail reduced to the
recipients that were not matched. -/
def Mail.split (mail : Mail) (fresh : MailId) (matched : List MailAddress) : Mail × Mail :=
  ({ mail with id := fresh, recipients := matched },
    { mail with recipients := mail.recipients.filter fun recipient =>
        !matched.contains recipient })

@[simp] theorem Mail.split_unmatched_recipients (mail : Mail) (fresh : MailId)
    (matched : List MailAddress) :
    (mail.split fresh matched).2.recipients =
      mail.recipients.filter fun recipient => !matched.contains recipient := rfl

theorem Mail.split_filter (mail : Mail) (fresh : MailId) (selects : MailAddress → Bool) :
    (mail.split fresh (mail.recipients.filter selects)).2.recipients =
      mail.recipients.filter fun recipient => !selects recipient := by
  rw [Mail.split_unmatched_recipients]
  apply List.filter_congr
  intro recipient member
  simp [member]

def noteFromAlice (recipients : List MailAddress) : Mail :=
  Mail.new ⟨0⟩ ⟨0⟩ (some alice) recipients ⟨∅, .small []⟩ none none

end Rusmes
