import Rusmes.Proto.Folding
import Rusmes.Proto.Multipart

/-!
The delivery status notifications of `bounce.rs`, with the codes of `dsn.rs` they report.
-/

namespace Rusmes

open WireText

structure EnhancedStatusCode where
  «class» : Nat
  subject : Nat
  detail : Nat
  deriving DecidableEq, Repr

def EnhancedStatusCode.display (code : EnhancedStatusCode) : Text :=
  decimal code.class ++ '.' :: (decimal code.subject ++ '.' :: decimal code.detail)

def smtpToEnhancedCode (smtpCode : Nat) : EnhancedStatusCode :=
  match smtpCode with
  | 250 => ⟨2, 0, 0⟩
  | 251 => ⟨2, 1, 5⟩
  | 421 => ⟨4, 4, 2⟩
  | 450 => ⟨4, 2, 1⟩
  | 451 => ⟨4, 3, 0⟩
  | 452 => ⟨4, 2, 2⟩
  | 454 => ⟨4, 7, 0⟩
  | 500 => ⟨5, 5, 2⟩
  | 501 => ⟨5, 5, 4⟩
  | 502 => ⟨5, 5, 1⟩
  | 503 => ⟨5, 5, 1⟩
  | 504 => ⟨5, 5, 4⟩
  | 550 => ⟨5, 1, 1⟩
  | 551 => ⟨5, 1, 6⟩
  | 552 => ⟨5, 2, 2⟩
  | 553 => ⟨5, 1, 3⟩
  | 554 => ⟨5, 7, 1⟩
  | code =>
      if 200 ≤ code ∧ code < 300 then ⟨2, 0, 0⟩
      else if 400 ≤ code ∧ code < 500 then ⟨4, 0, 0⟩
      else ⟨5, 0, 0⟩

def smtpDiagnosticText (smtpCode : Nat) : Text :=
  match smtpCode with
  | 421 => "Service not available, closing transmission channel".toList
  | 450 => "Requested mail action not taken: mailbox unavailable".toList
  | 451 => "Requested action aborted: local error in processing".toList
  | 452 => "Requested action not taken: insufficient system storage".toList
  | 454 => "Temporary authentication failure".toList
  | 500 => "Syntax error, command unrecognized".toList
  | 501 => "Syntax error in parameters or arguments".toList
  | 502 => "Command not implemented".toList
  | 503 => "Bad sequence of commands".toList
  | 504 => "Command parameter not implemented".toList
  | 550 => "Requested action not taken: mailbox unavailable".toList
  | 551 => "User not local; please try forward path".toList
  | 552 => "Requested mail action aborted: exceeded storage allocation".toList
  | 553 => "Requested action not taken: mailbox name not allowed".toList
  | 554 => "Transaction failed".toList
  | _ => "Unknown error".toList

inductive SmtpStatusCode
  | temporaryFailure (code : UInt16)
  | permanentFailure (code : UInt16)
  deriving DecidableEq, Repr

namespace SmtpStatusCode

def fromCode (code : UInt16) : Option SmtpStatusCode :=
  if 400 ≤ code ∧ code ≤ 499 then some (.temporaryFailure code)
  else if 500 ≤ code ∧ code ≤ 599 then some (.permanentFailure code)
  else none

def code : SmtpStatusCode → Nat
  | .temporaryFailure code => code.toNat
  | .permanentFailure code => code.toNat

def isPermanent : SmtpStatusCode → Bool
  | .temporaryFailure _ => false
  | .permanentFailure _ => true

def enhancedCode (status : SmtpStatusCode) : Text := (smtpToEnhancedCode status.code).display

def diagnosticText (status : SmtpStatusCode) : Text := smtpDiagnosticText status.code

end SmtpStatusCode

inductive DsnAction
  | failed
  | delayed
  | delivered
  | relayed
  | expanded
  deriving DecidableEq, Repr

def DsnAction.asStr : DsnAction → Text
  | .failed => "failed".toList
  | .delayed => "delayed".toList
  | .delivered => "delivered".toList
  | .relayed => "relayed".toList
  | .expanded => "expanded".toList

structure DsnRecipient where
  finalRecipient : Text
  action : DsnAction
  status : Text
  diagnosticCode : Option Text
  remoteMta : Option Text
  lastAttemptDate : Option Nat

structure DeliveryStatusNotification where
  reportingMta : Text
  arrivalDate : Nat
  recipients : List DsnRecipient

/-- The dates of a calendar in the form of RFC 2822, always in the time zone `+0000`; `none` for
a timestamp that has no date. -/
structure DateFormat where
  toRfc2822 : Nat → Option Text
  plain : ∀ timestamp text, toRfc2822 timestamp = some text →
    ∀ character ∈ text, character.isAlphanum = true ∨ character ∈ [' ', ',', ':', '+']

def formatDate (dates : DateFormat) (timestamp : Nat) : Text :=
  (dates.toRfc2822 timestamp).getD ("timestamp:".toList ++ decimal timestamp)

def pushLine (label value : Text) : Text := label ++ value ++ ['\n']

def pushOptional (label : Text) : Option Text → Text
  | none => []
  | some value => pushLine label value

def DsnRecipient.fields (dates : DateFormat) (recipient : DsnRecipient) : Text :=
  pushLine "Final-Recipient: rfc822; ".toList recipient.finalRecipient ++
    pushLine "Action: ".toList recipient.action.asStr ++
    pushLine "Status: ".toList recipient.status ++
    pushOptional "Diagnostic-Code: smtp; ".toList recipient.diagnosticCode ++
    pushOptional "Remote-MTA: dns; ".toList recipient.remoteMta ++
    pushOptional "Last-Attempt-Date: ".toList (recipient.lastAttemptDate.map (formatDate dates)) ++
    ['\n']

namespace DeliveryStatusNotification

def generateMessageBody (dates : DateFormat) (dsn : DeliveryStatusNotification) : Text :=
  pushLine "Reporting-MTA: dns; ".toList dsn.reportingMta ++
    pushLine "Arrival-Date: ".toList (formatDate dates dsn.arrivalDate) ++ ['\n'] ++
    dsn.recipients.flatMap (DsnRecipient.fields dates)

def generateHumanText (dsn : DeliveryStatusNotification) (errorCode : SmtpStatusCode)
    (errorMessage : Text) : Text :=
  "This is an automatically generated Delivery Status Notification.\n\n".toList ++
    (if errorCode.isPermanent then
      "YOUR MESSAGE COULD NOT BE DELIVERED to the following recipients:\n\n".toList
    else "DELIVERY OF YOUR MESSAGE HAS BEEN DELAYED to the following recipients:\n\n".toList) ++
    dsn.recipients.flatMap (fun recipient => pushLine "  ".toList recipient.finalRecipient) ++
    ['\n'] ++
    pushLine "Reason: ".toList (decimal errorCode.code ++ ' ' :: errorMessage) ++
    pushLine "Enhanced Status Code: ".toList errorCode.enhancedCode ++
    pushLine "Diagnostic: ".toList errorCode.diagnosticText ++ ['\n'] ++
    (if errorCode.isPermanent then "No further delivery attempts will be made.\n".toList
    else
      "Delivery will be retried. You will be notified if delivery continues to fail.\n".toList)

end DeliveryStatusNotification

structure BounceMailet where
  reportingMta : Text
  includeHeaders : Bool
  includeBody : Bool
  maxBodySize : Nat

def Mail.textAttribute (mail : Mail) (key : Text) : Option Text :=
  (mail.getAttribute key).bind AttributeValue.asStr

def originalHeaderNames : List Text :=
  ["Subject".toList, "From".toList, "To".toList, "Date".toList, "Cc".toList, "Message-ID".toList]

def appendOriginalHeaders (mail : Mail) : Text :=
  originalHeaderNames.flatMap fun name =>
    pushOptional (name ++ ": ".toList) (mail.textAttribute ("header.".toList ++ name))

def dsnBoundary : Text := "rusmes-dsn-boundary-7b3a9f1e".toList

namespace BounceMailet

/-- `none` where the body is cut within a character. -/
def truncatedBody (mailet : BounceMailet) (body : Text) : Option Text :=
  if mailet.maxBodySize < octetLength body then
    (splitAtOctet mailet.maxBodySize body).map fun parts => parts.1 ++ "... (truncated)".toList
  else some body

/-- The third part; `none` where a slice of the body panics. -/
def originalPart (mailet : BounceMailet) (mail : Mail) : Option Text :=
  if mailet.includeBody then
    let headers := "Content-Type: message/rfc822\n".toList ++
      "Content-Description: Undelivered Message\n".toList ++ ['\n'] ++ appendOriginalHeaders mail
    match mail.textAttribute "message.body".toList with
    | some body => (mailet.truncatedBody body).map fun text => headers ++ '\n' :: (text ++ ['\n'])
    | none => some headers
  else if mailet.includeHeaders then
    some ("Content-Type: text/rfc822-headers\n".toList ++
      "Content-Description: Undelivered Message Headers\n".toList ++ ['\n'] ++
      appendOriginalHeaders mail)
  else some []

def explanationPart (dsn : DeliveryStatusNotification) (mail : Mail) (errorCode : SmtpStatusCode)
    (errorMessage : Text) : Text :=
  "Content-Type: text/plain; charset=utf-8\n".toList ++
    "Content-Description: Notification\n".toList ++ ['\n'] ++
    dsn.generateHumanText errorCode errorMessage ++ ['\n'] ++
    pushLine "Original Message-ID: ".toList mail.messageId.display ++ ['\n']

def statusPart (dates : DateFormat) (dsn : DeliveryStatusNotification) : Text :=
  "Content-Type: message/delivery-status\n".toList ++
    "Content-Description: Delivery Report\n".toList ++ ['\n'] ++ dsn.generateMessageBody dates

def reportHeaders : Text :=
  "MIME-Version: 1.0\n".toList ++
    ("Content-Type: multipart/report; report-type=delivery-status; boundary=\"".toList ++
      dsnBoundary ++ "\"\n".toList) ++ ['\n']

def reportPreamble : Text := "This is a MIME-encapsulated message.\n\n".toList

def delimiterLine : Text := "--".toList ++ dsnBoundary ++ ['\n']

def generateMultipartReport (mailet : BounceMailet) (dates : DateFormat)
    (dsn : DeliveryStatusNotification) (mail : Mail) (errorCode : SmtpStatusCode)
    (errorMessage : Text) : Option Text :=
  (mailet.originalPart mail).map fun original =>
    reportHeaders ++ reportPreamble ++
      delimiterLine ++ explanationPart dsn mail errorCode errorMessage ++
      delimiterLine ++ statusPart dates dsn ++
      delimiterLine ++ original ++
      ("--".toList ++ dsnBoundary ++ "--\n".toList)

def bounceAction (errorCode : SmtpStatusCode) : DsnAction :=
  if errorCode.isPermanent then .failed else .delayed

/-- The clock is read once for the message and once for each recipient. -/
def notification (mailet : BounceMailet) (clock : Nat → Nat) (mail : Mail)
    (errorCode : SmtpStatusCode) (errorMessage : Text) : DeliveryStatusNotification where
  reportingMta := mailet.reportingMta
  arrivalDate := clock 0
  recipients := mail.recipients.mapIdx fun index recipient =>
    { finalRecipient := recipient.asString
      action := bounceAction errorCode
      status := errorCode.enhancedCode
      diagnosticCode := some (decimal errorCode.code ++ ' ' :: errorMessage)
      remoteMta := mail.textAttribute "smtp.remote_mta".toList
      lastAttemptDate := some (clock (index + 1)) }

def generateBounce (mailet : BounceMailet) (dates : DateFormat) (clock : Nat → Nat) (mail : Mail)
    (errorCode : SmtpStatusCode) (errorMessage : Text) : Option Text :=
  mailet.generateMultipartReport dates (mailet.notification clock mail errorCode errorMessage) mail
    errorCode errorMessage

def bounceError (mail : Mail) : SmtpStatusCode × Text :=
  let number := ((mail.getAttribute "bounce.error_code".toList).bind AttributeValue.asI64).getD 550
  ((SmtpStatusCode.fromCode (UInt16.ofInt number)).getD (.permanentFailure 550),
    (mail.textAttribute "bounce.error_message".toList).getD "Delivery failed".toList)

def service (mailet : BounceMailet) (dates : DateFormat) (clock : Nat → Nat) (mail : Mail) :
    Option Mail :=
  if mail.getAttribute "bounce.required".toList = some (.boolean true) then
    (mailet.generateBounce dates clock mail (bounceError mail).1 (bounceError mail).2).map
      fun bounceBody => (mail.setAttribute "bounce.generated".toList (.boolean true)).setAttribute
        "bounce.body".toList (.string bounceBody)
  else some mail

end BounceMailet

end Rusmes
