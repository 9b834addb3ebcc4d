import Rusmes.Core.Processor
import Rusmes.Imap.SequenceSets
import Rusmes.Library.Table

/-!
The forwarding mailet of `forward.rs`. Rules are found under the text of a recipient and under
`*@` before its domain; what was forwarded to is kept in attributes of the mail.
-/

namespace Rusmes

open WireText

structure ForwardMailet where
  forwardRules : Table Text (List MailAddress)
  maxHops : UInt32
  hostname : Text

def Mail.attributeText (mail : Mail) (name : String) : Option Text :=
  (mail.getAttribute name.toList).bind AttributeValue.asStr

def Mail.extendAttribute (mail : Mail) (name : String) (more : List Text) : Mail :=
  mail.setAttribute name.toList
    (.string (joinWith ", ".toList ((mail.attributeText name).toList ++ more)))

def Mail.setAttributeOnce (mail : Mail) (name : String) (value : Option Text) : Mail :=
  match mail.getAttribute name.toList, value with
  | none, some value => mail.setAttribute name.toList (.string value)
  | _, _ => mail

namespace ForwardMailet

/-- A third check, for recipients of the mail, decides nothing. -/
def checkForwardingLoop (mail : Mail) (forwardTo : MailAddress) : Bool :=
  (mail.attributeText "header.X-Forwarded-To").any (fun addrs =>
      (splitOn ',' addrs).any fun addr => trim addr = forwardTo.asString) ||
    (mail.attributeText "header.X-Forwarded-From").any (· = forwardTo.asString)

def detectCircularPattern (mail : Mail) (forwardTo : MailAddress) : Bool :=
  let chain := (mail.attributeText "header.X-Forwarded-To").elim [] fun addrs =>
    (splitOn ',' addrs).map trim
  0 < (chain.filter (· = forwardTo.asString)).length

def getHopCount (mail : Mail) : UInt32 :=
  match mail.attributeText "header.X-Forwarded-Count" with
  | some count => (parseU32 count).toOption.getD 0
  | none => 0

def addForwardingHeaders (mailet : ForwardMailet) (now : Text) (mail : Mail)
    (forwardTo : List MailAddress) : Mail :=
  let hopCount := getHopCount mail + 1
  let sender := mail.sender.map MailAddress.asString
  let counted := mail.setAttribute "header.X-Forwarded-Count".toList
    (.string (decimal hopCount.toNat))
  let named := counted.setAttributeOnce "header.X-Forwarded-From" sender
  let dated := named.setAttributeOnce "header.X-Forwarded-Date" (some now)
  let signed := dated.extendAttribute "header.X-Forwarded-By" [mailet.hostname]
  let addressed := signed.extendAttribute "header.X-Forwarded-To"
    (forwardTo.map MailAddress.asString)
  addressed.setAttributeOnce "header.X-Forwarded-For" sender

def forwardAddresses (mailet : ForwardMailet) (recipient : MailAddress) : List MailAddress :=
  (mailet.forwardRules.lookup recipient.asString).getD [] ++
    (mailet.forwardRules.lookup ("*@".toList ++ recipient.domain.asStr)).getD []

def stops (mail : Mail) (forwardTo : MailAddress) : Bool :=
  checkForwardingLoop mail forwardTo || detectCircularPattern mail forwardTo

def forwardsToAdd (mailet : ForwardMailet) (mail : Mail) : List MailAddress :=
  mail.recipients.flatMap fun recipient =>
    (mailet.forwardAddresses recipient).filter fun forwardTo => !stops mail forwardTo

def service (mailet : ForwardMailet) (now : Text) (mail : Mail) : MailetAction × Mail :=
  if mailet.maxHops ≤ getHopCount mail then (.continue, mail)
  else
    let forwards := mailet.forwardsToAdd mail
    if forwards = [] then (.continue, mail)
    else
      let marked := mailet.addForwardingHeaders now mail forwards
      (.continue, { marked with recipients := marked.recipients ++ forwards })

end ForwardMailet

end Rusmes
