import Rusmes.Auth.Sasl
import Rusmes.Pop3.Command
import Rusmes.Storage.Types

/-!
One POP3 session: `session.rs`. A line is handled up to the answer, or up to the point
where a login has been accepted and the maildrop has still to be locked and loaded;
those two steps are functions of their own, since other sessions run in between.
-/

namespace Rusmes

open WireText

inductive Pop3State
  | authorization
  | transaction
  | update
  deriving DecidableEq, Repr

structure Pop3Config where
  hostname : Text
  greeting : Text
  enableStls : Bool
  saslMechanisms : List Text
  deriving DecidableEq, Repr

structure MessageInfo where
  messageId : MessageId
  uid : UInt32
  size : Nat
  deleted : Bool
  deriving DecidableEq, Repr

inductive LoginReport
  | password (username : Username) (password : Text) (answer : Except Text Bool)
  | digest (username : Username) (timestamp secret digest : Text)
  | sasl (answer : Except Text SaslStep)

/-- The guard is the user whose maildrop this session has locked. -/
structure Pop3Session where
  state : Pop3State
  username : Option Username
  mailboxId : Option MailboxId
  messages : List MessageInfo
  apopTimestamp : Option Text
  maildropGuard : Option Text
  pendingSasl : Option SaslMechanism
  deriving DecidableEq, Repr

structure Pop3Services (β σ : Type) extends CaseMapping where
  config : Pop3Config
  crypto : SaslCrypto
  md5 : Octets → Octets
  alphanumeric : Char → Bool
  authBackend : AuthBackend β
  messageStore : MessageStore σ
  mailboxStore : MailboxStore σ

structure Pop3World (β σ : Type) where
  session : Pop3Session
  auth : β
  store : σ

inductive Pop3Handled
  | answer (response : Pop3Response)
  | enter (username : Username) (report : LoginReport)

namespace Pop3Session

variable {β σ : Type} (services : Pop3Services β σ)

def new (timestamp : Text) : Pop3Session :=
  ⟨.authorization, none, none, [], some timestamp, none, none⟩

def wrongState : Pop3Response := .err "Command not valid in this state".toList

def mailToWire (mail : Mail) : Text :=
  mail.message.headers.fields.flatMap
      (fun field => field.1 ++ ": ".toList ++ field.2 ++ "\r\n".toList) ++
    "\r\n".toList ++ decodeLossy mail.message.body.octets

def computeApopDigest (timestamp secret : Text) : Text :=
  hexEncode (services.md5 (encodeUtf8 timestamp ++ encodeUtf8 secret))

def constantTimeCompare (first second : Text) : Bool :=
  octetLength first = octetLength second &&
    (List.zipWith (· ^^^ ·) (encodeUtf8 first) (encodeUtf8 second)).foldl (· ||| ·) 0 = 0

def numbered (session : Pop3Session) (number : UInt32) : Option MessageInfo :=
  if number = 0 then none else session.messages[number.toNat - 1]?

def remaining (session : Pop3Session) : List MessageInfo :=
  session.messages.filter fun message => !message.deleted

def totalSize (messages : List MessageInfo) : Nat := (messages.map MessageInfo.size).sum

def listing (session : Pop3Session) (value : MessageInfo → Nat) : List Text :=
  (session.messages.zipIdx.filter fun entry => !entry.1.deleted).map fun entry =>
    decimal (entry.2 + 1) ++ ' ' :: decimal (value entry.1)

def sizeSummary (count size : Nat) : Text :=
  decimal count ++ " messages (".toList ++ decimal size ++ " octets)".toList

abbrev Handler (β σ : Type) := Pop3World β σ → Pop3Handled × Pop3World β σ

def answered (world : Pop3World β σ) (response : Pop3Response) : Pop3Handled × Pop3World β σ :=
  (.answer response, world)

def handleUser (name : Text) : Handler β σ := fun world =>
  if world.session.state ≠ .authorization then answered world wrongState
  else
    match Username.new name with
    | .error _ => answered world (.err "Invalid username".toList)
    | .ok username =>
        answered { world with session := { world.session with username := some username } }
          (.ok (name ++ " is a valid mailbox".toList))

def handlePass (password : Text) : Handler β σ := fun world =>
  if world.session.state ≠ .authorization then answered world wrongState
  else
    match world.session.username with
    | none => answered world (.err "No username specified".toList)
    | some username =>
        let (answer, auth) := services.authBackend.authenticate username password world.auth
        let world := { world with auth }
        match answer with
        | .ok true => (.enter username (.password username password answer), world)
        | .ok false => answered world (.err "Authentication failed".toList)
        | .error _ => answered world (.err "Authentication error".toList)

def handleStat : Handler β σ := fun world =>
  if world.session.state ≠ .transaction then answered world wrongState
  else
    let messages := world.session.remaining
    answered world (.ok (decimal messages.length ++ ' ' :: decimal (totalSize messages)))

def describe (value : MessageInfo → Nat) (number : UInt32) (world : Pop3World β σ) :
    Pop3Handled × Pop3World β σ :=
  match world.session.numbered number with
  | none => answered world (.err "No such message".toList)
  | some message =>
      if message.deleted then answered world (.err "Message deleted".toList)
      else answered world (.ok (decimal number.toNat ++ ' ' :: decimal (value message)))

def handleList (number : Option UInt32) : Handler β σ := fun world =>
  if world.session.state ≠ .transaction then answered world wrongState
  else
    match number with
    | some number => describe MessageInfo.size number world
    | none =>
        let messages := world.session.remaining
        answered world (.okMultiline (sizeSummary messages.length (totalSize messages))
          (world.session.listing MessageInfo.size))

def handleUidl (number : Option UInt32) : Handler β σ := fun world =>
  if world.session.state ≠ .transaction then answered world wrongState
  else
    match number with
    | some number => describe (fun message => message.uid.toNat) number world
    | none =>
        answered world (.okMultiline "UIDL".toList
          (world.session.listing fun message => message.uid.toNat))

def retrieve (number : UInt32) (present : MessageInfo → Text → Pop3Response) : Handler β σ :=
  fun world =>
    if world.session.state ≠ .transaction then answered world wrongState
    else
      match world.session.numbered number with
      | none => answered world (.err "No such message".toList)
      | some message =>
          if message.deleted then answered world (.err "Message deleted".toList)
          else
            let (found, store) := services.messageStore.getMessage message.messageId world.store
            let world := { world with store }
            match found with
            | .ok (some mail) => answered world (present message (mailToWire mail))
            | .ok none => answered world (.err "Message not found".toList)
            | .error _ => answered world (.err "Failed to retrieve message".toList)

def handleRetr (number : UInt32) : Handler β σ :=
  retrieve services number fun message content =>
    .okMultiline (decimal message.size ++ " octets".toList) (textLines content)

def handleTop (number lines : UInt32) : Handler β σ :=
  retrieve services number fun _ content =>
    let allLines := textLines content
    let headerEnd := allLines.findIdx List.isEmpty
    .okMultiline "TOP".toList (allLines.take (headerEnd + 1 + lines.toNat))

def handleDele (number : UInt32) : Handler β σ := fun world =>
  if world.session.state ≠ .transaction then answered world wrongState
  else
    match world.session.numbered number with
    | none => answered world (.err "No such message".toList)
    | some message =>
        if message.deleted then answered world (.err "Message already deleted".toList)
        else
          let marked := world.session.messages.set (number.toNat - 1) { message with deleted := true }
          answered { world with session := { world.session with messages := marked } }
            (.ok ("Message ".toList ++ decimal number.toNat ++ " deleted".toList))

def handleNoop : Handler β σ := fun world =>
  if world.session.state ≠ .transaction then answered world wrongState
  else answered world (.ok "NOOP".toList)

def handleRset : Handler β σ := fun world =>
  if world.session.state ≠ .transaction then answered world wrongState
  else
    let messages := world.session.messages.map fun message => { message with deleted := false }
    answered { world with session := { world.session with messages } }
      (.ok ("Maildrop has ".toList ++ decimal messages.length ++ " messages".toList))

def handleQuit : Handler β σ := fun world =>
  let leaving := { world with session := { world.session with state := .update } }
  match world.session.state with
  | .transaction =>
      let deleted := world.session.messages.countP MessageInfo.deleted
      answered leaving (.ok ("POP3 server signing off (".toList ++ decimal deleted ++
        " messages deleted)".toList))
  | _ => answered leaving (.ok "POP3 server signing off".toList)

def handleApop (name digest : Text) : Handler β σ := fun world =>
  if world.session.state ≠ .authorization then answered world wrongState
  else
    match world.session.apopTimestamp with
    | none => answered world (.err "APOP not available".toList)
    | some timestamp =>
        match Username.new name with
        | .error _ => answered world (.err "Invalid username".toList)
        | .ok username =>
            let (secret, auth) := services.authBackend.getApopSecret username world.auth
            let world := { world with auth }
            match secret with
            | .error _ => answered world (.err "APOP authentication failed".toList)
            | .ok secret =>
                if constantTimeCompare (services.toLowercase digest)
                    (computeApopDigest services timestamp secret) then
                  (.enter username (.digest username timestamp secret digest), world)
                else answered world (.err "Authentication failed".toList)

def handleCapa : Handler β σ := fun world =>
  let authorizing := world.session.state = .authorization
  let stls := if authorizing ∧ services.config.enableStls then ["STLS".toList] else []
  let sasl :=
    if authorizing ∧ services.config.saslMechanisms ≠ [] then
      ["SASL ".toList ++ joinWith [' '] services.config.saslMechanisms]
    else []
  answered world (.okMultiline "Capability list follows".toList
    (["USER".toList, "TOP".toList, "UIDL".toList] ++ stls ++ sasl))

def handleStls : Handler β σ := fun world =>
  if world.session.state ≠ .authorization then answered world wrongState
  else if ¬services.config.enableStls then answered world (.err "STLS not available".toList)
  else
    answered { world with session := { world.session with username := none } }
      (.ok "Begin TLS negotiation".toList)

/-- One step of the mechanism that was parked, which is parked again while the exchange
goes on. -/
def drivePendingSasl (entropy : Entropy) (input : Octets) : Handler β σ := fun world =>
  match world.session.pendingSasl with
  | none => answered world (.err "No SASL exchange in progress".toList)
  | some mechanism =>
      let (answer, after) := SaslMechanism.step services.crypto services.authBackend entropy input
        ⟨mechanism, world.auth⟩
      let settled : Pop3World β σ :=
        { world with session := { world.session with pendingSasl := none }, auth := after.backend }
      let parked : Pop3World β σ :=
        { world with
          session := { world.session with pendingSasl := some after.mechanism }
          auth := after.backend }
      match answer with
      | .ok (.done true (some username)) => (.enter username (.sasl answer), settled)
      | .ok (.done _ _) => answered settled (.err "Authentication failed".toList)
      | .ok (.challenge data) => answered parked (.cont (decodeLossy data))
      | .ok .proceed => answered parked (.cont [])
      | .error _ => answered settled (.err "Authentication exchange failed".toList)

def parkAndDrive (entropy : Entropy) (mechanism : SaslMechanism) (input : Octets) : Handler β σ :=
  fun world =>
    drivePendingSasl services entropy input
      { world with session := { world.session with pendingSasl := some mechanism } }

def handleAuth (entropy : Entropy) (mechanism initialResponse : Option Text) : Handler β σ :=
  fun world =>
    if world.session.state ≠ .authorization then answered world wrongState
    else
      match mechanism with
      | none =>
          answered world (.okMultiline "Supported authentication mechanisms".toList
            services.config.saslMechanisms)
      | some name =>
          if world.session.pendingSasl.isSome then
            answered world (.err "AUTH already in progress".toList)
          else
            let server : SaslServer :=
              ⟨⟨services.config.saslMechanisms, services.config.hostname⟩⟩
            if ¬server.isMechanismEnabled name then
              answered world (.err ("Authentication mechanism '".toList ++ name ++
                "' not supported".toList))
            else
              match server.createMechanism name with
              | .error _ => answered world (.err "Authentication mechanism unavailable".toList)
              | .ok mechanism =>
                  match initialResponse with
                  | none =>
                      if eqIgnoreAsciiCase name "PLAIN".toList then
                        answered
                          { world with
                            session := { world.session with pendingSasl := some mechanism } }
                          (.cont [])
                      else parkAndDrive services entropy mechanism [] world
                  | some response =>
                      if response = ['='] then parkAndDrive services entropy mechanism [] world
                      else
                        match services.crypto.base64Decode response with
                        | .error _ =>
                            answered world (.err "Invalid base64 in initial response".toList)
                        | .ok input => parkAndDrive services entropy mechanism input world

def handleSaslContinuation (entropy : Entropy) (line : Text) : Handler β σ :=
  fun world =>
    let dropped := { world with session := { world.session with pendingSasl := none } }
    if line = ['*'] then answered dropped (.err "Authentication aborted".toList)
    else if line = ['='] then drivePendingSasl services entropy [] world
    else
      match services.crypto.base64Decode line with
      | .error _ => answered dropped (.err "Invalid base64 in SASL response".toList)
      | .ok input => drivePendingSasl services entropy input world

def handleCommand (entropy : Entropy) : Pop3Command → Handler β σ
  | .user name => handleUser name
  | .pass password => handlePass services password
  | .stat => handleStat
  | .list number => handleList number
  | .retr number => handleRetr services number
  | .dele number => handleDele number
  | .noop => handleNoop
  | .rset => handleRset
  | .quit => handleQuit
  | .top number lines => handleTop services number lines
  | .uidl number => handleUidl number
  | .apop name digest => handleApop services name digest
  | .capa => handleCapa services
  | .stls => handleStls services
  | .auth mechanism initialResponse => handleAuth services entropy mechanism initialResponse

/-- What a line is taken for: nothing, a message to the parked mechanism, or a command. -/
inductive Reading
  | blank
  | continuation (line : Text)
  | command (command : Pop3Command)
  | garbled
  deriving DecidableEq, Repr

def readLine (session : Pop3Session) (line : Text) : Reading :=
  if trim line = [] then .blank
  else if session.pendingSasl.isSome then .continuation (trim line)
  else
    match Pop3Parser.parseCommand services.alphanumeric (trim line) with
    | .ok command => .command command
    | .error _ => .garbled

def handleLine (entropy : Entropy) (line : Text) : Handler β σ := fun world =>
  match world.session.readLine services line with
  | .blank => answered world (.err "Empty command".toList)
  | .continuation line => handleSaslContinuation services entropy line world
  | .command command => handleCommand services entropy command world
  | .garbled => answered world (.err "Syntax error in command".toList)

/-- The messages that are still there, numbered by where the search found them. When one
cannot be read the ones before it are already in the session. -/
def loadMessages : Nat → List MessageId → List MessageInfo → σ →
    Except Text Unit × List MessageInfo × σ
  | _, [], loaded, store => (.ok (), loaded, store)
  | index, id :: ids, loaded, store =>
      let (found, store) := services.messageStore.getMessage id store
      match found with
      | .error error => (.error error, loaded, store)
      | .ok none => loadMessages (index + 1) ids loaded store
      | .ok (some mail) =>
          let info : MessageInfo :=
            ⟨id, UInt32.ofNat (index + 1), octetLength (mailToWire mail), false⟩
          loadMessages (index + 1) ids (loaded ++ [info]) store

def loadMailbox (username : Username) (session : Pop3Session) (store : σ) :
    Except Text Unit × Pop3Session × σ :=
  let (inbox, store) := services.mailboxStore.getUserInbox username store
  match inbox with
  | .error error => (.error error, session, store)
  | .ok none => (.error "INBOX not found for user".toList, session, store)
  | .ok (some inbox) =>
      let session := { session with mailboxId := some inbox }
      let (ids, store) := services.messageStore.search inbox .all store
      match ids with
      | .error error => (.error error, session, store)
      | .ok ids =>
          let (outcome, messages, store) := loadMessages services 0 ids [] store
          (outcome, { session with messages }, store)

def deletedIds (session : Pop3Session) : List MessageId :=
  (session.messages.filter MessageInfo.deleted).map MessageInfo.messageId

end Pop3Session

end Rusmes
