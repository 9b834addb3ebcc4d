import Rusmes.Smtp.Auth
import Rusmes.Smtp.Bdat
import Rusmes.Smtp.Network
import Rusmes.Smtp.Parser

/-!
The session of `session/mod.rs` and its command handlers. The services a session
calls (authentication backend, mailbox store, rate limiter, clock, random numbers)
answer from a world `σ` that every call may change.
-/

namespace Rusmes

open WireText

variable {σ : Type}

inductive SmtpState
  | initial
  | connected
  | authenticated
  | mailTransaction
  | data
  | quit
  deriving DecidableEq, Repr

structure SmtpTransaction where
  sender : Option MailAddress := none
  recipients : List MailAddress := []
  heloName : Option Text := none
  messageSize : Nat := 0
  declaredSize : Option Nat := none
  bodyType : Option Text := none
  smtputf8 : Bool := false
  bdatState : Option BdatState := none
  deriving DecidableEq, Repr

def SmtpTransaction.new : SmtpTransaction := {}

def SmtpTransaction.reset (transaction : SmtpTransaction) : SmtpTransaction :=
  { heloName := transaction.heloName }

def SmtpTransaction.isValid (transaction : SmtpTransaction) : Bool :=
  transaction.sender.isSome && !transaction.recipients.isEmpty

structure SmtpConfig where
  hostname : Text := "localhost".toList
  maxMessageSize : Nat := 10 * 1024 * 1024
  requireAuth : Bool := false
  enableStarttls : Bool := false
  checkRecipientExists : Bool := true
  rejectUnknownRecipients : Bool := true
  relayNetworks : List Text := ["127.0.0.0/8".toList]
  localDomains : List Text := ["localhost".toList]
  dataTempfileThreshold : Nat := 1024 * 1024
  dataSpillDir : Text := "/tmp".toList
  deriving DecidableEq, Repr

structure RecipientCacheEntry where
  «exists» : Bool
  cachedAt : Nat
  deriving DecidableEq, Repr

structure ScramState where
  clientFirstBare : Text
  serverFirst : Text
  nonce : Text
  username : Text
  storedKey : Octets
  serverKey : Octets
  deriving DecidableEq, Repr

structure ScramCredentials where
  salt : Octets
  iterationCount : Nat
  storedKey : Octets
  serverKey : Octets
  deriving DecidableEq, Repr

structure SmtpSession where
  remoteAddr : IpAddr
  state : SmtpState := .connected
  transaction : SmtpTransaction := .new
  config : SmtpConfig
  authenticated : Bool := false
  username : Option Text := none
  relayingAllowed : Bool := false
  recipientCache : AList fun _ : Text => RecipientCacheEntry := ∅
  cramMd5Challenge : Option Text := none
  scramState : Option ScramState := none
  ehloUsed : Bool := false

/-- The services behind a session. `now` is a monotonic clock in nanoseconds. -/
structure SmtpServices (σ : Type) extends Crypto where
  parseNetwork : Text → Option IpNetwork
  allowMessageIpAndSender : IpAddr → Text → σ → Bool × σ
  authenticate : Username → Text → σ → Except Text Bool × σ
  verifyIdentity : Username → σ → Except Text Bool × σ
  fetchScramCredentials : Text → σ → Except Text (Option ScramCredentials) × σ
  listMailboxes : Username → σ → Except Text (List Text) × σ
  unixSeconds : σ → Except Text Nat × σ
  randomBytes : Nat → σ → Except Text Octets × σ
  now : σ → Nat × σ

abbrev Handled (σ : Type) := Except Text SmtpResponse × SmtpSession × σ

namespace SmtpSession

def handleHelo (session : SmtpSession) (domain : Text) : SmtpResponse × SmtpSession :=
  if session.state ≠ .connected ∧ session.state ≠ .authenticated then
    (.badSequence "Out of sequence".toList, session)
  else
    (.ok (session.config.hostname ++ " Hello ".toList ++ session.remoteAddr.display),
      { session with
        transaction.heloName := some domain, ehloUsed := false, state := .authenticated })

def ehloExtensions (config : SmtpConfig) : List Text :=
  ["SIZE ".toList ++ decimal config.maxMessageSize, "8BITMIME".toList, "SMTPUTF8".toList,
    "PIPELINING".toList, "CHUNKING".toList] ++
  (if config.enableStarttls then ["STARTTLS".toList] else []) ++
  (if config.requireAuth then ["AUTH PLAIN LOGIN CRAM-MD5 SCRAM-SHA-256".toList] else [])

def handleEhlo (session : SmtpSession) (domain : Text) : SmtpResponse × SmtpSession :=
  if session.state ≠ .connected ∧ session.state ≠ .authenticated then
    (.badSequence "Out of sequence".toList, session)
  else
    (.ehlo session.config.hostname (ehloExtensions session.config),
      { session with
        transaction.heloName := some domain, ehloUsed := true, state := .authenticated })

/-- One parameter of MAIL: the session with it recorded, or the reply that
rejects the command. -/
def mailParam (session : SmtpSession) (param : MailParam) : Except SmtpResponse SmtpSession :=
  let keyword := toUppercase param.keyword
  if keyword = "SIZE".toList then
    match param.value with
    | none => .error (.parameterError "SIZE parameter requires a value".toList)
    | some text =>
        match parseUsize text with
        | none => .error (.parameterError "Invalid SIZE parameter".toList)
        | some size =>
            if size > session.config.maxMessageSize then
              .error (.storageExceeded ("Message size ".toList ++ decimal size ++
                " exceeds maximum ".toList ++ decimal session.config.maxMessageSize))
            else .ok { session with transaction.declaredSize := some size }
  else if keyword = "BODY".toList then
    match param.value with
    | none => .error (.parameterError "BODY parameter requires a value".toList)
    | some body =>
        if toUppercase body = "7BIT".toList ∨ toUppercase body = "8BITMIME".toList then
          .ok { session with transaction.bodyType := some (toUppercase body) }
        else
          .error (.parameterNotImplemented ("Unsupported BODY type: ".toList ++ body))
  else if keyword = "SMTPUTF8".toList then
    if ¬session.ehloUsed then
      .error (.parameterError "SMTPUTF8 requires EHLO (not HELO)".toList)
    else if param.value = none then
      .ok { session with transaction.smtputf8 := true }
    else
      .error (.parameterError "SMTPUTF8 parameter must not have a value".toList)
  else .ok session

/-- The parameters in turn. What the ones before a rejected one have recorded
stays recorded. -/
def mailParams (session : SmtpSession) : List MailParam → Option SmtpResponse × SmtpSession
  | [] => (none, session)
  | param :: rest =>
      match mailParam session param with
      | .error response => (some response, session)
      | .ok session => mailParams session rest

def handleMail (services : SmtpServices σ) (session : SmtpSession) (sender : MailAddress)
    (params : List MailParam) (world : σ) : SmtpResponse × SmtpSession × σ :=
  if session.state ≠ .authenticated then
    (.badSequence "Must send HELO/EHLO first".toList, session, world)
  else if session.config.requireAuth ∧ ¬session.authenticated then
    (.badSequence "Authentication required".toList, session, world)
  else
    let (allowed, world) :=
      services.allowMessageIpAndSender session.remoteAddr sender.asString world
    if ¬allowed then
      (.mailboxUnavailable "Rate limit exceeded, please try again later".toList, session, world)
    else
      match mailParams session params with
      | (some response, session) => (response, session, world)
      | (none, session) =>
          if hasNonAscii sender.localPart ∧ ¬session.transaction.smtputf8 then
            (.new 501 ("5.5.4 Non-ASCII local-part requires SMTPUTF8 parameter " ++
              "(RFC 6531 §3.4)").toList, session, world)
          else
            (.ok ("Sender ".toList ++ sender.asString ++ " OK".toList),
              { session with transaction.sender := some sender, state := .mailTransaction }, world)

def isRelayAllowed (services : SmtpServices σ) (session : SmtpSession) (recipient : MailAddress) :
    Bool :=
  session.authenticated ||
  isIpInNetworks services.parseNetwork session.remoteAddr session.config.relayNetworks ||
  session.config.localDomains.any fun localDomain =>
    eqIgnoreAsciiCase recipient.domain.asStr localDomain

def cacheTtl : Nat := 300 * 1000000000

def validateRecipient (services : SmtpServices σ) (session : SmtpSession) (recipient : MailAddress)
    (world : σ) : Except Text Bool × SmtpSession × σ :=
  let query (world : σ) : Except Text Bool × SmtpSession × σ :=
    match Username.new recipient.localPart with
    | .error _ => (.error "Invalid username".toList, session, world)
    | .ok username =>
        match services.listMailboxes username world with
        | (.error error, world) => (.error error, session, world)
        | (.ok mailboxes, world) =>
            let (cachedAt, world) := services.now world
            let entry : RecipientCacheEntry := ⟨!mailboxes.isEmpty, cachedAt⟩
            (.ok !mailboxes.isEmpty,
              { session with
                recipientCache := session.recipientCache.insert recipient.asString entry },
              world)
  match session.recipientCache.lookup recipient.asString with
  | none => query world
  | some entry =>
      let (now, world) := services.now world
      if now - entry.cachedAt < cacheTtl then (.ok entry.exists, session, world)
      else query world

def rejectsRecipient (services : SmtpServices σ) (session : SmtpSession) (recipient : MailAddress)
    (world : σ) : Bool × SmtpSession × σ :=
  if session.config.checkRecipientExists ∧ ¬session.authenticated ∧ ¬session.relayingAllowed then
    match session.validateRecipient services recipient world with
    | (.ok true, session, world) => (false, session, world)
    | (.ok false, session, world) => (session.config.rejectUnknownRecipients, session, world)
    | (.error _, session, world) => (false, session, world)
  else (false, session, world)

def handleRcpt (services : SmtpServices σ) (session : SmtpSession) (recipient : MailAddress)
    (world : σ) : SmtpResponse × SmtpSession × σ :=
  if session.state ≠ .mailTransaction then
    (.badSequence "Must send MAIL FROM first".toList, session, world)
  else if ¬session.isRelayAllowed services recipient then
    (.new 550 "5.7.1 Relaying denied".toList, session, world)
  else
    match session.rejectsRecipient services recipient world with
    | (true, session, world) =>
        (.new 550 ("5.1.1 User unknown: ".toList ++ recipient.asString), session, world)
    | (false, session, world) =>
        (.ok ("Recipient ".toList ++ recipient.asString ++ " OK".toList),
          { session with
            transaction.recipients := session.transaction.recipients ++ [recipient] },
          world)

def handleData (session : SmtpSession) : SmtpResponse × SmtpSession :=
  if session.state ≠ .mailTransaction then
    (.badSequence "Must send RCPT TO first".toList, session)
  else if ¬session.transaction.isValid then
    (.badSequence "Need at least one recipient".toList, session)
  else (.startData, { session with state := .data })

/-- BDAT is checked and the accumulator set up; the chunk itself is left to the
caller. -/
def handleBdat (session : SmtpSession) (chunkSize : Nat) : SmtpResponse × SmtpSession :=
  if session.state ≠ .mailTransaction then
    (.badSequence "Must send MAIL FROM and RCPT TO first".toList, session)
  else if ¬session.transaction.isValid then
    (.badSequence "Need sender and at least one recipient".toList, session)
  else
    let bdatState := session.transaction.bdatState.getD (.new session.config.maxMessageSize)
    let session := { session with transaction.bdatState := some bdatState }
    let size := (bdatState.totalSize + chunkSize) % usizeBound
    if size > session.config.maxMessageSize then
      (.storageExceeded ("Message size ".toList ++ decimal size ++ " exceeds maximum ".toList ++
        decimal session.config.maxMessageSize), session)
    else (.ok (decimal chunkSize ++ " octets received".toList), session)

def handleRset (session : SmtpSession) : SmtpResponse × SmtpSession :=
  (.okSimple, { session with transaction := session.transaction.reset, state := .authenticated })

def handleQuit (session : SmtpSession) : SmtpResponse × SmtpSession :=
  (.closing, { session with state := .quit })

def handleStarttls (session : SmtpSession) : SmtpResponse × SmtpSession :=
  if ¬session.config.enableStarttls then
    (.notImplemented "STARTTLS not available".toList, session)
  else (.new 220 "Ready to start TLS".toList, session)

def handleAuthPlain (services : SmtpServices σ) (session : SmtpSession) (response : Text)
    (world : σ) : SmtpResponse × SmtpSession × σ :=
  let failed := SmtpResponse.new 535 "5.7.8 Authentication failed".toList
  match parsePlainAuth services.toCrypto response with
  | .error _ => (failed, session, world)
  | .ok (username, password) =>
      match Username.new username with
      | .error _ => (failed, session, world)
      | .ok user =>
          match services.authenticate user password world with
          | (.ok true, world) =>
              (.new 235 "2.7.0 Authentication successful".toList,
                { session with authenticated := true, username := some username }, world)
          | (.ok false, world) => (failed, session, world)
          | (.error _, world) => (failed, session, world)

def littleEndian (octets : Octets) : Nat :=
  octets.foldr (fun octet value => octet.toNat + 256 * value) 0

def generateCramMd5Challenge (services : SmtpServices σ) (hostname : Text) (world : σ) :
    Except Text Text × σ :=
  match services.unixSeconds world with
  | (.error error, world) => (.error error, world)
  | (.ok timestamp, world) =>
      match services.randomBytes 8 world with
      | (.error error, world) => (.error error, world)
      | (.ok random, world) =>
          (.ok ('<' :: decimal timestamp ++ '.' :: decimal (littleEndian random) ++
            '@' :: hostname ++ ['>']), world)

def handleAuthCramMd5 (services : SmtpServices σ) (session : SmtpSession) (world : σ) :
    Handled σ :=
  match generateCramMd5Challenge services session.config.hostname world with
  | (.error error, world) => (.error error, session, world)
  | (.ok challenge, world) =>
      (.ok (.new 334 (encodeChallenge services.toCrypto challenge)),
        { session with cramMd5Challenge := some challenge }, world)

/-- The pending challenge is taken whatever the answer; no answer authenticates. -/
def handleCramMd5Response (services : SmtpServices σ) (session : SmtpSession) (line : Text)
    (world : σ) : Handled σ :=
  match session.cramMd5Challenge with
  | none => (.error "No CRAM-MD5 challenge pending".toList, session, world)
  | some _ =>
      let session := { session with cramMd5Challenge := none }
      if line = "*".toList then
        (.ok (.new 501 "5.7.0 Authentication aborted".toList), session, world)
      else
        match decodeResponse services.toCrypto line >>= parseCramMd5Response with
        | .error error => (.error error, session, world)
        | .ok (username, _) =>
            match Username.new username with
            | .error _ => (.error "Invalid username".toList, session, world)
            | .ok user =>
                match services.verifyIdentity user world with
                | (.error error, world) => (.error error, session, world)
                | (.ok _, world) =>
                    (.ok (.new 535 "5.7.8 Authentication credentials invalid".toList),
                      session, world)

def hexEncode (octets : Octets) : Text :=
  octets.flatMap fun octet => hexDigits 2 octet.toNat

def generateScramServerNonce (services : SmtpServices σ) (world : σ) : Except Text Text × σ :=
  match services.randomBytes 16 world with
  | (.error error, world) => (.error error, world)
  | (.ok random, world) => (.ok (hexEncode random), world)

def decodeScramMessage (services : SmtpServices σ) (encoded : Text) : Except Text Text := do
  let decoded ← services.base64Decode (trim encoded)
  decodeOctets decoded

def handleAuthScramSha256 (services : SmtpServices σ) (session : SmtpSession)
    (initialResponse : Option Text) (world : σ) : Handled σ :=
  match initialResponse with
  | none => (.ok (.new 334 []), session, world)
  | some encoded =>
      match decodeScramMessage services encoded >>= parseScramClientFirst with
      | .error error => (.error error, session, world)
      | .ok first =>
          match generateScramServerNonce services world with
          | (.error error, world) => (.error error, session, world)
          | (.ok serverNonce, world) =>
              match services.fetchScramCredentials first.username world with
              | (.ok none, world) =>
                  (.ok (.new 504
                    "5.5.4 SCRAM-SHA-256 mechanism not available for this user".toList),
                    session, world)
              | (.error _, world) =>
                  (.ok (.new 454 "4.7.0 Temporary authentication failure".toList), session, world)
              | (.ok (some credentials), world) =>
                  let nonce := first.nonce ++ serverNonce
                  let serverFirst := "r=".toList ++ nonce ++ ",s=".toList ++
                    services.base64Encode credentials.salt ++ ",i=".toList ++
                    decimal credentials.iterationCount
                  let pending : ScramState := {
                    clientFirstBare := first.bare
                    serverFirst := serverFirst
                    nonce := nonce
                    username := first.username
                    storedKey := credentials.storedKey
                    serverKey := credentials.serverKey }
                  (.ok (.new 334 (services.base64Encode (encodeUtf8 serverFirst))),
                    { session with scramState := some pending }, world)

def scramAuthMessage (pending : ScramState) (final : ScramClientFinal) : Text :=
  pending.clientFirstBare ++ ',' :: pending.serverFirst ++ ',' :: final.withoutProof

def handleScramClientFinal (services : SmtpServices σ) (session : SmtpSession) (line : Text) :
    Except Text SmtpResponse × SmtpSession :=
  match session.scramState with
  | none => (.error "No SCRAM state".toList, session)
  | some pending =>
      let session := { session with scramState := none }
      let invalid := SmtpResponse.new 535 "5.7.8 Authentication credentials invalid".toList
      if line = "*".toList then (.ok (.new 501 "5.7.0 Authentication aborted".toList), session)
      else
        match decodeScramMessage services line >>= parseScramClientFinal with
        | .error error => (.error error, session)
        | .ok final =>
            if final.nonce ≠ pending.nonce then (.ok invalid, session)
            else
              let authMessage := scramAuthMessage pending final
              match verifyScramClientProof services.toCrypto pending.storedKey authMessage
                  final.proof with
              | .error error => (.error error, session)
              | .ok false => (.ok invalid, session)
              | .ok true =>
                  match computeScramServerSignature services.toCrypto pending.serverKey
                      authMessage with
                  | .error error => (.error error, session)
                  | .ok signature =>
                      let serverFinal := services.base64Encode
                        (encodeUtf8 ("v=".toList ++ signature))
                      (.ok (.new 235 ("2.7.0 ".toList ++ serverFinal ++
                        " Authentication successful".toList)),
                        { session with authenticated := true, username := some pending.username })

def handleAuth (services : SmtpServices σ) (session : SmtpSession) (mechanism : Text)
    (initialResponse : Option Text) (world : σ) : Handled σ :=
  let mechanism := toUppercase mechanism
  if ¬session.config.requireAuth then
    (.ok (.notImplemented "AUTH not available".toList), session, world)
  else if mechanism = "CRAM-MD5".toList then
    session.handleAuthCramMd5 services world
  else if mechanism = "SCRAM-SHA-256".toList then
    session.handleAuthScramSha256 services initialResponse world
  else if mechanism = "PLAIN".toList then
    match initialResponse with
    | some response =>
        let (reply, session, world) := session.handleAuthPlain services response world
        (.ok reply, session, world)
    | none => (.ok (.new 334 []), session, world)
  else if mechanism = "LOGIN".toList then
    (.ok (.new 334 "VXNlcm5hbWU6".toList), session, world)
  else
    (.ok (.parameterNotImplemented "Authentication mechanism not supported".toList), session, world)

def handleCommand (services : SmtpServices σ) (session : SmtpSession) (command : SmtpCommand)
    (world : σ) : Handled σ :=
  let still (handled : SmtpResponse × SmtpSession) : Handled σ :=
    (.ok handled.1, handled.2, world)
  let moved (handled : SmtpResponse × SmtpSession × σ) : Handled σ :=
    (.ok handled.1, handled.2.1, handled.2.2)
  match command with
  | .helo domain => still (session.handleHelo domain)
  | .ehlo domain => still (session.handleEhlo domain)
  | .mail sender params => moved (session.handleMail services sender params world)
  | .rcpt recipient _ => moved (session.handleRcpt services recipient world)
  | .data => still session.handleData
  | .bdat chunkSize _ => still (session.handleBdat chunkSize)
  | .rset => still session.handleRset
  | .noop => still (.okSimple, session)
  | .quit => still session.handleQuit
  | .startTls => still session.handleStarttls
  | .auth mechanism initialResponse =>
      session.handleAuth services mechanism initialResponse world
  | .vrfy _ | .expn _ | .help _ => still (.notImplemented "Command not implemented".toList, session)

end SmtpSession

end Rusmes
