import Rusmes.Smtp.Data

/-!
The connection loop of `SmtpSessionHandler::handle`. A connection is a machine: a
turn reads one line and answers it, and after an accepted DATA the next turn reads
the message. What the client sends is a list of octets fixed in advance; an error
of the stream is its end. A stream to the client that has failed stays broken.
-/

namespace Rusmes

open WireText Machine

variable {σ : Type}

structure Connection (σ : Type) where
  session : SmtpSession
  input : Octets
  world : σ
  receiving : Bool := false
  broken : Bool := false
  replies : List SmtpResponse := []
  queued : List AcceptedMessage := []

inductive Ending
  | connectionTimeout
  | idleTimeout
  | endOfInput
  | readError
  | writeError
  | quit
  deriving DecidableEq, Repr

namespace Connection

def writeResponse (env : SmtpEnv σ) (response : SmtpResponse) (connection : Connection σ) :
    Bool × Connection σ :=
  if connection.broken then (false, connection)
  else
    match env.send (encodeUtf8 response.format) connection.world with
    | (true, world) =>
        (true, { connection with world, replies := connection.replies ++ [response] })
    | (false, world) => (false, { connection with world, broken := true })

def reply (env : SmtpEnv σ) (response : SmtpResponse) (connection : Connection σ) :
    Progress (Connection σ) (Ending × Connection σ) :=
  match connection.writeResponse env response with
  | (true, connection) => .next connection
  | (false, connection) => .ended (.writeError, connection)

def close (env : SmtpEnv σ) (ending : Ending) (response : SmtpResponse)
    (connection : Connection σ) : Progress (Connection σ) (Ending × Connection σ) :=
  match connection.writeResponse env response with
  | (true, connection) => .ended (ending, connection)
  | (false, connection) => .ended (.writeError, connection)

def cramMd5Turn (env : SmtpEnv σ) (line : Text) (connection : Connection σ) :
    Progress (Connection σ) (Ending × Connection σ) :=
  let (result, session, world) :=
    connection.session.handleCramMd5Response env.toSmtpServices line connection.world
  let response :=
    match result with
    | .ok response => response
    | .error _ => .new 535 "5.7.8 Authentication credentials invalid".toList
  reply env response { connection with session, world }

def scramTurn (env : SmtpEnv σ) (line : Text) (connection : Connection σ) :
    Progress (Connection σ) (Ending × Connection σ) :=
  match connection.session.handleScramClientFinal env.toSmtpServices line with
  | (.ok response, session) => reply env response { connection with session }
  | (.error _, session) =>
      reply env (.new 535 "5.7.8 Authentication credentials invalid".toList)
        { connection with session := { session with scramState := none } }

def commandTurn (env : SmtpEnv σ) (command : SmtpCommand) (connection : Connection σ) :
    Progress (Connection σ) (Ending × Connection σ) :=
  let (result, session, world) :=
    connection.session.handleCommand env.toSmtpServices command connection.world
  let response :=
    match result with
    | .ok response => response
    | .error _ => .localError "Internal server error".toList
  match writeResponse env response { connection with session, world } with
  | (false, connection) => .ended (.writeError, connection)
  | (true, connection) =>
      if connection.session.state = .quit then .ended (.quit, connection)
      else
        .next { connection with
          receiving := command = .data ∧ connection.session.state = .data }

def lineTurn (env : SmtpEnv σ) (line : Text) (connection : Connection σ) :
    Progress (Connection σ) (Ending × Connection σ) :=
  if connection.session.cramMd5Challenge.isSome then cramMd5Turn env line connection
  else if connection.session.scramState.isSome then scramTurn env line connection
  else
    match parseCommandSmtputf8 line connection.session.ehloUsed with
    | .error _ => reply env (.syntaxError "Command not recognized".toList) connection
    | .ok command => commandTurn env command connection

inductive Awaited (σ : Type)
  | line (line : Text) (connection : Connection σ)
  | left (progress : Progress (Connection σ) (Ending × Connection σ))

def awaitLine (env : SmtpEnv σ) (connection : Connection σ) : Awaited σ :=
  match env.connectionTimeout connection.world with
  | (true, world) =>
      .left (close env .connectionTimeout
        (.new 421 "4.4.2 Connection timeout - closing connection".toList)
        { connection with world })
  | (false, world) =>
      match env.idleTimeout world with
      | (true, world) =>
          .left (close env .idleTimeout
            (.new 421 "4.4.2 Connection timed out due to inactivity".toList)
            { connection with world })
      | (false, world) =>
          match readLine connection.input with
          | (.eof, input) => .left (.ended (.endOfInput, { connection with world, input }))
          | (.invalid, input) => .left (.ended (.readError, { connection with world, input }))
          | (.line line, input) => .line (trim line) { connection with world, input }

def finishMessage (env : SmtpEnv σ) (response : SmtpResponse) (messages : List AcceptedMessage)
    (connection : Connection σ) : Except Text Unit × Connection σ :=
  match connection.writeResponse env response with
  | (false, connection) => (.error "write failed".toList, connection)
  | (true, connection) =>
      (.ok (), { connection with
        queued := connection.queued ++ messages
        session := { connection.session with
          transaction := connection.session.transaction.reset, state := .authenticated } })

def exceedsDeclared (transaction : SmtpTransaction) (messageSize : Nat) : Option Nat :=
  transaction.declaredSize.filter fun declaredSize => messageSize > maxAllowed declaredSize

def handleDataInput (env : SmtpEnv σ) (connection : Connection σ) :
    Except Text Unit × Connection σ :=
  let received :=
    receiveMessage env connection.session.config connection.input connection.world
  let connection := { connection with input := received.input, world := received.world }
  match received.verdict with
  | .failed error => (.error error, connection)
  | .tooLarge =>
      finishMessage env (.storageExceeded ("Message size exceeds maximum ".toList ++
        decimal connection.session.config.maxMessageSize)) [] connection
  | .complete sink messageSize =>
      match exceedsDeclared connection.session.transaction messageSize with
      | some declaredSize =>
          finishMessage env (.storageExceeded ("Message size ".toList ++ decimal messageSize ++
            " exceeds declared size ".toList ++ decimal declaredSize)) [] connection
      | none =>
          match buildMessageBody env sink connection.world with
          | (.error _, world) =>
              finishMessage env (.localError "Internal error finalising message body".toList) []
                { connection with world }
          | (.ok body, world) =>
              let session :=
                { connection.session with transaction.messageSize := messageSize }
              finishMessage env (.ok "Message accepted for delivery".toList)
                [⟨session.transaction.sender, session.transaction.recipients, body⟩]
                { connection with session, world }

def dataTurn (env : SmtpEnv σ) (connection : Connection σ) :
    Progress (Connection σ) (Ending × Connection σ) :=
  match handleDataInput env connection with
  | (.ok (), connection) => .next { connection with receiving := false }
  | (.error _, connection) =>
      reply env (.localError "Error reading message data".toList)
        { connection with receiving := false }

def turn (env : SmtpEnv σ) (connection : Connection σ) :
    Progress (Connection σ) (Ending × Connection σ) :=
  if connection.receiving then dataTurn env connection
  else
    match awaitLine env connection with
    | .line line connection => lineTurn env line connection
    | .left progress => progress

end Connection

structure Opening (σ : Type) where
  config : SmtpConfig
  remoteAddr : IpAddr
  input : Octets
  world : σ

namespace Opening

open Connection

def accept (env : SmtpEnv σ) (opening : Opening σ) :
    Progress (Connection σ) (Ending × Connection σ) :=
  reply env (.serviceReady opening.config.hostname)
    { session := { remoteAddr := opening.remoteAddr, config := opening.config }
      input := opening.input
      world := opening.world }

def run (env : SmtpEnv σ) (opening : Opening σ) (rounds : Nat) :
    Progress (Connection σ) (Ending × Connection σ) :=
  match opening.accept env with
  | .ended result => .ended result
  | .next start => iterate (turn env) rounds start

def Reaches (env : SmtpEnv σ) (opening : Opening σ) (rounds : Nat) (connection : Connection σ) :
    Prop :=
  opening.run env rounds = .next connection

theorem reaches_next {env : SmtpEnv σ} {opening : Opening σ} {rounds : Nat}
    {connection after : Connection σ} (reached : opening.Reaches env rounds connection)
    (went : connection.turn env = .next after) : opening.Reaches env (rounds + 1) after := by
  simp only [Reaches, run] at reached ⊢
  split at reached
  · cases reached
  · exact iterate_succ_next.mpr ⟨connection, reached, went⟩

theorem reaches_induction {env : SmtpEnv σ} {opening : Opening σ}
    (holds : Nat → Connection σ → Prop)
    (initially : ∀ start, opening.accept env = .next start → holds 0 start)
    (keeps : ∀ rounds connection after, opening.Reaches env rounds connection →
      holds rounds connection → connection.turn env = .next after → holds (rounds + 1) after)
    {rounds : Nat} {connection : Connection σ} (reached : opening.Reaches env rounds connection) :
    holds rounds connection := by
  cases accepted : opening.accept env with
  | ended result => simp [Reaches, run, accepted] at reached
  | next start =>
      simp only [Reaches, run, accepted] at reached keeps
      exact iterate_induction (initially start accepted) keeps reached

end Opening

def openServices : SmtpServices Unit where
  base64Encode := fun octets => octets.map fun octet => Char.ofNat octet.toNat
  base64Decode := fun text =>
    if text = "AGFsaWNlAHNlY3JldA==".toList then .ok (encodeUtf8 "\x00alice\x00secret".toList)
    else .error "Invalid symbol".toList
  sha256 := fun octets => octets
  hmacSha256 := fun key _ => .ok key
  parseNetwork := fun _ => none
  allowMessageIpAndSender := fun _ _ world => (true, world)
  authenticate := fun user password world =>
    (.ok (user.text = "alice".toList ∧ password = "secret".toList), world)
  verifyIdentity := fun _ world => (.ok false, world)
  fetchScramCredentials := fun _ world => (.ok none, world)
  listMailboxes := fun _ world => (.ok ["INBOX".toList], world)
  unixSeconds := fun world => (.ok 0, world)
  randomBytes := fun count world => (.ok (List.replicate count 0), world)
  now := fun world => (0, world)

def openEnv : SmtpEnv Unit where
  toSmtpServices := openServices
  tempfile := fun _ world => (.ok (), world)
  send := fun _ world => (true, world)
  connectionTimeout := fun world => (false, world)
  idleTimeout := fun world => (false, world)

def mxConfig : SmtpConfig where
  relayNetworks := []
  localDomains := ["example.com".toList]

def scripted (config : SmtpConfig) (script : String) : Opening Unit :=
  ⟨config, .v4 0, encodeUtf8 script.toList, ()⟩

end Rusmes
