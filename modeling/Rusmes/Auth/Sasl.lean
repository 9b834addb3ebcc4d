import Rusmes.Library.Effect
import Rusmes.Proto.Mail
import Rusmes.Smtp.Auth

/-!
The SASL mechanisms of `sasl.rs`. A mechanism is a record that each client
message steps, together with the authentication backend it asks; the backend is
any program with a state of its own, and the hashes are parameters.
-/

namespace Rusmes

open WireText

structure AuthBackend (β : Type) where
  authenticate : Username → Text → Effect Text β Bool
  verifyIdentity : Username → Effect Text β Bool
  getScramParams : Text → Effect Text β (Octets × UInt32)
  getScramStoredKey : Text → Effect Text β Octets
  getScramServerKey : Text → Effect Text β Octets
  getApopSecret : Username → Effect Text β Text
  verifyBearerToken : Text → Effect Text β Username

structure SaslCrypto extends Crypto where
  hmacMd5 : Octets → Octets → Except Text Octets

structure Entropy where
  seconds : Except Text Nat
  word : Except Text UInt64
  nonce : BitVec 128

inductive SaslState
  | initial
  | challenge
  | finalData
  | success
  | failed
  deriving DecidableEq, Repr

inductive SaslStep
  | done (success : Bool) (username : Option Username)
  | challenge (data : Octets)
  | proceed
  deriving DecidableEq, Repr

structure Exchange (μ β : Type) where
  mechanism : μ
  backend : β

namespace Exchange

variable {μ β : Type} {Value : Type}

def ask (call : Effect Text β Value) : Effect Text (Exchange μ β) Value :=
  Effect.focus Exchange.backend (fun exchange backend => { exchange with backend }) call

def become (mechanism : μ) : Effect Text (Exchange μ β) Unit :=
  Effect.modify fun exchange => { exchange with mechanism }

end Exchange

def MailError.display : MailError → Text
  | .invalidAddress message => "Invalid email address: ".toList ++ message.toList
  | .invalidDomain message => "Invalid domain: ".toList ++ message.toList
  | .invalidUsername message => "Invalid username: ".toList ++ message.toList
  | .nonAsciiLocalPartRequiresSmtputf8 =>
      "non-ASCII local-part requires SMTPUTF8 negotiation (RFC 6531)".toList

def usernameOf (text : Text) : Except Text Username :=
  (Username.new text).mapError MailError.display

def decodeText (context : String) (octets : Octets) : Except Text Text :=
  match decodeUtf8 octets with
  | some text => .ok text
  | none => .error ("Invalid UTF-8 in ".toList ++ context.toList)

def hexEncode (octets : Octets) : Text :=
  octets.flatMap fun octet => hexDigits 2 octet.toNat

def rejected : SaslStep := .done false none

def verdict (success : Bool) (username : Username) : SaslStep :=
  .done success (if success then some username else none)

structure PlainMechanism where
  state : SaslState
  deriving DecidableEq, Repr

namespace PlainMechanism

def new : PlainMechanism := ⟨.initial⟩

def reset (_ : PlainMechanism) : PlainMechanism := ⟨.initial⟩

def parsePlainResponse (response : Octets) : Except Text (Text × Text) :=
  match response.splitOn 0 with
  | [_, username, password] => do
      let username ← decodeText "username" username
      let password ← decodeText "password" password
      .ok (username, password)
  | _ => .error "Invalid PLAIN response: expected 3 null-separated parts".toList

def step {β : Type} (backend : AuthBackend β) (response : Octets) :
    Effect Text (Exchange PlainMechanism β) SaslStep := do
  let exchange ← Effect.read
  if exchange.mechanism.state ≠ .initial then
    Exchange.become ⟨.failed⟩
    return rejected
  let (username, password) ← Effect.ofExcept (parsePlainResponse response)
  let username ← Effect.ofExcept (usernameOf username)
  let success ← Effect.unwrapOr false (Exchange.ask (backend.authenticate username password))
  Exchange.become ⟨if success then .success else .failed⟩
  return verdict success username

end PlainMechanism

structure LoginMechanism where
  state : SaslState
  username : Option Text
  stepCount : Nat
  deriving DecidableEq, Repr

namespace LoginMechanism

def new : LoginMechanism := ⟨.initial, none, 0⟩

def reset (_ : LoginMechanism) : LoginMechanism := ⟨.initial, none, 0⟩

def step {β : Type} (crypto : SaslCrypto) (backend : AuthBackend β) (response : Octets) :
    Effect Text (Exchange LoginMechanism β) SaslStep := do
  let exchange ← Effect.read
  let mechanism := exchange.mechanism
  match mechanism.stepCount with
  | 0 =>
      Exchange.become { mechanism with stepCount := 1, state := .challenge }
      return .challenge (encodeUtf8 (crypto.base64Encode (encodeUtf8 "Username:".toList)))
  | 1 =>
      let username ← Effect.ofExcept (decodeText "username" response)
      Exchange.become ⟨.challenge, some username, 2⟩
      return .challenge (encodeUtf8 (crypto.base64Encode (encodeUtf8 "Password:".toList)))
  | 2 =>
      let password ← Effect.ofExcept (decodeText "password" response)
      match mechanism.username with
      | none => Effect.fail "No username stored".toList
      | some username =>
          let username ← Effect.ofExcept (usernameOf username)
          let success ← Effect.unwrapOr false
            (Exchange.ask (backend.authenticate username password))
          Exchange.become { mechanism with state := if success then .success else .failed }
          return verdict success username
  | _ =>
      Exchange.become { mechanism with state := .failed }
      return rejected

end LoginMechanism

structure CramMd5Mechanism where
  state : SaslState
  challenge : Option Text
  hostname : Text
  deriving DecidableEq, Repr

namespace CramMd5Mechanism

def new (hostname : Text) : CramMd5Mechanism := ⟨.initial, none, hostname⟩

def reset (mechanism : CramMd5Mechanism) : CramMd5Mechanism :=
  { mechanism with state := .initial, challenge := none }

def generateChallenge (entropy : Entropy) (mechanism : CramMd5Mechanism) : Except Text Text := do
  let timestamp ← entropy.seconds
  let random ← entropy.word
  .ok ("<".toList ++ decimal timestamp ++ '.' :: decimal random.toNat ++
    '@' :: mechanism.hostname ++ ">".toList)

def computeHmac (crypto : SaslCrypto) (password challenge : Text) : Except Text Text := do
  let mac ← crypto.hmacMd5 (encodeUtf8 password) (encodeUtf8 challenge)
  .ok (hexEncode mac)

def parseResponse (response : Text) : Except Text (Text × Text) :=
  match splitOnce ' ' response with
  | some parts => .ok parts
  | none => .error "Invalid CRAM-MD5 response: expected 'username hmac'".toList

def step {β : Type} (crypto : SaslCrypto) (backend : AuthBackend β) (entropy : Entropy)
    (response : Octets) : Effect Text (Exchange CramMd5Mechanism β) SaslStep := do
  let exchange ← Effect.read
  let mechanism := exchange.mechanism
  match mechanism.state with
  | .initial =>
      let challenge ← Effect.ofExcept (mechanism.generateChallenge entropy)
      Exchange.become { mechanism with state := .challenge, challenge := some challenge }
      return .challenge (encodeUtf8 (crypto.base64Encode (encodeUtf8 challenge)))
  | .challenge =>
      match mechanism.challenge with
      | none => Effect.fail "No challenge stored".toList
      | some _ =>
          let response ← Effect.ofExcept (decodeText "response" response)
          let (username, clientHmac) ← Effect.ofExcept (parseResponse response)
          let username ← Effect.ofExcept (usernameOf username)
          let userExists ← Exchange.ask (backend.verifyIdentity username)
          if ¬userExists ∨ octetLength clientHmac ≠ 32 then
            Exchange.become { mechanism with state := .failed }
            return rejected
          Exchange.become { mechanism with state := .success }
          return .done true (some username)
  | _ =>
      Exchange.become { mechanism with state := .failed }
      return rejected

end CramMd5Mechanism

structure ScramSha256Mechanism where
  state : SaslState
  clientFirstBare : Option Text
  serverNonce : Option Text
  username : Option Text
  salt : Option Octets
  iterations : Option UInt32
  authenticatedUser : Option Username
  deriving DecidableEq, Repr

namespace ScramSha256Mechanism

def new : ScramSha256Mechanism := ⟨.initial, none, none, none, none, none, none⟩

def reset (_ : ScramSha256Mechanism) : ScramSha256Mechanism :=
  ⟨.initial, none, none, none, none, none, none⟩

def generateServerNonce (entropy : Entropy) : Text :=
  hexDigits 32 entropy.nonce.toNat

def parseClientFirst : Text → Except Text ScramClientFirst := parseScramClientFirst

def parseClientFinal : Text → Except Text ScramClientFinal := parseScramClientFinal

def verifyClientProof (crypto : SaslCrypto) : Octets → Text → Text → Except Text Bool :=
  verifyScramClientProof crypto.toCrypto

def computeServerSignature (crypto : SaslCrypto) : Octets → Text → Except Text Text :=
  computeScramServerSignature crypto.toCrypto

def serverFirst (crypto : SaslCrypto) (nonce : Text) (salt : Octets) (iterations : UInt32) : Text :=
  "r=".toList ++ nonce ++ ",s=".toList ++ crypto.base64Encode salt ++
    ",i=".toList ++ decimal iterations.toNat

def authMessage (clientFirstBare serverFirst withoutProof : Text) : Text :=
  clientFirstBare ++ ',' :: serverFirst ++ ',' :: withoutProof

def required {Value : Type} (message : String) (found : Option Value) : Except Text Value :=
  match found with
  | some value => .ok value
  | none => .error message.toList

def step {β : Type} (crypto : SaslCrypto) (backend : AuthBackend β) (entropy : Entropy)
    (response : Octets) : Effect Text (Exchange ScramSha256Mechanism β) SaslStep := do
  let exchange ← Effect.read
  let mechanism := exchange.mechanism
  match mechanism.state with
  | .initial =>
      let message ← Effect.ofExcept (decodeText "client-first" response)
      let first ← Effect.ofExcept (parseClientFirst message)
      let (salt, iterations) ← Exchange.ask (backend.getScramParams first.username)
      let fullNonce := first.nonce ++ generateServerNonce entropy
      Exchange.become
        { mechanism with
          username := some first.username, clientFirstBare := some first.bare,
          serverNonce := some fullNonce, salt := some salt, iterations := some iterations,
          state := .challenge }
      return .challenge (encodeUtf8 (serverFirst crypto fullNonce salt iterations))
  | .challenge =>
      let message ← Effect.ofExcept (decodeText "client-final" response)
      let final ← Effect.ofExcept (parseClientFinal message)
      if final.channelBinding ≠ "biws".toList then
        Exchange.become { mechanism with state := .failed }
        return rejected
      let expectedNonce ← Effect.ofExcept (required "No server nonce stored" mechanism.serverNonce)
      if final.nonce ≠ expectedNonce then
        Exchange.become { mechanism with state := .failed }
        return rejected
      let username ← Effect.ofExcept (required "No username stored" mechanism.username)
      let storedKey ← Exchange.ask (backend.getScramStoredKey username)
      let serverKey ← Exchange.ask (backend.getScramServerKey username)
      let clientFirstBare ← Effect.ofExcept
        (required "No client-first-bare stored" mechanism.clientFirstBare)
      let salt ← Effect.ofExcept (required "No salt stored in SCRAM state" mechanism.salt)
      let iterations ← Effect.ofExcept
        (required "No iterations stored in SCRAM state" mechanism.iterations)
      let authMessage := authMessage clientFirstBare
        (serverFirst crypto expectedNonce salt iterations) final.withoutProof
      let valid ← Effect.ofExcept (verifyClientProof crypto storedKey authMessage final.proof)
      if ¬valid then
        Exchange.become { mechanism with state := .failed }
        return rejected
      let serverSignature ← Effect.ofExcept (computeServerSignature crypto serverKey authMessage)
      Exchange.become { mechanism with state := .finalData }
      let authenticated ← Effect.ofExcept (usernameOf username)
      Exchange.become
        { mechanism with state := .finalData, authenticatedUser := some authenticated }
      return .challenge (encodeUtf8 ("v=".toList ++ serverSignature))
  | .finalData =>
      Exchange.become { mechanism with state := .success }
      return .done true mechanism.authenticatedUser
  | _ =>
      Exchange.become { mechanism with state := .failed }
      return rejected

end ScramSha256Mechanism

structure XOAuth2Mechanism where
  state : SaslState
  deriving DecidableEq, Repr

namespace XOAuth2Mechanism

def new : XOAuth2Mechanism := ⟨.initial⟩

def reset (_ : XOAuth2Mechanism) : XOAuth2Mechanism := ⟨.initial⟩

def parseXoauth2Response (response : Octets) : Except Text (Text × Text) := do
  let response ← decodeText "XOAUTH2 response" response
  let field (name : Text) :=
    scramAttribute ["user=".toList, "auth=Bearer ".toList] name (splitOn '\x01' response)
  match field "user=".toList, field "auth=Bearer ".toList with
  | none, _ => .error "Missing user in XOAUTH2 response".toList
  | some _, none => .error "Missing bearer token in XOAUTH2 response".toList
  | some user, some token => .ok (user, token)

def step {β : Type} (backend : AuthBackend β) (response : Octets) :
    Effect Text (Exchange XOAuth2Mechanism β) SaslStep := do
  let exchange ← Effect.read
  if exchange.mechanism.state ≠ .initial then
    Exchange.become ⟨.failed⟩
    return rejected
  let (username, token) ← Effect.ofExcept (parseXoauth2Response response)
  let username ← Effect.ofExcept (usernameOf username)
  let userExists ← Exchange.ask (backend.verifyIdentity username)
  let success := userExists && !token.isEmpty
  Exchange.become ⟨if success then .success else .failed⟩
  return verdict success username

end XOAuth2Mechanism

inductive SaslMechanism
  | plain (mechanism : PlainMechanism)
  | login (mechanism : LoginMechanism)
  | cramMd5 (mechanism : CramMd5Mechanism)
  | scramSha256 (mechanism : ScramSha256Mechanism)
  | xoauth2 (mechanism : XOAuth2Mechanism)
  deriving DecidableEq, Repr

namespace SaslMechanism

def boxed {μ β : Type} (wrap : μ → SaslMechanism) (mechanism : μ)
    (action : Effect Text (Exchange μ β) SaslStep) :
    Effect Text (Exchange SaslMechanism β) SaslStep := fun exchange =>
  let (reply, after) := action ⟨mechanism, exchange.backend⟩
  (reply, ⟨wrap after.mechanism, after.backend⟩)

def step {β : Type} (crypto : SaslCrypto) (backend : AuthBackend β) (entropy : Entropy)
    (response : Octets) : Effect Text (Exchange SaslMechanism β) SaslStep := fun exchange =>
  match exchange.mechanism with
  | .plain mechanism =>
      boxed .plain mechanism (PlainMechanism.step backend response) exchange
  | .login mechanism =>
      boxed .login mechanism (LoginMechanism.step crypto backend response) exchange
  | .cramMd5 mechanism =>
      boxed .cramMd5 mechanism (CramMd5Mechanism.step crypto backend entropy response) exchange
  | .scramSha256 mechanism =>
      boxed .scramSha256 mechanism
        (ScramSha256Mechanism.step crypto backend entropy response) exchange
  | .xoauth2 mechanism =>
      boxed .xoauth2 mechanism (XOAuth2Mechanism.step backend response) exchange

def reset : SaslMechanism → SaslMechanism
  | .plain mechanism => .plain mechanism.reset
  | .login mechanism => .login mechanism.reset
  | .cramMd5 mechanism => .cramMd5 mechanism.reset
  | .scramSha256 mechanism => .scramSha256 mechanism.reset
  | .xoauth2 mechanism => .xoauth2 mechanism.reset

end SaslMechanism

structure SaslConfig where
  enabledMechanisms : List Text
  hostname : Text
  deriving DecidableEq, Repr

structure SaslServer where
  config : SaslConfig
  deriving DecidableEq, Repr

namespace SaslServer

def isMechanismEnabled (server : SaslServer) (mechanism : Text) : Bool :=
  server.config.enabledMechanisms.any fun enabled => eqIgnoreAsciiCase enabled mechanism

def createMechanism (server : SaslServer) (name : Text) : Except Text SaslMechanism :=
  if ¬server.isMechanismEnabled name then
    .error ("Mechanism ".toList ++ name ++ " is not enabled".toList)
  else
    let upper := toUppercase name
    if upper = "PLAIN".toList then .ok (.plain .new)
    else if upper = "LOGIN".toList then .ok (.login .new)
    else if upper = "CRAM-MD5".toList then .ok (.cramMd5 (.new server.config.hostname))
    else if upper = "SCRAM-SHA-256".toList then .ok (.scramSha256 .new)
    else if upper = "XOAUTH2".toList then .ok (.xoauth2 .new)
    else .error ("Unknown mechanism: ".toList ++ name)

end SaslServer

end Rusmes
