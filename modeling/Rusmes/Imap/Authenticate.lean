import Rusmes.Auth.Evidence
import Rusmes.Imap.Command
import Rusmes.Imap.Session

/-!
The AUTHENTICATE command of `authenticate.rs`, with and without an initial response.
Without one the mechanism is stepped with an empty message first, which only the
mechanisms whose server speaks first can take.
-/

namespace Rusmes

open WireText ImapResponse

variable {β : Type}

inductive AuthenticateState
  | initial
  | challenge
  | completed
  deriving DecidableEq, Repr

structure AuthenticateContext where
  mechanism : SaslMechanism
  state : AuthenticateState
  tag : Text
  deriving DecidableEq, Repr

structure Authenticating (β : Type) where
  session : ImapSession
  backend : β

/-- An answer, the context of the next step, and the challenge as the mechanism handed it
over, which nothing reads. -/
structure AuthenticateReply where
  response : ImapResponse
  context : Option AuthenticateContext
  challenge : Option Octets

namespace AuthenticateReply

def final (response : ImapResponse) : AuthenticateReply := ⟨response, none, none⟩

end AuthenticateReply

def continuationLine (message : Text) : ImapResponse := ⟨none, ['+'], message⟩

def concludeStep (crypto : SaslCrypto) (tag : Text) (waiting : AuthenticateState)
    (welcome : Username → Text) (session : ImapSession)
    (outcome : Except Text SaslStep × Exchange SaslMechanism β) :
    AuthenticateReply × Authenticating β :=
  let (result, after) := outcome
  match result with
  | .ok (.challenge data) =>
      (⟨continuationLine (crypto.base64Encode data), some ⟨after.mechanism, .challenge, tag⟩,
        some data⟩, ⟨session, after.backend⟩)
  | .ok .proceed =>
      (⟨continuationLine [], some ⟨after.mechanism, waiting, tag⟩, none⟩, ⟨session, after.backend⟩)
  | .ok (.done true (some username)) =>
      (.final (ok tag (welcome username)),
        ⟨{ session with state := .authenticated, username := some username }, after.backend⟩)
  | .ok (.done _ _) =>
      (.final (no tag "[AUTHENTICATIONFAILED] Authentication failed".toList),
        ⟨session, after.backend⟩)
  | .error error =>
      (.final (no tag ("[AUTHENTICATIONFAILED] ".toList ++ error)), ⟨session, after.backend⟩)

def clientData (decoded : Octets) : Octets :=
  if (decodeUtf8 decoded).isSome then decoded else []

def handleAuthenticateStep (crypto : SaslCrypto) (backend : AuthBackend β) (entropy : Entropy)
    (tag : Text) (mechanism : SaslMechanism) (message : Octets) (state : Authenticating β) :
    AuthenticateReply × Authenticating β :=
  concludeStep crypto tag .challenge (fun username => username.text ++ " authenticated".toList)
    state.session (SaslMechanism.step crypto backend entropy message ⟨mechanism, state.backend⟩)

def handleAuthenticateContinue (crypto : SaslCrypto) (backend : AuthBackend β) (entropy : Entropy)
    (context : AuthenticateContext) (line : Text) (state : Authenticating β) :
    AuthenticateReply × Authenticating β :=
  if trim line = ['*'] then (.final (bad context.tag "AUTHENTICATE cancelled".toList), state)
  else
    match crypto.base64Decode (trim line) with
    | .error error => (.final (bad context.tag ("Invalid Base64: ".toList ++ error)), state)
    | .ok decoded =>
        handleAuthenticateStep crypto backend entropy context.tag context.mechanism
          (clientData decoded) state

def handleAuthenticate (crypto : SaslCrypto) (server : SaslServer) (backend : AuthBackend β)
    (entropy : Entropy) (tag name : Text) (initialResponse : Option Text)
    (state : Authenticating β) : AuthenticateReply × Authenticating β :=
  if state.session.state ≠ .notAuthenticated then
    (.final (bad tag "Already authenticated".toList), state)
  else if ¬server.isMechanismEnabled name then
    (.final (no tag ("[AUTHENTICATIONFAILED] Mechanism ".toList ++ name ++
      " not supported".toList)), state)
  else
    match server.createMechanism name with
    | .error error => (.final (no tag ("[AUTHENTICATIONFAILED] ".toList ++ error)), state)
    | .ok mechanism =>
        match initialResponse with
        | some line =>
            match crypto.base64Decode (trim line) with
            | .error error =>
                (.final (bad tag ("Invalid Base64 in initial response: ".toList ++ error)), state)
            | .ok decoded =>
                handleAuthenticateStep crypto backend entropy tag mechanism (clientData decoded)
                  state
        | none =>
            concludeStep crypto tag .initial (fun _ => "AUTHENTICATE completed".toList)
              state.session (SaslMechanism.step crypto backend entropy [] ⟨mechanism, state.backend⟩)

/-! A whole exchange: the command and the lines that follow it. -/

section Exchange

variable (crypto : SaslCrypto) (backend : AuthBackend β) (entropy : Nat → Entropy)

/-- Lines are read as long as there is a context to continue; `turn` counts the steps. -/
def continueAuthenticate (turn : Nat) (reply : AuthenticateReply) :
    List Text → Authenticating β → List AuthenticateReply × Authenticating β
  | [], state => ([reply], state)
  | line :: lines, state =>
      match reply.context with
      | none => ([reply], state)
      | some context =>
          let (next, after) :=
            handleAuthenticateContinue crypto backend (entropy turn) context line state
          let (replies, last) := continueAuthenticate (turn + 1) next lines after
          (reply :: replies, last)

def runAuthenticate (server : SaslServer) (tag name : Text) (initialResponse : Option Text)
    (lines : List Text) (state : Authenticating β) :
    List AuthenticateReply × Authenticating β :=
  let (reply, after) :=
    handleAuthenticate crypto server backend (entropy 0) tag name initialResponse state
  continueAuthenticate crypto backend entropy 1 reply lines after

def acceptedBy (turn : Nat) (exchange : Exchange SaslMechanism β) : List Octets → Option Username
  | [] => none
  | message :: messages =>
      match SaslMechanism.step crypto backend (entropy turn) message exchange with
      | (.ok (.challenge _), after) => acceptedBy (turn + 1) after messages
      | (.ok .proceed, after) => acceptedBy (turn + 1) after messages
      | (.ok (.done true username), _) => username
      | _ => none

end Exchange

def SaslMechanism.clearChallenge (mechanism : SaslMechanism) (data : Octets) : Octets :=
  match mechanism with
  | .login state =>
      encodeUtf8 (if state.stepCount = 1 then "Username:" else "Password:").toList
  | .cramMd5 state => encodeUtf8 (state.challenge.getD [])
  | _ => data

def EncodedOnce (crypto : SaslCrypto) (replies : List AuthenticateReply) : Prop :=
  ∀ reply ∈ replies, ∀ data context, reply.challenge = some data → reply.context = some context →
    reply.response.message = crypto.base64Encode (context.mechanism.clearChallenge data)

structure Sends (crypto : SaslCrypto) (line : Text) (message : Octets) : Prop where
  going : trim line ≠ ['*']
  decoded : crypto.base64Decode (trim line) = .ok message
  text : (decodeUtf8 message).isSome

def ImapSession.welcoming (session : ImapSession) : Option Username → ImapSession
  | some username => { session with state := .authenticated, username := some username }
  | none => session

section Sessions

variable {crypto : SaslCrypto} {backend : AuthBackend β} {entropy : Nat → Entropy}

theorem session_concludeStep {lines : List Text} {messages : List Octets} {turn : Nat}
    (later : ∀ (reply : AuthenticateReply) (context : AuthenticateContext)
      (state : Authenticating β), reply.context = some context →
      (continueAuthenticate crypto backend entropy (turn + 1) reply lines state).2.session =
        state.session.welcoming
          (acceptedBy crypto backend entropy (turn + 1) ⟨context.mechanism, state.backend⟩ messages))
    (tag : Text) (waiting : AuthenticateState) (welcome : Username → Text)
    (mechanism : SaslMechanism) (message : Octets) (state : Authenticating β) :
    let concluded := concludeStep crypto tag waiting welcome state.session
      (SaslMechanism.step crypto backend (entropy turn) message ⟨mechanism, state.backend⟩)
    (continueAuthenticate crypto backend entropy (turn + 1) concluded.1 lines
        concluded.2).2.session =
      state.session.welcoming
        (acceptedBy crypto backend entropy turn ⟨mechanism, state.backend⟩
          (message :: messages)) := by
  have stops : ∀ response (after : Authenticating β),
      continueAuthenticate crypto backend entropy (turn + 1) (.final response) lines after =
        ([.final response], after) := by
    intro response after
    cases lines with
    | nil => rfl
    | cons line lines => rfl
  rw [acceptedBy]
  rcases SaslMechanism.step crypto backend (entropy turn) message ⟨mechanism, state.backend⟩ with
    ⟨result, after⟩
  cases result with
  | error error =>
      dsimp only [concludeStep]
      rw [stops]
      rfl
  | ok step =>
      cases step with
      | challenge data =>
          exact later ⟨_, some ⟨after.mechanism, .challenge, tag⟩, some data⟩ _
            ⟨state.session, after.backend⟩ rfl
      | proceed =>
          exact later ⟨_, some ⟨after.mechanism, waiting, tag⟩, none⟩ _
            ⟨state.session, after.backend⟩ rfl
      | done success username =>
          match success, username with
          | true, some username =>
              dsimp only [concludeStep]
              rw [stops]
              rfl
          | true, none =>
              dsimp only [concludeStep]
              rw [stops]
              rfl
          | false, _ =>
              dsimp only [concludeStep]
              rw [stops]
              rfl

theorem clientData_text {message : Octets} (text : (decodeUtf8 message).isSome) :
    clientData message = message := by
  rw [clientData, if_pos text]

theorem handleAuthenticateContinue_sends {line : Text} {message : Octets}
    (sends : Sends crypto line message) (entropy : Entropy) (context : AuthenticateContext)
    (state : Authenticating β) :
    handleAuthenticateContinue crypto backend entropy context line state =
      handleAuthenticateStep crypto backend entropy context.tag context.mechanism message state := by
  simp only [handleAuthenticateContinue, if_neg sends.going, sends.decoded,
    clientData_text sends.text]

theorem session_continueAuthenticate {lines : List Text} {messages : List Octets}
    (sent : List.Forall₂ (Sends crypto) lines messages) (turn : Nat) {reply : AuthenticateReply}
    {context : AuthenticateContext} (waits : reply.context = some context)
    (state : Authenticating β) :
    (continueAuthenticate crypto backend entropy turn reply lines state).2.session =
      state.session.welcoming
        (acceptedBy crypto backend entropy turn ⟨context.mechanism, state.backend⟩ messages) := by
  induction sent generalizing turn reply context state with
  | nil => rfl
  | cons first _ ih =>
      rw [continueAuthenticate, waits]
      dsimp only
      rw [handleAuthenticateContinue_sends first, handleAuthenticateStep]
      exact session_concludeStep (fun reply context state waits => ih (turn + 1) waits state)
        context.tag .challenge _ context.mechanism _ state

/-- The client speaks first, and no challenge is encoded by the mechanism itself. -/
def SaslMechanism.ClientFirst : SaslMechanism → Prop
  | .login _ => False
  | .cramMd5 _ => False
  | _ => True

theorem step_clientFirst {exchange : Exchange SaslMechanism β} (first : exchange.mechanism.ClientFirst)
    (entropy : Entropy) (message : Octets) :
    (SaslMechanism.step crypto backend entropy message exchange).2.mechanism.ClientFirst := by
  rcases exchange with ⟨mechanism, state⟩
  cases mechanism with
  | plain mechanism => trivial
  | login mechanism => cases first
  | cramMd5 mechanism => cases first
  | scramSha256 mechanism => trivial
  | xoauth2 mechanism => trivial

theorem clearChallenge_clientFirst {mechanism : SaslMechanism} (first : mechanism.ClientFirst)
    (data : Octets) : mechanism.clearChallenge data = data := by
  cases mechanism with
  | plain mechanism => rfl
  | login mechanism => cases first
  | cramMd5 mechanism => cases first
  | scramSha256 mechanism => rfl
  | xoauth2 mechanism => rfl

structure ForClientFirst (crypto : SaslCrypto) (reply : AuthenticateReply) : Prop where
  encoded : ∀ data, reply.challenge = some data → reply.response.message = crypto.base64Encode data
  first : ∀ context, reply.context = some context → context.mechanism.ClientFirst

theorem forClientFirst_final (response : ImapResponse) : ForClientFirst crypto (.final response) := by
  constructor
  · intro data challenged
    cases challenged
  · intro context waits
    cases waits

theorem forClientFirst_concludeStep {exchange : Exchange SaslMechanism β}
    (first : exchange.mechanism.ClientFirst) (tag : Text) (waiting : AuthenticateState)
    (welcome : Username → Text) (session : ImapSession) (entropy : Entropy) (message : Octets) :
    ForClientFirst crypto (concludeStep crypto tag waiting welcome session
      (SaslMechanism.step crypto backend entropy message exchange)).1 := by
  have kept := @step_clientFirst _ crypto backend _ first entropy message
  generalize SaslMechanism.step crypto backend entropy message exchange = outcome at kept
  rcases outcome with ⟨result, after⟩
  cases result with
  | error error => exact forClientFirst_final _
  | ok step =>
      cases step with
      | challenge data =>
          constructor
          · intro other challenged
            cases challenged
            rfl
          · intro context waits
            cases waits
            exact kept
      | proceed =>
          constructor
          · intro other challenged
            cases challenged
          · intro context waits
            cases waits
            exact kept
      | done success username =>
          match success, username with
          | true, some username => exact forClientFirst_final _
          | true, none => exact forClientFirst_final _
          | false, _ => exact forClientFirst_final _

theorem forClientFirst_continue {lines : List Text} {messages : List Octets}
    (sent : List.Forall₂ (Sends crypto) lines messages) (turn : Nat) {start : AuthenticateReply}
    (fine : ForClientFirst crypto start) (state : Authenticating β) :
    ∀ reply ∈ (continueAuthenticate crypto backend entropy turn start lines state).1,
      ForClientFirst crypto reply := by
  induction sent generalizing turn start state with
  | nil =>
      intro reply member
      rwa [List.mem_singleton.mp member]
  | @cons line message lines messages first _ ih =>
      rw [continueAuthenticate]
      cases waits : start.context with
      | none =>
          intro reply member
          rwa [List.mem_singleton.mp member]
      | some context =>
          dsimp only
          rw [handleAuthenticateContinue_sends first, handleAuthenticateStep]
          intro reply member
          rcases List.mem_cons.mp member with here | later
          · rwa [here]
          · have kept := @forClientFirst_concludeStep _ crypto backend
              ⟨context.mechanism, state.backend⟩ (fine.first context waits) context.tag .challenge
              (fun username => username.text ++ " authenticated".toList) state.session
              (entropy turn) message
            exact ih (turn + 1) kept _ reply later

theorem encodedOnce_continue {lines : List Text} {messages : List Octets}
    (sent : List.Forall₂ (Sends crypto) lines messages) (turn : Nat) {start : AuthenticateReply}
    (fine : ForClientFirst crypto start) (state : Authenticating β) :
    EncodedOnce crypto (continueAuthenticate crypto backend entropy turn start lines state).1 := by
  intro reply member data context challenged waits
  have every := forClientFirst_continue sent turn fine state reply member
  rw [clearChallenge_clientFirst (every.first context waits)]
  exact every.encoded data challenged

theorem mem_continueAuthenticate (turn : Nat) (reply : AuthenticateReply) (lines : List Text)
    (state : Authenticating β) :
    reply ∈ (continueAuthenticate crypto backend entropy turn reply lines state).1 := by
  cases lines with
  | nil => exact List.mem_singleton_self reply
  | cons line lines =>
      rw [continueAuthenticate]
      cases reply.context with
      | none => exact List.mem_singleton_self reply
      | some context => exact List.mem_cons_self

theorem step_nothing {mechanism : SaslMechanism} (first : mechanism.ClientFirst)
    (fresh : mechanism.reset = mechanism) (entropy : Entropy) (state : β) :
    ∃ error, (SaslMechanism.step crypto backend entropy [] ⟨mechanism, state⟩).1 = .error error := by
  cases mechanism with
  | plain mechanism =>
      rw [← SaslMechanism.plain.inj fresh]
      exact ⟨_, rfl⟩
  | login mechanism => cases first
  | cramMd5 mechanism => cases first
  | scramSha256 mechanism =>
      rw [← SaslMechanism.scramSha256.inj fresh]
      exact ⟨_, rfl⟩
  | xoauth2 mechanism =>
      rw [← SaslMechanism.xoauth2.inj fresh]
      exact ⟨_, rfl⟩

theorem acceptedBy_nothing {mechanism : SaslMechanism} (first : mechanism.ClientFirst)
    (fresh : mechanism.reset = mechanism) (turn : Nat) (state : β) (messages : List Octets) :
    acceptedBy crypto backend entropy turn ⟨mechanism, state⟩ ([] :: messages) = none := by
  obtain ⟨error, failed⟩ := @step_nothing _ crypto backend _ first fresh (entropy turn) state
  rw [acceptedBy]
  generalize SaslMechanism.step crypto backend (entropy turn) [] ⟨mechanism, state⟩ = outcome
    at failed
  rcases outcome with ⟨result, after⟩
  cases failed
  rfl

theorem welcoming_state {session : ImapSession} (outside : session.state = .notAuthenticated)
    {username : Option Username} :
    (session.welcoming username).state = session.state ↔ username = none := by
  cases username with
  | none => exact ⟨fun _ => rfl, fun _ => rfl⟩
  | some username =>
      rw [outside]
      constructor
      · intro same
        cases same
      · intro none
        cases none

end Sessions

section Command

variable {crypto : SaslCrypto} {server : SaslServer} {backend : AuthBackend β}
  {tag name : Text} {state : Authenticating β}

theorem createMechanism_enabled {mechanism : SaslMechanism}
    (created : server.createMechanism name = .ok mechanism) :
    server.isMechanismEnabled name := by
  by_contra disabled
  rw [SaslServer.createMechanism, if_pos disabled] at created
  cases created

theorem handleAuthenticate_initial {mechanism : SaslMechanism} {line : Text} {message : Octets}
    (outside : state.session.state = .notAuthenticated)
    (created : server.createMechanism name = .ok mechanism) (sends : Sends crypto line message)
    (entropy : Entropy) :
    handleAuthenticate crypto server backend entropy tag name (some line) state =
      concludeStep crypto tag .challenge (fun username => username.text ++ " authenticated".toList)
        state.session
        (SaslMechanism.step crypto backend entropy message ⟨mechanism, state.backend⟩) := by
  rw [handleAuthenticate, if_neg (fun inside => inside outside),
    if_neg (fun disabled => disabled (createMechanism_enabled created)), created]
  simp only [sends.decoded, clientData_text sends.text, handleAuthenticateStep]

theorem handleAuthenticate_bare {mechanism : SaslMechanism}
    (outside : state.session.state = .notAuthenticated)
    (created : server.createMechanism name = .ok mechanism) (entropy : Entropy) :
    handleAuthenticate crypto server backend entropy tag name none state =
      concludeStep crypto tag .initial (fun _ => "AUTHENTICATE completed".toList) state.session
        (SaslMechanism.step crypto backend entropy [] ⟨mechanism, state.backend⟩) := by
  rw [handleAuthenticate, if_neg (fun inside => inside outside),
    if_neg (fun disabled => disabled (createMechanism_enabled created)), created]

theorem handleAuthenticate_refused
    (refused : state.session.state ≠ .notAuthenticated ∨
      ∃ error, server.createMechanism name = .error error) :
    ∃ response, ∀ entropy initialResponse,
      handleAuthenticate crypto server backend entropy tag name initialResponse state =
        (.final response, state) := by
  by_cases inside : state.session.state ≠ .notAuthenticated
  · refine ⟨bad tag "Already authenticated".toList, fun entropy initialResponse => ?_⟩
    rw [handleAuthenticate, if_pos inside]
  · obtain ⟨error, failed⟩ := refused.resolve_left inside
    by_cases disabled : ¬server.isMechanismEnabled name
    · refine ⟨no tag ("[AUTHENTICATIONFAILED] Mechanism ".toList ++ name ++
        " not supported".toList), fun entropy initialResponse => ?_⟩
      rw [handleAuthenticate, if_neg inside, if_pos disabled]
    · refine ⟨no tag ("[AUTHENTICATIONFAILED] ".toList ++ error),
        fun entropy initialResponse => ?_⟩
      rw [handleAuthenticate, if_neg inside, if_neg disabled, failed]

theorem encoded_twice
    (grows : ∀ octets ≠ [], octets.length < octetLength (crypto.base64Encode octets))
    {clear : Octets} (some : clear ≠ []) :
    crypto.base64Encode (encodeUtf8 (crypto.base64Encode clear)) ≠ crypto.base64Encode clear := by
  intro same
  have shorter := grows clear some
  have more : encodeUtf8 (crypto.base64Encode clear) ≠ [] := by
    intro none
    rw [octetLength, none] at shorter
    exact absurd shorter (Nat.not_lt_zero _)
  have longer := grows _ more
  rw [same] at longer
  exact absurd longer (Nat.lt_irrefl _)

variable (crypto server backend) in
/-- Both ways of sending the same messages, with what the server draws in each. -/
def InitialResponseEquivalent (first second : Nat → Entropy) (tag name line : Text)
    (lines : List Text) (state : Authenticating β) : Prop :=
  let early := runAuthenticate crypto backend first server tag name (some line) lines state
  let late := runAuthenticate crypto backend second server tag name none (line :: lines) state
  early.2.session.state = late.2.session.state ∧
    early.2.session.username = late.2.session.username ∧
    EncodedOnce crypto early.1 ∧ EncodedOnce crypto late.1

variable (crypto server backend) in
/-- No mechanism is stepped, or one that the client's messages do not satisfy, or one
that cannot make a challenge. -/
def NobodyLogsIn (first second : Nat → Entropy) (name : Text) (messages : List Octets)
    (state : Authenticating β) : Prop :=
  state.session.state ≠ .notAuthenticated ∨
    match server.createMechanism name with
    | .error _ => True
    | .ok (.login _) => False
    | .ok (.cramMd5 mechanism) =>
        (∃ error, mechanism.generateChallenge (first 0) = .error error) ∧
          ∃ error, mechanism.generateChallenge (second 0) = .error error
    | .ok mechanism => acceptedBy crypto backend first 0 ⟨mechanism, state.backend⟩ messages = none

theorem continue_final {entropy : Nat → Entropy} (response : ImapResponse) (lines : List Text)
    (turn : Nat) :
    continueAuthenticate crypto backend entropy turn (.final response) lines state =
      ([.final response], state) := by
  cases lines with
  | nil => rfl
  | cons line lines => rfl

theorem encodedOnce_final (response : ImapResponse) :
    EncodedOnce crypto [.final response] := by
  intro reply member data context challenged
  rw [List.mem_singleton.mp member] at challenged
  cases challenged

theorem equivalent_of_refused {first second : Nat → Entropy} {line : Text} {lines : List Text}
    (refused : state.session.state ≠ .notAuthenticated ∨
      ∃ error, server.createMechanism name = .error error) :
    InitialResponseEquivalent crypto server backend first second tag name line lines state := by
  obtain ⟨response, answered⟩ :=
    @handleAuthenticate_refused _ crypto server backend tag name state refused
  simp only [InitialResponseEquivalent, runAuthenticate, answered, continue_final]
  exact ⟨trivial, trivial, encodedOnce_final response, encodedOnce_final response⟩

section Enabled

variable {mechanism : SaslMechanism} {line : Text} {lines : List Text} {message : Octets}
  {messages : List Octets}

theorem session_run_initial (outside : state.session.state = .notAuthenticated)
    (created : server.createMechanism name = .ok mechanism)
    (sent : List.Forall₂ (Sends crypto) (line :: lines) (message :: messages))
    (entropy : Nat → Entropy) :
    (runAuthenticate crypto backend entropy server tag name (some line) lines state).2.session =
      state.session.welcoming
        (acceptedBy crypto backend entropy 0 ⟨mechanism, state.backend⟩ (message :: messages)) := by
  cases sent with
  | cons first rest =>
      rw [runAuthenticate, handleAuthenticate_initial outside created first]
      exact session_concludeStep (fun reply context after waits =>
        session_continueAuthenticate rest 1 waits after) tag .challenge _ mechanism message state

theorem session_run_bare (outside : state.session.state = .notAuthenticated)
    (created : server.createMechanism name = .ok mechanism)
    (sent : List.Forall₂ (Sends crypto) lines messages) (entropy : Nat → Entropy) :
    (runAuthenticate crypto backend entropy server tag name none lines state).2.session =
      state.session.welcoming
        (acceptedBy crypto backend entropy 0 ⟨mechanism, state.backend⟩ ([] :: messages)) := by
  rw [runAuthenticate, handleAuthenticate_bare outside created]
  exact session_concludeStep (fun reply context after waits =>
    session_continueAuthenticate sent 1 waits after) tag .initial _ mechanism [] state

theorem equivalent_clientFirst (outside : state.session.state = .notAuthenticated)
    (created : server.createMechanism name = .ok mechanism) (first : mechanism.ClientFirst)
    (sent : List.Forall₂ (Sends crypto) (line :: lines) (message :: messages))
    (early late : Nat → Entropy) :
    InitialResponseEquivalent crypto server backend early late tag name line lines state ↔
      acceptedBy crypto backend early 0 ⟨mechanism, state.backend⟩ (message :: messages) = none := by
  have fresh := createMechanism_fresh created
  have refused := @acceptedBy_nothing _ crypto backend late _ first fresh 0 state.backend
    (message :: messages)
  simp only [InitialResponseEquivalent, session_run_initial outside created sent early,
    session_run_bare outside created sent late, refused]
  constructor
  · intro equivalent
    exact (welcoming_state outside).mp equivalent.1
  · intro unheard
    rw [unheard]
    cases sent with
    | cons head rest =>
        refine ⟨rfl, rfl, ?_, ?_⟩
        · rw [runAuthenticate, handleAuthenticate_initial outside created head]
          exact encodedOnce_continue rest 1 (forClientFirst_concludeStep first _ _ _ _ _ _) _
        · rw [runAuthenticate, handleAuthenticate_bare outside created]
          exact encodedOnce_continue (.cons head rest) 1
            (forClientFirst_concludeStep first _ _ _ _ _ _) _

theorem twice_of_challenge
    (grows : ∀ octets ≠ [], octets.length < octetLength (crypto.base64Encode octets))
    {entropy : Nat → Entropy} {initialResponse : Option Text} {waiting : AuthenticateState}
    {welcome : Username → Text} {clear : Octets} {after : Exchange SaslMechanism β}
    (opened : handleAuthenticate crypto server backend (entropy 0) tag name initialResponse state =
      concludeStep crypto tag waiting welcome state.session
        (.ok (.challenge (encodeUtf8 (crypto.base64Encode clear))), after))
    (encoding : after.mechanism.clearChallenge (encodeUtf8 (crypto.base64Encode clear)) = clear)
    (solid : clear ≠ []) :
    ¬EncodedOnce crypto
      (runAuthenticate crypto backend entropy server tag name initialResponse lines state).1 := by
  intro once
  rw [runAuthenticate, opened] at once
  have wire := once _ (mem_continueAuthenticate 1 _ lines _) _ _ rfl rfl
  rw [encoding] at wire
  exact encoded_twice grows solid wire

theorem not_equivalent_login {mechanism : LoginMechanism}
    (grows : ∀ octets ≠ [], octets.length < octetLength (crypto.base64Encode octets))
    (outside : state.session.state = .notAuthenticated)
    (created : server.createMechanism name = .ok (.login mechanism)) (early late : Nat → Entropy) :
    ¬InitialResponseEquivalent crypto server backend early late tag name line lines state := by
  intro equivalent
  have bare := @handleAuthenticate_bare _ crypto server backend tag name state _ outside created
    (late 0)
  have fresh := SaslMechanism.login.inj (createMechanism_fresh created)
  have challenged : SaslMechanism.step crypto backend (late 0) []
      ⟨.login mechanism, state.backend⟩ =
      (.ok (.challenge (encodeUtf8 (crypto.base64Encode (encodeUtf8 "Username:".toList)))),
        ⟨.login ⟨.challenge, none, 1⟩, state.backend⟩) := by
    rw [← fresh]
    rfl
  rw [challenged] at bare
  exact twice_of_challenge grows bare rfl (by decide) equivalent.2.2.2

theorem step_cramMd5 {mechanism : CramMd5Mechanism} (fresh : mechanism.reset = mechanism)
    {entropy : Entropy} {challenge : Text}
    (made : mechanism.generateChallenge entropy = .ok challenge) (message : Octets) (backing : β) :
    SaslMechanism.step crypto backend entropy message ⟨.cramMd5 mechanism, backing⟩ =
      (.ok (.challenge (encodeUtf8 (crypto.base64Encode (encodeUtf8 challenge)))),
        ⟨.cramMd5 { mechanism with state := .challenge, challenge := some challenge }, backing⟩) := by
  have started : mechanism.state = .initial := by rw [← fresh]; rfl
  simp [SaslMechanism.step, SaslMechanism.boxed, CramMd5Mechanism.step, started, made,
    Effect.bind_apply, Exchange.become]

theorem step_cramMd5_failed {mechanism : CramMd5Mechanism} (fresh : mechanism.reset = mechanism)
    {entropy : Entropy} {error : Text}
    (failed : mechanism.generateChallenge entropy = .error error) (message : Octets)
    (backing : β) :
    SaslMechanism.step crypto backend entropy message ⟨.cramMd5 mechanism, backing⟩ =
      (.error error, ⟨.cramMd5 mechanism, backing⟩) := by
  have started : mechanism.state = .initial := by rw [← fresh]; rfl
  simp [SaslMechanism.step, SaslMechanism.boxed, CramMd5Mechanism.step, started, failed,
    Effect.bind_apply]

theorem generateChallenge_ne_nil {mechanism : CramMd5Mechanism} {entropy : Entropy}
    {challenge : Text} (made : mechanism.generateChallenge entropy = .ok challenge) :
    encodeUtf8 challenge ≠ [] := by
  intro empty
  rw [CramMd5Mechanism.generateChallenge] at made
  cases seconds : entropy.seconds with
  | error error => rw [seconds] at made; cases made
  | ok timestamp =>
      cases word : entropy.word with
      | error error => rw [seconds, word] at made; cases made
      | ok random =>
          rw [seconds, word] at made
          cases made
          cases empty

theorem equivalent_cramMd5 {mechanism : CramMd5Mechanism}
    (grows : ∀ octets ≠ [], octets.length < octetLength (crypto.base64Encode octets))
    (outside : state.session.state = .notAuthenticated)
    (created : server.createMechanism name = .ok (.cramMd5 mechanism))
    (sends : Sends crypto line message) (early late : Nat → Entropy) :
    InitialResponseEquivalent crypto server backend early late tag name line lines state ↔
      (∃ error, mechanism.generateChallenge (early 0) = .error error) ∧
        ∃ error, mechanism.generateChallenge (late 0) = .error error := by
  have fresh := SaslMechanism.cramMd5.inj (createMechanism_fresh created)
  have opening := @handleAuthenticate_initial _ crypto server backend tag name state _ line message
    outside created sends (early 0)
  have bare := @handleAuthenticate_bare _ crypto server backend tag name state _ outside created
    (late 0)
  cases first : mechanism.generateChallenge (early 0) with
  | ok challenge =>
      rw [step_cramMd5 fresh first] at opening
      constructor
      · intro equivalent
        exact absurd equivalent.2.2.1
          (twice_of_challenge grows opening rfl (generateChallenge_ne_nil first))
      · rintro ⟨⟨error, failed⟩, _⟩
        cases failed
  | error error =>
      rw [step_cramMd5_failed fresh first] at opening
      cases second : mechanism.generateChallenge (late 0) with
      | ok challenge =>
          rw [step_cramMd5 fresh second] at bare
          constructor
          · intro equivalent
            exact absurd equivalent.2.2.2
              (twice_of_challenge grows bare rfl (generateChallenge_ne_nil second))
          · rintro ⟨_, other, failed⟩
            cases failed
      | error other =>
          rw [step_cramMd5_failed fresh second] at bare
          simp only [InitialResponseEquivalent, runAuthenticate, opening, bare, concludeStep,
            continue_final]
          exact ⟨fun _ => ⟨⟨error, rfl⟩, other, rfl⟩,
            fun _ => ⟨trivial, trivial, encodedOnce_final _, encodedOnce_final _⟩⟩

end Enabled

/-- The initial response changes nothing exactly when nobody logs in. -/
theorem initial_response_equivalent_iff
    (grows : ∀ octets ≠ [], octets.length < octetLength (crypto.base64Encode octets))
    {line : Text} {lines : List Text} {message : Octets} {messages : List Octets}
    (sent : List.Forall₂ (Sends crypto) (line :: lines) (message :: messages))
    (first second : Nat → Entropy) :
    InitialResponseEquivalent crypto server backend first second tag name line lines state ↔
      NobodyLogsIn crypto server backend first second name (message :: messages) state := by
  by_cases outside : state.session.state = .notAuthenticated
  · have inside : ¬state.session.state ≠ .notAuthenticated := fun other => other outside
    rw [NobodyLogsIn, or_iff_right inside]
    cases created : server.createMechanism name with
    | error error =>
        exact iff_of_true (equivalent_of_refused (Or.inr ⟨error, created⟩)) trivial
    | ok mechanism =>
        cases mechanism with
        | plain mechanism => exact equivalent_clientFirst outside created trivial sent first second
        | login mechanism =>
            exact iff_of_false (not_equivalent_login grows outside created first second) id
        | cramMd5 mechanism =>
            cases sent with
            | cons sends rest => exact equivalent_cramMd5 grows outside created sends first second
        | scramSha256 mechanism =>
            exact equivalent_clientFirst outside created trivial sent first second
        | xoauth2 mechanism =>
            exact equivalent_clientFirst outside created trivial sent first second
  · exact iff_of_true (equivalent_of_refused (Or.inl outside)) (Or.inl outside)

end Command

def base64Character (sextet : Nat) : Char :=
  ("ABCDEFGHIJKLMNOPQRSTUVWXYZabcdefghijklmnopqrstuvwxyz0123456789+/".toList)[sextet]?.getD '='

def base64Standard : Octets → Text
  | [] => []
  | [first] =>
      [base64Character (first.toNat / 4), base64Character (first.toNat % 4 * 16), '=', '=']
  | [first, second] =>
      [base64Character (first.toNat / 4),
        base64Character (first.toNat % 4 * 16 + second.toNat / 16),
        base64Character (second.toNat % 16 * 4), '=']
  | first :: second :: third :: rest =>
      base64Character (first.toNat / 4) ::
        base64Character (first.toNat % 4 * 16 + second.toNat / 16) ::
        base64Character (second.toNat % 16 * 4 + third.toNat / 64) ::
        base64Character (third.toNat % 64) :: base64Standard rest

theorem length_le_octetLength (text : Text) : text.length ≤ octetLength text := by
  induction text with
  | nil => exact Nat.le_refl 0
  | cons character text ih =>
      have solid : 0 < (String.utf8EncodeChar character).length :=
        List.length_pos_iff.mpr (utf8EncodeChar_ne_nil character)
      rw [octetLength] at ih ⊢
      rw [encodeUtf8_cons, List.length_append, List.length_cons]
      omega

theorem length_base64Standard (octets : Octets) :
    octets.length + min octets.length 1 ≤ (base64Standard octets).length := by
  induction octets using base64Standard.induct with
  | case1 => exact Nat.le_refl 0
  | case2 first => exact Nat.le_of_ble_eq_true rfl
  | case3 first second => exact Nat.le_of_ble_eq_true rfl
  | case4 first second third rest ih =>
      simp only [base64Standard, List.length_cons]
      omega

theorem base64Standard_grows (octets : Octets) (solid : octets ≠ []) :
    octets.length < octetLength (base64Standard octets) := by
  have longer := length_base64Standard octets
  have wide := length_le_octetLength (base64Standard octets)
  have counted := List.length_pos_iff.mpr solid
  omega

def plainServer : SaslServer := ⟨⟨["PLAIN".toList, "LOGIN".toList], "localhost".toList⟩⟩

def cryptoFor (message : Octets) : SaslCrypto where
  base64Encode := base64Standard
  base64Decode text :=
    if text = base64Standard message then .ok message else .error "Invalid symbol".toList
  sha256 _ := []
  hmacSha256 _ _ := .error "unused".toList
  hmacMd5 _ _ := .error "unused".toList

def plainMessage (password : Text) : Octets :=
  encodeUtf8 ('\x00' :: "alice".toList ++ '\x00' :: password)

def silence : Nat → Entropy := fun _ => ⟨.ok 0, .ok 0, 0⟩

theorem plainMessage_sends {password : Text}
    (tight : trim (base64Standard (plainMessage password)) = base64Standard (plainMessage password))
    (other : base64Standard (plainMessage password) ≠ ['*']) :
    Sends (cryptoFor (plainMessage password)) (base64Standard (plainMessage password))
      (plainMessage password) := by
  constructor
  · rwa [tight]
  · rw [tight]
    exact if_pos rfl
  · rw [plainMessage, decodeUtf8_encodeUtf8]
    rfl

theorem acceptedBy_plain {password : Text} (crypto : SaslCrypto)
    (split : (plainMessage password).splitOn 0 =
      [[], encodeUtf8 aliceUser.text, encodeUtf8 password]) :
    acceptedBy crypto singleUser silence 0 ⟨.plain .new, ()⟩ [plainMessage password] =
      if password = "zebra".toList then some aliceUser else none := by
  have parsed : PlainMechanism.parsePlainResponse (plainMessage password) =
      .ok (aliceUser.text, password) := by
    simp only [PlainMechanism.parsePlainResponse, split, decodeText, decodeUtf8_encodeUtf8]
    rfl
  have stepped : SaslMechanism.step crypto singleUser (silence 0) (plainMessage password)
      ⟨.plain .new, ()⟩ =
      (.ok (verdict (decide (password = "zebra".toList)) aliceUser),
        ⟨.plain ⟨if decide (password = "zebra".toList) then .success else .failed⟩, ()⟩) := by
    simp only [SaslMechanism.step, SaslMechanism.boxed, PlainMechanism.step, Effect.bind_apply,
      Effect.read_apply, parsed]
    rfl
  rw [acceptedBy, stepped]
  by_cases right : password = "zebra".toList
  · rw [if_pos right, decide_eq_true right]
    rfl
  · rw [if_neg right, decide_eq_false right]
    rfl

theorem wrong_password_either_way :
    InitialResponseEquivalent (cryptoFor (plainMessage "guess".toList)) plainServer singleUser
      silence silence "a1".toList "PLAIN".toList (base64Standard (plainMessage "guess".toList)) []
      ⟨.new, ()⟩ := by
  have sends := plainMessage_sends (by decide :
      trim (base64Standard (plainMessage "guess".toList)) =
        base64Standard (plainMessage "guess".toList)) (by decide)
  refine (initial_response_equivalent_iff base64Standard_grows (.cons sends .nil) _ _).mpr
    (Or.inr ?_)
  exact acceptedBy_plain _ (by decide)

theorem right_password_only_early :
    ¬InitialResponseEquivalent (cryptoFor (plainMessage "zebra".toList)) plainServer singleUser
      silence silence "a1".toList "PLAIN".toList (base64Standard (plainMessage "zebra".toList)) []
      ⟨.new, ()⟩ ∧
    ¬EncodedOnce (cryptoFor [])
      (runAuthenticate (cryptoFor []) singleUser silence plainServer "a1".toList "LOGIN".toList none
        [] ⟨.new, ()⟩).1 := by
  constructor
  · have sends := plainMessage_sends (by decide :
        trim (base64Standard (plainMessage "zebra".toList)) =
          base64Standard (plainMessage "zebra".toList)) (by decide)
    have created : plainServer.createMechanism "PLAIN".toList = .ok (.plain .new) := rfl
    intro equivalent
    have unheard := (equivalent_clientFirst rfl created trivial (.cons sends .nil) silence
      silence).mp equivalent
    rw [acceptedBy_plain _ (by decide)] at unheard
    cases unheard
  · exact @twice_of_challenge _ (cryptoFor []) plainServer singleUser _ _ ⟨.new, ()⟩ []
      base64Standard_grows silence none .initial (fun _ => "AUTHENTICATE completed".toList)
      (encodeUtf8 "Username:".toList) ⟨.login ⟨.challenge, none, 1⟩, ()⟩ rfl rfl (by decide)

end Rusmes
