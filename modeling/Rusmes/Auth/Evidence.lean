import Rusmes.Auth.Sasl

/-!
What a SASL success rests on. The backend is wrapped so that its answers are
recorded, an exchange is the list of turns since the last reset, and evidence
for a user is an answer of the backend about what the client sent or a value in
a client message that verifies against the user's secret.
-/

namespace Rusmes

open WireText

inductive BackendCall
  | authenticate (username : Username) (password : Text) (answer : Except Text Bool)
  | getScramStoredKey (username : Text) (answer : Except Text Octets)

def recordCall {β Value : Type} (entry : Except Text Value → BackendCall)
    (action : Effect Text β Value) : Effect Text (β × List BackendCall) Value :=
  fun (backend, calls) =>
    ((action backend).1, ((action backend).2, calls ++ [entry (action backend).1]))

def passCall {β Value : Type} (action : Effect Text β Value) :
    Effect Text (β × List BackendCall) Value :=
  Effect.focus Prod.fst (fun state backend => (backend, state.2)) action

def AuthBackend.recorded {β : Type} (backend : AuthBackend β) :
    AuthBackend (β × List BackendCall) where
  authenticate username password :=
    recordCall (.authenticate username password) (backend.authenticate username password)
  verifyIdentity username := passCall (backend.verifyIdentity username)
  getScramParams username := passCall (backend.getScramParams username)
  getScramStoredKey username :=
    recordCall (.getScramStoredKey username) (backend.getScramStoredKey username)
  getScramServerKey username := passCall (backend.getScramServerKey username)
  getApopSecret username := passCall (backend.getApopSecret username)
  verifyBearerToken token := passCall (backend.verifyBearerToken token)

/-- One message of the client: the backend it met, the reply and the recorded calls. -/
structure Turn (β : Type) where
  message : Octets
  before : β
  reply : Except Text SaslStep
  calls : List BackendCall

structure Dialog (β : Type) where
  mechanism : SaslMechanism
  backend : β
  turns : List (Turn β)

inductive DialogInput (β : Type)
  | message (octets : Octets) (entropy : Entropy)
  | reset
  | elsewhere (change : β → β)

variable {β : Type}

def Dialog.advance (crypto : SaslCrypto) (backend : AuthBackend β) (dialog : Dialog β) :
    DialogInput β → Dialog β
  | .message octets entropy =>
      let (reply, after) := SaslMechanism.step crypto backend.recorded entropy octets
        ⟨dialog.mechanism, (dialog.backend, [])⟩
      { mechanism := after.mechanism
        backend := after.backend.1
        turns := dialog.turns ++ [⟨octets, dialog.backend, reply, after.backend.2⟩] }
  | .reset => { dialog with mechanism := dialog.mechanism.reset, turns := [] }
  | .elsewhere change => { dialog with backend := change dialog.backend }

def Dialog.run (crypto : SaslCrypto) (backend : AuthBackend β) (dialog : Dialog β)
    (inputs : List (DialogInput β)) : Dialog β :=
  inputs.foldl (Dialog.advance crypto backend) dialog

def Carries (message : Octets) (text : Text) : Prop :=
  encodeUtf8 text <:+: message

def Challenged (turns : List (Turn β)) (data : Octets) : Prop :=
  ∃ turn ∈ turns, turn.reply = .ok (.challenge data)

def HasPassword (backend : AuthBackend β) (state : β) (username : Username) (password : Text) :
    Prop :=
  (backend.authenticate username password state).1 = .ok true ∨
    (backend.getApopSecret username state).1 = .ok password

def TokenVerifies (backend : AuthBackend β) (state : β) (username : Username) (token : Text) :
    Prop :=
  HasPassword backend state username token ∨
    (backend.verifyBearerToken token state).1 = .ok username

def DigestVerifies (crypto : SaslCrypto) (backend : AuthBackend β) (state : β)
    (username : Username) (challenge digest : Text) : Prop :=
  ∃ password, HasPassword backend state username password ∧
    CramMd5Mechanism.computeHmac crypto password challenge = .ok digest

def ProofVerifies (crypto : SaslCrypto) (turns : List (Turn β)) (turn : Turn β)
    (username : Username) (proof : Text) : Prop :=
  ∃ storedKey clientFirstBare serverFirst withoutProof,
    .getScramStoredKey username.text (.ok storedKey) ∈ turn.calls ∧
    (∃ earlier ∈ turns, Carries earlier.message clientFirstBare) ∧
    Challenged turns (encodeUtf8 serverFirst) ∧
    Carries turn.message withoutProof ∧
    ScramSha256Mechanism.verifyClientProof crypto storedKey
      (ScramSha256Mechanism.authMessage clientFirstBare serverFirst withoutProof) proof = .ok true

inductive Evidence (crypto : SaslCrypto) (backend : AuthBackend β) (turns : List (Turn β))
    (username : Username) : Prop
  | authenticated (sent asked : Turn β) (password : Text) (sender : sent ∈ turns)
      (asker : asked ∈ turns) (carried : Carries sent.message password)
      (answered : .authenticate username password (.ok true) ∈ asked.calls)
  | token (turn : Turn β) (token : Text) (member : turn ∈ turns)
      (carried : Carries turn.message token)
      (verified : TokenVerifies backend turn.before username token)
  | digest (turn : Turn β) (challenge digest : Text) (member : turn ∈ turns)
      (carried : Carries turn.message digest)
      (challenged : Challenged turns
        (encodeUtf8 (crypto.base64Encode (encodeUtf8 challenge))))
      (verified : DigestVerifies crypto backend turn.before username challenge digest)
  | proof (turn : Turn β) (proof : Text) (member : turn ∈ turns)
      (carried : Carries turn.message proof)
      (verified : ProofVerifies crypto turns turn username proof)

def Dialog.Proven (crypto : SaslCrypto) (backend : AuthBackend β) (dialog : Dialog β) : Prop :=
  ∀ turn username, dialog.turns.getLast? = some turn →
    turn.reply = .ok (.done true (some username)) → Evidence crypto backend dialog.turns username

/-- The two mechanisms that never look at a secret get a genuine one: a CRAM-MD5
answer for a known user with a digest of the right length carries the digest of
the challenge, and a bearer token for a known user is one the backend honours. -/
def Genuine (crypto : SaslCrypto) (backend : AuthBackend β) (dialog : Dialog β) :
    DialogInput β → Prop
  | .message octets _ =>
      match dialog.mechanism with
      | .cramMd5 mechanism =>
          ∀ response name digest username challenge, mechanism.state = .challenge →
            mechanism.challenge = some challenge →
            decodeUtf8 octets = some response →
            CramMd5Mechanism.parseResponse response = .ok (name, digest) →
            Username.new name = .ok username →
            (backend.verifyIdentity username dialog.backend).1 = .ok true →
            octetLength digest = 32 →
            DigestVerifies crypto backend dialog.backend username challenge digest
      | .xoauth2 mechanism =>
          ∀ name token username, mechanism.state = .initial →
            XOAuth2Mechanism.parseXoauth2Response octets = .ok (name, token) →
            Username.new name = .ok username →
            (backend.verifyIdentity username dialog.backend).1 = .ok true → token ≠ [] →
            TokenVerifies backend dialog.backend username token
      | _ => True
  | _ => True

theorem foldl_part {text : Text} {advance : Option Text → Text → Option Text}
    (keeps : ∀ found part, part <:+: text → (∀ held, found = some held → held <:+: text) →
      ∀ held, advance found part = some held → held <:+: text)
    {parts : List Text} (inside : ∀ part ∈ parts, part <:+: text) {start : Option Text}
    (known : ∀ held, start = some held → held <:+: text) {held : Text}
    (folded : parts.foldl advance start = some held) : held <:+: text := by
  induction parts generalizing start with
  | nil => exact known held folded
  | cons part rest ih =>
      exact ih (fun other member => inside other (List.mem_cons_of_mem part member))
        (keeps start part (inside part List.mem_cons_self) known) folded

theorem scramAttribute_part {names parts : List Text} {name value text : Text}
    (inside : ∀ part ∈ parts, part <:+: text)
    (found : scramAttribute names name parts = some value) : value <:+: text := by
  refine foldl_part ?_ inside (fun held same => by cases same) found
  intro earlier part contained known held same
  split at same
  · split at same
    · cases same
      exact (List.drop_suffix _ _).isInfix.trans contained
    · exact known held same
  · exact known held same

theorem Carries.of_part {message : Octets} {text part : Text}
    (decoded : decodeUtf8 message = some text) (inside : part <:+: text) :
    Carries message part := by
  obtain ⟨before, after, rfl⟩ := inside
  rw [Carries, ← encodeUtf8_of_decodeUtf8 decoded, encodeUtf8_append, encodeUtf8_append]
  exact ⟨encodeUtf8 before, encodeUtf8 after, rfl⟩

theorem decodeText_ok {context : String} {octets : Octets} {text : Text} :
    decodeText context octets = .ok text ↔ decodeUtf8 octets = some text := by
  rw [decodeText]
  cases decodeUtf8 octets <;> simp

theorem usernameOf_ok {name : Text} {username : Username} :
    usernameOf name = .ok username ↔ Username.new name = .ok username := by
  rw [usernameOf]
  cases Username.new name <;> simp [Except.mapError]

theorem PlainMechanism.parsePlainResponse_carries {response : Octets} {name password : Text}
    (parsed : parsePlainResponse response = .ok (name, password)) :
    Carries response password := by
  rw [parsePlainResponse] at parsed
  split at parsed
  · rename_i first second third parts
    have whole : [0].intercalate (response.splitOn 0) = response := List.intercalate_splitOn 0
    rw [parts] at whole
    cases user : decodeText "username" second with
    | error message => simp [user, bind, Except.bind] at parsed
    | ok user =>
        cases secret : decodeText "password" third with
        | error message => simp [user, secret, bind, Except.bind] at parsed
        | ok secret' =>
            simp only [user, secret, bind, Except.bind, Except.ok.injEq, Prod.mk.injEq] at parsed
            rw [← parsed.2]
            have third' := decodeText_ok.mp secret
            rw [Carries, encodeUtf8_of_decodeUtf8 third', ← whole]
            exact ⟨first ++ [0] ++ second ++ [0], [], by simp [List.intercalate]⟩
  · cases parsed

theorem Challenged.mono {earlier later : List (Turn β)} {data : Octets}
    (kept : earlier ⊆ later) (challenged : Challenged earlier data) : Challenged later data := by
  obtain ⟨turn, member, replied⟩ := challenged
  exact ⟨turn, kept member, replied⟩

theorem Evidence.mono {crypto : SaslCrypto} {backend : AuthBackend β}
    {earlier later : List (Turn β)} {username : Username} (kept : earlier ⊆ later)
    (evidence : Evidence crypto backend earlier username) :
    Evidence crypto backend later username := by
  cases evidence with
  | authenticated sent asked password sender asker carried answered =>
      exact .authenticated sent asked password (kept sender) (kept asker) carried answered
  | token turn token member carried verified =>
      exact .token turn token (kept member) carried verified
  | digest turn challenge digest member carried challenged verified =>
      exact .digest turn challenge digest (kept member) carried (challenged.mono kept) verified
  | proof turn proof member carried verified =>
      obtain ⟨storedKey, bare, first, without, called, ⟨sent, sender, opened⟩, challenged,
        rest⟩ := verified
      exact .proof turn proof (kept member) carried
        ⟨storedKey, bare, first, without, called, ⟨sent, kept sender, opened⟩,
          challenged.mono kept, rest⟩

/-- Where the fields of a mechanism came from: a stored challenge was sent, the
parts of a SCRAM exchange were sent and received, and a user that SCRAM has
authenticated has evidence. -/
def Tracked (crypto : SaslCrypto) (backend : AuthBackend β) (turns : List (Turn β)) :
    SaslMechanism → Prop
  | .cramMd5 mechanism =>
      ∀ challenge, mechanism.challenge = some challenge →
        Challenged turns (encodeUtf8 (crypto.base64Encode (encodeUtf8 challenge)))
  | .scramSha256 mechanism =>
      (∀ bare, mechanism.clientFirstBare = some bare →
        ∃ earlier ∈ turns, Carries earlier.message bare) ∧
      (∀ nonce salt iterations, mechanism.serverNonce = some nonce → mechanism.salt = some salt →
        mechanism.iterations = some iterations →
        Challenged turns (encodeUtf8
          (ScramSha256Mechanism.serverFirst crypto nonce salt iterations))) ∧
      ∀ username, mechanism.authenticatedUser = some username →
        Evidence crypto backend turns username
  | _ => True

theorem Tracked.mono {crypto : SaslCrypto} {backend : AuthBackend β}
    {earlier later : List (Turn β)} {mechanism : SaslMechanism} (kept : earlier ⊆ later)
    (tracked : Tracked crypto backend earlier mechanism) :
    Tracked crypto backend later mechanism := by
  cases mechanism with
  | plain mechanism => trivial
  | login mechanism => trivial
  | cramMd5 mechanism =>
      intro challenge stored
      exact (tracked challenge stored).mono kept
  | scramSha256 mechanism =>
      obtain ⟨opened, sent, authenticated⟩ := tracked
      refine ⟨?_, ?_, ?_⟩
      · intro bare stored
        obtain ⟨turn, member, carried⟩ := opened bare stored
        exact ⟨turn, kept member, carried⟩
      · intro nonce salt iterations nonceStored saltStored iterationsStored
        exact (sent nonce salt iterations nonceStored saltStored iterationsStored).mono kept
      · intro username stored
        exact (authenticated username stored).mono kept
  | xoauth2 mechanism => trivial

/-- What a step of a mechanism has to establish about its reply and what it leaves. -/
def Accounts {μ : Type} (crypto : SaslCrypto) (backend : AuthBackend β) (wrap : μ → SaslMechanism)
    (turns : List (Turn β)) (message : Octets) (before : β) (reply : Except Text SaslStep)
    (after : Exchange μ (β × List BackendCall)) : Prop :=
  let later := turns ++ [⟨message, before, reply, after.backend.2⟩]
  (∀ username, reply = .ok (.done true (some username)) →
    Evidence crypto backend later username) ∧
  Tracked crypto backend later (wrap after.mechanism)

section Steps

variable (crypto : SaslCrypto) (backend : AuthBackend β) (turns : List (Turn β))
  (message : Octets) (before : β)

variable {crypto backend turns message before}

theorem accounts_of_unsuccessful {μ : Type} {wrap : μ → SaslMechanism}
    {reply : Except Text SaslStep} {after : Exchange μ (β × List BackendCall)}
    (unsuccessful : ∀ username, reply ≠ .ok (.done true (some username)))
    (tracked : Tracked crypto backend
      (turns ++ [⟨message, before, reply, after.backend.2⟩]) (wrap after.mechanism)) :
    Accounts crypto backend wrap turns message before reply after := by
  refine ⟨?_, tracked⟩
  intro username replied
  exact absurd replied (unsuccessful username)

theorem accounts_of_verdict {μ : Type} {wrap : μ → SaslMechanism} {username : Username}
    {success : Bool} {after : Exchange μ (β × List BackendCall)}
    (evidence : success = true → Evidence crypto backend
      (turns ++ [⟨message, before, .ok (verdict success username), after.backend.2⟩]) username)
    (tracked : Tracked crypto backend
      (turns ++ [⟨message, before, .ok (verdict success username), after.backend.2⟩])
      (wrap after.mechanism)) :
    Accounts crypto backend wrap turns message before (.ok (verdict success username)) after := by
  refine ⟨?_, tracked⟩
  intro named replied
  cases success with
  | false => simp [verdict] at replied
  | true =>
      simp only [verdict, if_true, Except.ok.injEq, SaslStep.done.injEq, Option.some.injEq,
        true_and] at replied
      exact replied ▸ evidence rfl

theorem evidence_of_authenticate {username : Username} {password : Text}
    {reply : Except Text SaslStep} {calls : List BackendCall}
    (carried : Carries message password)
    (success : (Except.toOption (backend.authenticate username password before).1).getD false = true)
    (recorded : calls =
      [.authenticate username password (backend.authenticate username password before).1]) :
    Evidence crypto backend (turns ++ [⟨message, before, reply, calls⟩]) username := by
  have answered : (backend.authenticate username password before).1 = .ok true := by
    cases answer : (backend.authenticate username password before).1 with
    | error error => simp [answer, Except.toOption] at success
    | ok value => simpa [answer, Except.toOption] using success
  rw [answered] at recorded
  exact .authenticated _ _ password (List.mem_append_right _ List.mem_cons_self)
    (List.mem_append_right _ List.mem_cons_self) carried (by rw [recorded]; simp)

theorem PlainMechanism.step_accounts (mechanism : PlainMechanism) :
    Effect.Meets (step backend.recorded message) ⟨mechanism, (before, [])⟩
      (Accounts crypto backend .plain turns message before) := by
  apply Effect.meets_read_bind
  by_cases started : mechanism.state ≠ .initial
  · rw [if_pos started]
    apply Effect.meets_modify_bind
    exact accounts_of_unsuccessful (by simp [rejected]) trivial
  rw [if_neg started]
  refine Effect.meets_ofExcept_bind ?_ fun error => accounts_of_unsuccessful (by simp) trivial
  rintro ⟨name, password⟩ parsed
  refine Effect.meets_ofExcept_bind ?_ fun error => accounts_of_unsuccessful (by simp) trivial
  intro username made
  apply accounts_of_verdict
  · intro success
    exact evidence_of_authenticate (parsePlainResponse_carries parsed) success rfl
  · trivial

theorem LoginMechanism.step_accounts (mechanism : LoginMechanism) :
    Effect.Meets (step crypto backend.recorded message) ⟨mechanism, (before, [])⟩
      (Accounts crypto backend .login turns message before) := by
  apply Effect.meets_read_bind
  dsimp only
  split
  · apply Effect.meets_modify_bind
    exact accounts_of_unsuccessful (by simp) trivial
  · refine Effect.meets_ofExcept_bind ?_ fun error => accounts_of_unsuccessful (by simp) trivial
    intro name decoded
    apply Effect.meets_modify_bind
    exact accounts_of_unsuccessful (by simp) trivial
  · refine Effect.meets_ofExcept_bind ?_ fun error => accounts_of_unsuccessful (by simp) trivial
    intro password decoded
    split
    · exact accounts_of_unsuccessful (by simp) trivial
    · refine Effect.meets_ofExcept_bind ?_ fun error => accounts_of_unsuccessful (by simp) trivial
      intro username made
      apply accounts_of_verdict
      · intro success
        exact evidence_of_authenticate
          (Carries.of_part (decodeText_ok.mp decoded) List.infix_rfl) success rfl
      · trivial
  · apply Effect.meets_modify_bind
    exact accounts_of_unsuccessful (by simp [rejected]) trivial

theorem CramMd5Mechanism.step_accounts {entropy : Entropy} {mechanism : CramMd5Mechanism}
    (tracked : Tracked crypto backend turns (.cramMd5 mechanism))
    (genuine : ∀ response name digest username challenge, mechanism.state = .challenge →
      mechanism.challenge = some challenge → decodeUtf8 message = some response →
      parseResponse response = .ok (name, digest) → Username.new name = .ok username →
      (backend.verifyIdentity username before).1 = .ok true → octetLength digest = 32 →
      DigestVerifies crypto backend before username challenge digest) :
    Effect.Meets (step crypto backend.recorded entropy message) ⟨mechanism, (before, [])⟩
      (Accounts crypto backend .cramMd5 turns message before) := by
  have kept : ∀ turn, Tracked crypto backend (turns ++ [turn]) (.cramMd5 mechanism) :=
    fun turn => tracked.mono (List.subset_append_left turns [turn])
  apply Effect.meets_read_bind
  dsimp only
  split
  · refine Effect.meets_ofExcept_bind ?_ fun error => accounts_of_unsuccessful (by simp) (kept _)
    intro challenge generated
    apply Effect.meets_modify_bind
    refine accounts_of_unsuccessful (by simp) ?_
    intro stored same
    cases same
    exact ⟨_, List.mem_append_right _ List.mem_cons_self, rfl⟩
  · rename_i waiting
    split
    · exact accounts_of_unsuccessful (by simp) (kept _)
    · rename_i challenge stored
      refine Effect.meets_ofExcept_bind ?_ fun error => accounts_of_unsuccessful (by simp) (kept _)
      intro response decoded
      refine Effect.meets_ofExcept_bind ?_ fun error => accounts_of_unsuccessful (by simp) (kept _)
      rintro ⟨name, digest⟩ parsed
      refine Effect.meets_ofExcept_bind ?_ fun error => accounts_of_unsuccessful (by simp) (kept _)
      intro username made
      refine Effect.meets_bind ?_ fun error _ => accounts_of_unsuccessful (by simp) (kept _)
      intro userExists known
      by_cases refused : ¬userExists = true ∨ octetLength digest ≠ 32
      · rw [if_pos refused]
        apply Effect.meets_modify_bind
        exact accounts_of_unsuccessful (by simp [rejected]) (kept _)
      · rw [if_neg refused]
        obtain ⟨exists_, length⟩ := not_or.mp refused
        have decoded' := decodeText_ok.mp decoded
        have verified := genuine response name digest username challenge waiting stored decoded'
          parsed (usernameOf_ok.mp made) (by rw [not_not] at exists_; exact exists_ ▸ known)
          (not_not.mp length)
        refine ⟨?_, kept _⟩
        intro named replied
        cases replied
        have inside : digest <:+: response := by
          rw [parseResponse] at parsed
          split at parsed
          · rename_i parts found
            cases parsed
            rw [splitOnce_eq_some found]
            exact ⟨name ++ [' '], [], by simp⟩
          · cases parsed
        exact .digest _ challenge digest (List.mem_append_right _ List.mem_cons_self)
          (Carries.of_part decoded' inside) (kept _ challenge stored) verified
  · apply Effect.meets_modify_bind
    exact accounts_of_unsuccessful (by simp [rejected]) (kept _)

theorem XOAuth2Mechanism.parseXoauth2Response_carries {response : Octets} {name token : Text}
    (parsed : parseXoauth2Response response = .ok (name, token)) : Carries response token := by
  rw [parseXoauth2Response] at parsed
  cases decoded : decodeText "XOAUTH2 response" response with
  | error error => simp [decoded, bind, Except.bind] at parsed
  | ok text =>
      simp only [decoded, bind, Except.bind] at parsed
      split at parsed
      · cases parsed
      · cases parsed
      · rename_i found
        cases parsed
        exact Carries.of_part (decodeText_ok.mp decoded)
          (scramAttribute_part (fun part member => splitOn_part member) found)

theorem XOAuth2Mechanism.step_accounts {mechanism : XOAuth2Mechanism}
    (genuine : ∀ name token username, mechanism.state = .initial →
      parseXoauth2Response message = .ok (name, token) → Username.new name = .ok username →
      (backend.verifyIdentity username before).1 = .ok true → token ≠ [] →
      TokenVerifies backend before username token) :
    Effect.Meets (step backend.recorded message) ⟨mechanism, (before, [])⟩
      (Accounts crypto backend .xoauth2 turns message before) := by
  apply Effect.meets_read_bind
  by_cases started : mechanism.state ≠ .initial
  · rw [if_pos started]
    apply Effect.meets_modify_bind
    exact accounts_of_unsuccessful (by simp [rejected]) trivial
  rw [if_neg started]
  refine Effect.meets_ofExcept_bind ?_ fun error => accounts_of_unsuccessful (by simp) trivial
  rintro ⟨name, token⟩ parsed
  refine Effect.meets_ofExcept_bind ?_ fun error => accounts_of_unsuccessful (by simp) trivial
  intro username made
  refine Effect.meets_bind ?_ fun error _ => accounts_of_unsuccessful (by simp) trivial
  intro userExists known
  apply accounts_of_verdict
  · intro success
    simp only [Bool.and_eq_true, Bool.not_eq_true', List.isEmpty_eq_false_iff] at success
    have verified := genuine name token username (not_not.mp started) parsed
      (usernameOf_ok.mp made) (success.1 ▸ known) success.2
    exact .token _ token (List.mem_append_right _ List.mem_cons_self)
      (parseXoauth2Response_carries parsed) verified
  · trivial

theorem ScramSha256Mechanism.parseClientFirst_bare {message : Text} {first : ScramClientFirst}
    (parsed : parseClientFirst message = .ok first) : first.bare <:+: message := by
  rw [parseClientFirst, parseScramClientFirst] at parsed
  split at parsed
  · cases parsed
  · rename_i bare stripped
    have suffix : bare <:+ message := by
      simp only [stripPrefix, Option.ite_none_right_eq_some, Option.some.injEq] at stripped
      rw [← stripped.2]
      exact List.drop_suffix _ _
    dsimp only at parsed
    split at parsed
    · cases parsed
    · cases parsed
    · cases parsed
      exact suffix.isInfix

theorem ScramSha256Mechanism.parseClientFinal_parts {message : Text} {final : ScramClientFinal}
    (parsed : parseClientFinal message = .ok final) :
    final.proof <:+: message ∧ final.withoutProof <:+: message := by
  rw [parseClientFinal, parseScramClientFinal] at parsed
  split at parsed
  · cases parsed
  · rename_i withoutProof after divided
    dsimp only at parsed
    split at parsed
    · cases parsed
    · cases parsed
    · cases parsed
    · rename_i found
      cases parsed
      exact ⟨scramAttribute_part (fun part member => splitOn_part member) found,
        (rsplitOnceAt_before divided).isInfix⟩

theorem ScramSha256Mechanism.required_ok {Value : Type} {context : String}
    {found : Option Value} {value : Value} (given : required context found = .ok value) :
    found = some value := by
  cases found with
  | none => cases given
  | some held => cases given; rfl

theorem ScramSha256Mechanism.step_accounts {entropy : Entropy} {mechanism : ScramSha256Mechanism}
    (tracked : Tracked crypto backend turns (.scramSha256 mechanism)) :
    Effect.Meets (step crypto backend.recorded entropy message) ⟨mechanism, (before, [])⟩
      (Accounts crypto backend .scramSha256 turns message before) := by
  have kept : ∀ turn, Tracked crypto backend (turns ++ [turn]) (.scramSha256 mechanism) :=
    fun turn => tracked.mono (List.subset_append_left turns [turn])
  apply Effect.meets_read_bind
  dsimp only
  split
  · refine Effect.meets_ofExcept_bind ?_ fun error => accounts_of_unsuccessful (by simp) (kept _)
    intro text decoded
    refine Effect.meets_ofExcept_bind ?_ fun error => accounts_of_unsuccessful (by simp) (kept _)
    intro first parsed
    refine Effect.meets_bind ?_ fun error _ => accounts_of_unsuccessful (by simp) (kept _)
    rintro ⟨salt, iterations⟩ given
    apply Effect.meets_modify_bind
    refine accounts_of_unsuccessful (by simp) ⟨?_, ?_, ?_⟩
    · intro bare stored
      cases stored
      exact ⟨_, List.mem_append_right _ List.mem_cons_self,
        Carries.of_part (decodeText_ok.mp decoded) (parseClientFirst_bare parsed)⟩
    · intro nonce salt iterations nonceStored saltStored iterationsStored
      cases nonceStored
      cases saltStored
      cases iterationsStored
      exact ⟨_, List.mem_append_right _ List.mem_cons_self, rfl⟩
    · intro username stored
      exact (kept _).2.2 username stored
  · refine Effect.meets_ofExcept_bind ?_ fun error => accounts_of_unsuccessful (by simp) (kept _)
    intro text decoded
    refine Effect.meets_ofExcept_bind ?_ fun error => accounts_of_unsuccessful (by simp) (kept _)
    intro final parsed
    by_cases unbound : final.channelBinding ≠ "biws".toList
    · rw [if_pos unbound]
      apply Effect.meets_modify_bind
      exact accounts_of_unsuccessful (by simp [rejected]) (kept _)
    rw [if_neg unbound]
    refine Effect.meets_ofExcept_bind ?_ fun error => accounts_of_unsuccessful (by simp) (kept _)
    intro nonce nonceGiven
    by_cases different : final.nonce ≠ nonce
    · rw [if_pos different]
      apply Effect.meets_modify_bind
      exact accounts_of_unsuccessful (by simp [rejected]) (kept _)
    rw [if_neg different]
    refine Effect.meets_ofExcept_bind ?_ fun error => accounts_of_unsuccessful (by simp) (kept _)
    intro name nameGiven
    refine Effect.meets_bind ?_ fun error _ => accounts_of_unsuccessful (by simp) (kept _)
    intro storedKey storedAnswer
    refine Effect.meets_bind ?_ fun error _ => accounts_of_unsuccessful (by simp) (kept _)
    intro serverKey serverAnswer
    refine Effect.meets_ofExcept_bind ?_ fun error => accounts_of_unsuccessful (by simp) (kept _)
    intro bare bareGiven
    refine Effect.meets_ofExcept_bind ?_ fun error => accounts_of_unsuccessful (by simp) (kept _)
    intro salt saltGiven
    refine Effect.meets_ofExcept_bind ?_ fun error => accounts_of_unsuccessful (by simp) (kept _)
    intro iterations iterationsGiven
    refine Effect.meets_ofExcept_bind ?_ fun error => accounts_of_unsuccessful (by simp) (kept _)
    intro valid verified
    by_cases invalid : ¬valid = true
    · rw [if_pos invalid]
      apply Effect.meets_modify_bind
      exact accounts_of_unsuccessful (by simp [rejected]) (kept _)
    rw [if_neg invalid]
    rw [not_not.mp invalid] at verified
    refine Effect.meets_ofExcept_bind ?_ fun error => accounts_of_unsuccessful (by simp) (kept _)
    intro signature signed
    apply Effect.meets_modify_bind
    refine Effect.meets_ofExcept_bind ?_ fun error => accounts_of_unsuccessful (by simp) (kept _)
    intro authenticated made
    apply Effect.meets_modify_bind
    refine accounts_of_unsuccessful (by simp) ⟨(kept _).1, (kept _).2.1, ?_⟩
    intro username stored
    cases stored
    have parts := parseClientFinal_parts parsed
    have utf8 := decodeText_ok.mp decoded
    have named := Username.new_text (usernameOf_ok.mp made)
    refine .proof _ final.proof (List.mem_append_right _ List.mem_cons_self)
      (Carries.of_part utf8 parts.1) ⟨storedKey, bare, serverFirst crypto nonce salt iterations,
        final.withoutProof, ?_, ?_, ?_, Carries.of_part utf8 parts.2, verified⟩
    · rw [named]
      have recorded : BackendCall.getScramStoredKey name
          (backend.getScramStoredKey name before).1 ∈
          [BackendCall.getScramStoredKey name (backend.getScramStoredKey name before).1] :=
        List.mem_cons_self
      exact storedAnswer ▸ recorded
    · exact (kept _).1 bare (required_ok bareGiven)
    · exact (kept _).2.1 nonce salt iterations (required_ok nonceGiven) (required_ok saltGiven)
        (required_ok iterationsGiven)
  · apply Effect.meets_modify_bind
    refine ⟨?_, kept _⟩
    intro username replied
    simp only [Effect.pure_apply, Except.ok.injEq, SaslStep.done.injEq, true_and] at replied
    exact (kept _).2.2 username replied
  · apply Effect.meets_modify_bind
    exact accounts_of_unsuccessful (by simp [rejected]) (kept _)

end Steps

section Runs

variable {crypto : SaslCrypto} {backend : AuthBackend β}

theorem SaslMechanism.step_accounts {dialog : Dialog β} {octets : Octets} {entropy : Entropy}
    (tracked : Tracked crypto backend dialog.turns dialog.mechanism)
    (genuine : Genuine crypto backend dialog (.message octets entropy)) :
    Effect.Meets (step crypto backend.recorded entropy octets)
      ⟨dialog.mechanism, (dialog.backend, [])⟩
      (Accounts crypto backend id dialog.turns octets dialog.backend) := by
  obtain ⟨mechanism, state, turns⟩ := dialog
  cases mechanism with
  | plain mechanism => exact PlainMechanism.step_accounts mechanism
  | login mechanism => exact LoginMechanism.step_accounts mechanism
  | cramMd5 mechanism => exact CramMd5Mechanism.step_accounts tracked genuine
  | scramSha256 mechanism => exact ScramSha256Mechanism.step_accounts tracked
  | xoauth2 mechanism => exact XOAuth2Mechanism.step_accounts genuine

theorem tracked_reset (mechanism : SaslMechanism) (turns : List (Turn β)) :
    Tracked crypto backend turns mechanism.reset := by
  cases mechanism with
  | plain mechanism => trivial
  | login mechanism => trivial
  | cramMd5 mechanism => simp [SaslMechanism.reset, CramMd5Mechanism.reset, Tracked]
  | scramSha256 mechanism => simp [SaslMechanism.reset, ScramSha256Mechanism.reset, Tracked]
  | xoauth2 mechanism => trivial

theorem Dialog.advance_proven {dialog : Dialog β} {input : DialogInput β}
    (proven : dialog.Proven crypto backend)
    (tracked : Tracked crypto backend dialog.turns dialog.mechanism)
    (genuine : Genuine crypto backend dialog input) :
    (dialog.advance crypto backend input).Proven crypto backend ∧
      Tracked crypto backend (dialog.advance crypto backend input).turns
        (dialog.advance crypto backend input).mechanism := by
  cases input with
  | message octets entropy =>
      obtain ⟨evidence, later⟩ := SaslMechanism.step_accounts tracked genuine
      refine ⟨?_, later⟩
      intro turn username last replied
      simp only [Dialog.advance, List.getLast?_append, List.getLast?_singleton,
        Option.some_or, Option.some.injEq] at last
      subst last
      exact evidence username replied
  | reset =>
      refine ⟨?_, tracked_reset dialog.mechanism []⟩
      intro turn username last
      cases last
  | elsewhere change => exact ⟨proven, tracked⟩

theorem createMechanism_fresh {server : SaslServer} {name : Text} {mechanism : SaslMechanism}
    (created : server.createMechanism name = .ok mechanism) : mechanism.reset = mechanism := by
  simp only [SaslServer.createMechanism] at created
  repeat' split at created
  all_goals cases created
  all_goals rfl

theorem Dialog.run_proven {dialog : Dialog β} {inputs : List (DialogInput β)}
    (proven : dialog.Proven crypto backend)
    (tracked : Tracked crypto backend dialog.turns dialog.mechanism)
    (genuine : ∀ earlier input later, inputs = earlier ++ input :: later →
      Genuine crypto backend (dialog.run crypto backend earlier) input) :
    (dialog.run crypto backend inputs).Proven crypto backend := by
  induction inputs generalizing dialog with
  | nil => exact proven
  | cons input rest ih =>
      obtain ⟨nextProven, nextTracked⟩ :=
        Dialog.advance_proven proven tracked (genuine [] input rest rfl)
      apply ih nextProven nextTracked
      intro earlier next later split
      exact genuine (input :: earlier) next later (by rw [split, List.cons_append])

/-- A mechanism the server builds never succeeds without evidence for the user, in
every run whose CRAM-MD5 digests and bearer tokens are genuine. -/
theorem success_has_evidence (server : SaslServer) (name : Text) (mechanism : SaslMechanism)
    (created : server.createMechanism name = .ok mechanism) (state : β)
    (inputs : List (DialogInput β))
    (genuine : ∀ earlier input later, inputs = earlier ++ input :: later →
      Genuine crypto backend (Dialog.run crypto backend ⟨mechanism, state, []⟩ earlier) input)
    (reached : List (DialogInput β)) (part : reached <+: inputs) :
    (Dialog.run crypto backend ⟨mechanism, state, []⟩ reached).Proven crypto backend := by
  obtain ⟨remaining, whole⟩ := part
  apply Dialog.run_proven
  · intro turn username last
    cases last
  · exact createMechanism_fresh created ▸ tracked_reset mechanism []
  · intro earlier input later split
    apply genuine earlier input (later ++ remaining)
    rw [← whole, split, List.append_assoc, List.cons_append]

end Runs

def unsupported {Value : Type} : Effect Text Unit Value :=
  Effect.fail "not supported by this AuthBackend".toList

def singleUser : AuthBackend Unit where
  authenticate username password := pure (username = aliceUser && password = "zebra".toList)
  verifyIdentity username := pure (username = aliceUser)
  getScramParams _ := unsupported
  getScramStoredKey _ := unsupported
  getScramServerKey _ := unsupported
  getApopSecret _ := unsupported
  verifyBearerToken _ := unsupported

def bearerResponse (token : Text) : Text :=
  "user=alice\x01auth=Bearer ".toList ++ token ++ "\x01\x01".toList

def bearerMessage (token : Text) : DialogInput Unit :=
  .message (encodeUtf8 (bearerResponse token)) ⟨.ok 0, .ok 0, 0⟩

theorem parseXoauth2Response_encode (text : Text) :
    XOAuth2Mechanism.parseXoauth2Response (encodeUtf8 text) =
      match scramAttribute ["user=".toList, "auth=Bearer ".toList] "user=".toList
          (splitOn '\x01' text),
        scramAttribute ["user=".toList, "auth=Bearer ".toList] "auth=Bearer ".toList
          (splitOn '\x01' text) with
      | none, _ => .error "Missing user in XOAUTH2 response".toList
      | some _, none => .error "Missing bearer token in XOAUTH2 response".toList
      | some user, some token => .ok (user, token) := by
  simp only [XOAuth2Mechanism.parseXoauth2Response, decodeText, decodeUtf8_encodeUtf8]
  rfl

theorem bearer_turns (crypto : SaslCrypto) {token : Text} (present : token ≠ [])
    (parsed : XOAuth2Mechanism.parseXoauth2Response (encodeUtf8 (bearerResponse token)) =
      .ok (aliceUser.text, token)) :
    (Dialog.run crypto singleUser ⟨.xoauth2 .new, (), []⟩ [bearerMessage token]).turns =
      [⟨encodeUtf8 (bearerResponse token), (), .ok (.done true (some aliceUser)), []⟩] := by
  have named : usernameOf aliceUser.text = .ok aliceUser := rfl
  simp [Dialog.run, Dialog.advance, bearerMessage, SaslMechanism.step, SaslMechanism.boxed,
    XOAuth2Mechanism.step, XOAuth2Mechanism.new, parsed, named, present, Effect.bind_apply,
    Exchange.ask, AuthBackend.recorded, passCall, singleUser, Exchange.become, verdict]

/-- A single turn that asked the backend nothing recorded and sent no challenge can
only rest on a token. -/
theorem evidence_of_single_turn {crypto : SaslCrypto} {backend : AuthBackend β} {message : Octets}
    {before : β} {success : Bool} {named : Option Username} {username : Username}
    (evidence : Evidence crypto backend [⟨message, before, .ok (.done success named), []⟩]
      username) :
    ∃ token, Carries message token ∧ TokenVerifies backend before username token := by
  cases evidence with
  | authenticated sent asked password sender asker carried answered =>
      rw [List.mem_singleton.mp asker] at answered
      cases answered
  | token turn token member carried verified =>
      rw [List.mem_singleton.mp member] at carried verified
      exact ⟨token, carried, verified⟩
  | digest turn challenge digest member carried challenged verified =>
      obtain ⟨replier, sender, replied⟩ := challenged
      rw [List.mem_singleton.mp sender] at replied
      cases replied
  | proof turn proof member carried verified =>
      obtain ⟨storedKey, bare, first, without, called, rest⟩ := verified
      rw [List.mem_singleton.mp member] at called
      cases called

theorem singleUser_token {token : Text}
    (verified : TokenVerifies singleUser () aliceUser token) : token = "zebra".toList := by
  simpa [TokenVerifies, HasPassword, singleUser, unsupported] using verified

theorem bearer_guess_succeeds :
    ¬∃ crypto : SaslCrypto, ∀ mechanism : SaslMechanism,
      SaslServer.createMechanism ⟨⟨["XOAUTH2".toList], "localhost".toList⟩⟩ "XOAUTH2".toList =
        .ok mechanism →
      (Dialog.run crypto singleUser ⟨mechanism, (), []⟩
        [bearerMessage "guess".toList]).Proven crypto singleUser := by
  rintro ⟨crypto, proven⟩
  have turns := bearer_turns crypto (by decide)
    (by rw [parseXoauth2Response_encode]; rfl : XOAuth2Mechanism.parseXoauth2Response
      (encodeUtf8 (bearerResponse "guess".toList)) = .ok (aliceUser.text, "guess".toList))
  have last := congrArg List.getLast? turns
  rw [List.getLast?_singleton] at last
  have created := proven (.xoauth2 .new) rfl
  have evidence := created _ aliceUser last rfl
  rw [turns] at evidence
  obtain ⟨token, carried, verified⟩ := evidence_of_single_turn evidence
  have low : 'z'.toNat < 128 := by decide
  have sent := (ascii_mem_encodeUtf8 low token).mpr (by simp [singleUser_token verified])
  have inside := (ascii_mem_encodeUtf8 low _).mp (carried.subset sent)
  exact absurd inside (by decide)

theorem bearer_password_has_evidence :
    ¬∃ crypto : SaslCrypto, ¬Evidence crypto singleUser
      (Dialog.run crypto singleUser ⟨.xoauth2 .new, (), []⟩
        [bearerMessage "zebra".toList]).turns aliceUser := by
  rintro ⟨crypto, missing⟩
  apply missing
  have parsed : XOAuth2Mechanism.parseXoauth2Response
      (encodeUtf8 (bearerResponse "zebra".toList)) = .ok (aliceUser.text, "zebra".toList) := by
    rw [parseXoauth2Response_encode]
    rfl
  have turns := bearer_turns crypto (by decide) parsed
  have genuine : ∀ earlier input later,
      [bearerMessage "zebra".toList] = earlier ++ input :: later →
      Genuine crypto singleUser
        (Dialog.run crypto singleUser ⟨.xoauth2 .new, (), []⟩ earlier) input := by
    intro earlier input later split
    cases earlier with
    | cons first rest => simp at split
    | nil =>
        simp only [List.nil_append, List.cons.injEq] at split
        rw [← split.1]
        intro name token username started given made known filled
        rw [parsed] at given
        cases given
        cases made
        exact Or.inl (Or.inl rfl)
  have proven := success_has_evidence ⟨⟨["XOAUTH2".toList], "localhost".toList⟩⟩
    "XOAUTH2".toList (.xoauth2 .new) rfl () [bearerMessage "zebra".toList] genuine
    [bearerMessage "zebra".toList] (List.prefix_rfl)
  have last := congrArg List.getLast? turns
  rw [List.getLast?_singleton] at last
  exact proven _ aliceUser last rfl

end Rusmes
