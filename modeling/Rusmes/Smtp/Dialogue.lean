import Rusmes.Smtp.Connection

/-!
The dialogue behind a session: who greeted, whether the client has logged in, and
the envelope of the transaction in progress. `Step` says what each thing a client
does may change; every turn of the connection loop is such a step, so what the
steps keep holds of every session the loop can reach.
-/

namespace Rusmes

open WireText Machine

variable {σ : Type}

structure Dialogue where
  remoteAddr : IpAddr
  config : SmtpConfig
  state : SmtpState
  heloName : Option Text
  ehloUsed : Bool
  authenticated : Bool
  sender : Option MailAddress
  recipients : List MailAddress
  smtputf8 : Bool

def SmtpSession.dialogue (session : SmtpSession) : Dialogue where
  remoteAddr := session.remoteAddr
  config := session.config
  state := session.state
  heloName := session.transaction.heloName
  ehloUsed := session.ehloUsed
  authenticated := session.authenticated
  sender := session.transaction.sender
  recipients := session.transaction.recipients
  smtputf8 := session.transaction.smtputf8

/-- What a turn is about: a command, a line that is none (an answer to a challenge
or an unrecognised one), or the text of a message. -/
inductive Happening
  | command (command : SmtpCommand)
  | line
  | message
  deriving DecidableEq, Repr

def Happening.OffersLogin : Happening → Prop
  | .command (.auth _ _) | .line => True
  | _ => False

/-- The client's address lies in a relay network, or the recipient's domain is one
of the local domains. -/
def Admitted (parseNetwork : Text → Option IpNetwork) (remoteAddr : IpAddr) (config : SmtpConfig)
    (recipient : MailAddress) : Prop :=
  isIpInNetworks parseNetwork remoteAddr config.relayNetworks = true ∨
    ∃ localDomain ∈ config.localDomains,
      eqIgnoreAsciiCase recipient.domain.asStr localDomain = true

def declaresSmtputf8 (params : List MailParam) : Prop :=
  ∃ param ∈ params, toUppercase param.keyword = "SMTPUTF8".toList

instance (params : List MailParam) : Decidable (declaresSmtputf8 params) :=
  inferInstanceAs (Decidable (∃ param ∈ params, toUppercase param.keyword = "SMTPUTF8".toList))

namespace Dialogue

def cleared (dialogue : Dialogue) : Dialogue :=
  { dialogue with state := .authenticated, sender := none, recipients := [], smtputf8 := false }

inductive Step (parseNetwork : Text → Option IpNetwork) (dialogue : Dialogue) :
    Happening → Dialogue → Prop
  | unchanged (happening : Happening) : Step parseNetwork dialogue happening dialogue
  | helo (name : Text)
      (early : dialogue.state = .connected ∨ dialogue.state = .authenticated) :
      Step parseNetwork dialogue (.command (.helo name))
        { dialogue with heloName := some name, ehloUsed := false, state := .authenticated }
  | ehlo (name : Text)
      (early : dialogue.state = .connected ∨ dialogue.state = .authenticated) :
      Step parseNetwork dialogue (.command (.ehlo name))
        { dialogue with heloName := some name, ehloUsed := true, state := .authenticated }
  | mailRefused (sender : MailAddress) (params : List MailParam)
      (ready : dialogue.state = .authenticated) (declared : declaresSmtputf8 params) :
      Step parseNetwork dialogue (.command (.mail sender params)) { dialogue with smtputf8 := true }
  | mailAccepted (sender : MailAddress) (params : List MailParam) (smtputf8 : Bool)
      (ready : dialogue.state = .authenticated)
      (allowed : dialogue.config.requireAuth = true → dialogue.authenticated = true)
      (raised : smtputf8 = true → dialogue.smtputf8 = true ∨ declaresSmtputf8 params)
      (needed : hasNonAscii sender.localPart = true → smtputf8 = true) :
      Step parseNetwork dialogue (.command (.mail sender params))
        { dialogue with sender := some sender, smtputf8, state := .mailTransaction }
  | rcptAccepted (recipient : MailAddress) (params : List MailParam)
      (started : dialogue.state = .mailTransaction)
      (allowed : dialogue.authenticated = true ∨
        Admitted parseNetwork dialogue.remoteAddr dialogue.config recipient) :
      Step parseNetwork dialogue (.command (.rcpt recipient params))
        { dialogue with recipients := dialogue.recipients ++ [recipient] }
  | dataAccepted (started : dialogue.state = .mailTransaction) :
      Step parseNetwork dialogue (.command .data) { dialogue with state := .data }
  | rset : Step parseNetwork dialogue (.command .rset) dialogue.cleared
  | login (happening : Happening) (offered : happening.OffersLogin) :
      Step parseNetwork dialogue happening { dialogue with authenticated := true }
  | messageOver : Step parseNetwork dialogue .message dialogue.cleared

end Dialogue

namespace SmtpSession

open Dialogue

theorem handleHelo_step (parseNetwork : Text → Option IpNetwork) (session : SmtpSession)
    (name : Text) :
    Step parseNetwork session.dialogue (.command (.helo name))
      (session.handleHelo name).2.dialogue := by
  simp only [handleHelo]
  split
  · exact .unchanged _
  · rename_i early
    exact .helo name (by simp only [dialogue]; tauto)

theorem handleEhlo_step (parseNetwork : Text → Option IpNetwork) (session : SmtpSession)
    (name : Text) :
    Step parseNetwork session.dialogue (.command (.ehlo name))
      (session.handleEhlo name).2.dialogue := by
  simp only [handleEhlo]
  split
  · exact .unchanged _
  · rename_i early
    exact .ehlo name (by simp only [dialogue]; tauto)

theorem mailParam_dialogue {session after : SmtpSession} {param : MailParam}
    (recorded : session.mailParam param = .ok after) :
    after.dialogue = session.dialogue ∨
      toUppercase param.keyword = "SMTPUTF8".toList ∧
        after.dialogue = { session.dialogue with smtputf8 := true } := by
  simp only [mailParam] at recorded
  split at recorded
  · split at recorded
    · cases recorded
    · split at recorded
      · cases recorded
      · split at recorded
        · cases recorded
        · cases recorded
          exact Or.inl rfl
  · split at recorded
    · split at recorded
      · cases recorded
      · split at recorded
        · cases recorded
          exact Or.inl rfl
        · cases recorded
    · split at recorded
      · rename_i named
        split at recorded
        · cases recorded
        · split at recorded
          · cases recorded
            exact Or.inr ⟨named, rfl⟩
          · cases recorded
      · cases recorded
        exact Or.inl rfl

theorem mailParams_dialogue (session : SmtpSession) (params : List MailParam) :
    (session.mailParams params).2.dialogue = session.dialogue ∨
      declaresSmtputf8 params ∧
        (session.mailParams params).2.dialogue = { session.dialogue with smtputf8 := true } := by
  induction params generalizing session with
  | nil => exact Or.inl rfl
  | cons param rest ih =>
      cases recorded : session.mailParam param with
      | error response => simp [mailParams, recorded]
      | ok after =>
          simp only [mailParams, recorded]
          rcases mailParam_dialogue recorded with same | ⟨named, raised⟩
          · rcases ih after with kept | ⟨⟨other, member, name⟩, later⟩
            · exact Or.inl (kept.trans same)
            · exact Or.inr ⟨⟨other, List.mem_cons_of_mem _ member, name⟩, by rw [later, same]⟩
          · refine Or.inr ⟨⟨param, List.mem_cons_self, named⟩, ?_⟩
            rcases ih after with kept | ⟨_, later⟩
            · exact kept.trans raised
            · rw [later, raised]

theorem handleMail_step (services : SmtpServices σ) (session : SmtpSession) (sender : MailAddress)
    (params : List MailParam) (world : σ) :
    Step services.parseNetwork session.dialogue (.command (.mail sender params))
      (session.handleMail services sender params world).2.1.dialogue := by
  have noted := session.mailParams_dialogue params
  have refused (ready : session.state = .authenticated) :
      Step services.parseNetwork session.dialogue (.command (.mail sender params))
        (session.mailParams params).2.dialogue := by
    rcases noted with same | ⟨declared, raised⟩
    · rw [same]
      exact .unchanged _
    · rw [raised]
      exact .mailRefused sender params ready declared
  simp only [handleMail]
  split
  · exact .unchanged _
  rename_i ready
  simp only [ne_eq, not_not] at ready
  split
  · exact .unchanged _
  rename_i gated
  split
  · exact .unchanged _
  split
  · rename_i response after outcome
    have kept := refused ready
    rwa [outcome] at kept
  rename_i after outcome
  split
  · have kept := refused ready
    rwa [outcome] at kept
  rename_i plain
  have opened : ({ after with
      transaction.sender := some sender, state := .mailTransaction } : SmtpSession).dialogue =
      { session.dialogue with
        sender := some sender
        smtputf8 := after.dialogue.smtputf8
        state := .mailTransaction } := by
    have direct : ({ after with
        transaction.sender := some sender, state := .mailTransaction } : SmtpSession).dialogue =
        { after.dialogue with sender := some sender, state := .mailTransaction } := rfl
    rw [outcome] at noted
    rcases noted with same | ⟨_, raised⟩
    · rw [direct, same]
    · rw [direct, raised]
  rw [opened]
  refine .mailAccepted sender params _ ready ?_ ?_ ?_
  · simp only [dialogue]
    tauto
  · intro set
    rw [outcome] at noted
    rcases noted with same | ⟨declared, _⟩
    · exact Or.inl (by rw [← same]; exact set)
    · exact Or.inr declared
  · tauto

theorem validateRecipient_dialogue (services : SmtpServices σ) (session : SmtpSession)
    (recipient : MailAddress) (world : σ) :
    (session.validateRecipient services recipient world).2.1.dialogue = session.dialogue := by
  simp only [validateRecipient]
  split
  · split
    · rfl
    · split <;> rfl
  · split
    · rfl
    · split
      · rfl
      · split <;> rfl

theorem rejectsRecipient_dialogue (services : SmtpServices σ) (session : SmtpSession)
    (recipient : MailAddress) (world : σ) :
    (session.rejectsRecipient services recipient world).2.1.dialogue = session.dialogue := by
  have kept := session.validateRecipient_dialogue services recipient world
  simp only [rejectsRecipient]
  split
  · split
    all_goals
      rename_i outcome
      rw [outcome] at kept
      exact kept
  · rfl

theorem isRelayAllowed_admitted {services : SmtpServices σ} {session : SmtpSession}
    {recipient : MailAddress} (allowed : session.isRelayAllowed services recipient = true) :
    session.authenticated = true ∨
      Admitted services.parseNetwork session.remoteAddr session.config recipient := by
  simp only [isRelayAllowed, Bool.or_eq_true, List.any_eq_true] at allowed
  rcases allowed with (known | inside) | ⟨localDomain, member, same⟩
  · exact Or.inl known
  · exact Or.inr (Or.inl inside)
  · exact Or.inr (Or.inr ⟨localDomain, member, same⟩)

theorem handleRcpt_step (services : SmtpServices σ) (session : SmtpSession)
    (recipient : MailAddress) (params : List MailParam) (world : σ) :
    Step services.parseNetwork session.dialogue (.command (.rcpt recipient params))
      (session.handleRcpt services recipient world).2.1.dialogue := by
  have kept := session.rejectsRecipient_dialogue services recipient world
  simp only [handleRcpt]
  split
  · exact .unchanged _
  rename_i started
  simp only [ne_eq, not_not] at started
  split
  · exact .unchanged _
  rename_i relayed
  split
  · rename_i after next outcome
    rw [outcome] at kept
    rw [kept]
    exact .unchanged _
  · rename_i after next outcome
    rw [outcome] at kept
    have direct : ({ after with
        transaction.recipients := after.transaction.recipients ++ [recipient] } :
          SmtpSession).dialogue =
        { after.dialogue with recipients := after.dialogue.recipients ++ [recipient] } := rfl
    rw [direct, kept]
    exact .rcptAccepted recipient params started (isRelayAllowed_admitted (by simpa using relayed))

theorem handleData_step (parseNetwork : Text → Option IpNetwork) (session : SmtpSession) :
    Step parseNetwork session.dialogue (.command .data) session.handleData.2.dialogue := by
  simp only [handleData]
  split
  · exact .unchanged _
  rename_i started
  simp only [ne_eq, not_not] at started
  split
  · exact .unchanged _
  · exact .dataAccepted started

theorem handleBdat_dialogue (session : SmtpSession) (chunkSize : Nat) :
    (session.handleBdat chunkSize).2.dialogue = session.dialogue := by
  simp only [handleBdat]
  split
  · rfl
  · split
    · rfl
    · split <;> rfl

theorem handleStarttls_dialogue (session : SmtpSession) :
    session.handleStarttls.2.dialogue = session.dialogue := by
  simp only [handleStarttls]
  split <;> rfl

theorem handleAuthPlain_dialogue (services : SmtpServices σ) (session : SmtpSession)
    (response : Text) (world : σ) :
    (session.handleAuthPlain services response world).2.1.dialogue = session.dialogue ∨
      (session.handleAuthPlain services response world).2.1.dialogue =
        { session.dialogue with authenticated := true } := by
  simp only [handleAuthPlain]
  split
  · exact Or.inl rfl
  · split
    · exact Or.inl rfl
    · split
      · exact Or.inr rfl
      · exact Or.inl rfl
      · exact Or.inl rfl

theorem handleAuthCramMd5_dialogue (services : SmtpServices σ) (session : SmtpSession) (world : σ) :
    (session.handleAuthCramMd5 services world).2.1.dialogue = session.dialogue := by
  simp only [handleAuthCramMd5]
  split <;> rfl

theorem handleAuthScramSha256_dialogue (services : SmtpServices σ) (session : SmtpSession)
    (initialResponse : Option Text) (world : σ) :
    (session.handleAuthScramSha256 services initialResponse world).2.1.dialogue =
      session.dialogue := by
  simp only [handleAuthScramSha256]
  split
  · rfl
  · split
    · rfl
    · split
      · rfl
      · split <;> rfl

theorem handleAuth_dialogue (services : SmtpServices σ) (session : SmtpSession) (mechanism : Text)
    (initialResponse : Option Text) (world : σ) :
    (session.handleAuth services mechanism initialResponse world).2.1.dialogue =
        session.dialogue ∨
      (session.handleAuth services mechanism initialResponse world).2.1.dialogue =
        { session.dialogue with authenticated := true } := by
  simp only [handleAuth]
  split
  · exact Or.inl rfl
  · split
    · exact Or.inl (session.handleAuthCramMd5_dialogue services world)
    · split
      · exact Or.inl (session.handleAuthScramSha256_dialogue services initialResponse world)
      · split
        · split
          · exact session.handleAuthPlain_dialogue services _ world
          · exact Or.inl rfl
        · split <;> exact Or.inl rfl

theorem handleCramMd5Response_dialogue (services : SmtpServices σ) (session : SmtpSession)
    (line : Text) (world : σ) :
    (session.handleCramMd5Response services line world).2.1.dialogue = session.dialogue := by
  simp only [handleCramMd5Response]
  split
  · rfl
  · split
    · rfl
    · split
      · rfl
      · split
        · rfl
        · split <;> rfl

theorem handleScramClientFinal_dialogue (services : SmtpServices σ) (session : SmtpSession)
    (line : Text) :
    (session.handleScramClientFinal services line).2.dialogue = session.dialogue ∨
      (session.handleScramClientFinal services line).2.dialogue =
        { session.dialogue with authenticated := true } := by
  simp only [handleScramClientFinal]
  split
  · exact Or.inl rfl
  · split
    · exact Or.inl rfl
    · split
      · exact Or.inl rfl
      · split
        · exact Or.inl rfl
        · split
          · exact Or.inl rfl
          · exact Or.inl rfl
          · split
            · exact Or.inl rfl
            · exact Or.inr rfl

theorem handleCommand_step (services : SmtpServices σ) (session : SmtpSession)
    {command : SmtpCommand} (staying : command ≠ .quit) (world : σ) :
    Step services.parseNetwork session.dialogue (.command command)
      (session.handleCommand services command world).2.1.dialogue := by
  cases command with
  | helo name => exact session.handleHelo_step _ name
  | ehlo name => exact session.handleEhlo_step _ name
  | mail sender params => exact session.handleMail_step services sender params world
  | rcpt recipient params => exact session.handleRcpt_step services recipient params world
  | data => exact session.handleData_step _
  | bdat chunkSize last =>
      have kept := session.handleBdat_dialogue chunkSize
      simp only [handleCommand, kept]
      exact .unchanged _
  | rset => exact .rset
  | noop => exact .unchanged _
  | quit => exact absurd rfl staying
  | vrfy query => exact .unchanged _
  | expn list => exact .unchanged _
  | help topic => exact .unchanged _
  | startTls =>
      have kept := session.handleStarttls_dialogue
      simp only [handleCommand, kept]
      exact .unchanged _
  | auth mechanism initialResponse =>
      simp only [handleCommand]
      rcases session.handleAuth_dialogue services mechanism initialResponse world with same | known
      · rw [same]
        exact .unchanged _
      · rw [known]
        exact .login _ trivial

end SmtpSession

namespace Connection

open Dialogue

def happening (env : SmtpEnv σ) (connection : Connection σ) : Happening :=
  if connection.receiving then .message
  else
    match connection.awaitLine env with
    | .left _ => .line
    | .line line after =>
        if after.session.cramMd5Challenge.isSome ∨ after.session.scramState.isSome then .line
        else
          match parseCommandSmtputf8 line after.session.ehloUsed with
          | .error _ => .line
          | .ok command => .command command

theorem writeResponse_kept {env : SmtpEnv σ} {response : SmtpResponse}
    {connection after : Connection σ} {sent : Bool}
    (wrote : connection.writeResponse env response = (sent, after)) :
    after.session = connection.session ∧ after.queued = connection.queued ∧
      after.input = connection.input ∧ after.receiving = connection.receiving := by
  simp only [writeResponse] at wrote
  split at wrote
  · cases wrote
    exact ⟨rfl, rfl, rfl, rfl⟩
  · split at wrote <;> cases wrote <;> exact ⟨rfl, rfl, rfl, rfl⟩

theorem reply_next {env : SmtpEnv σ} {response : SmtpResponse} {connection after : Connection σ}
    (went : reply env response connection = .next after) :
    after.session = connection.session ∧ after.queued = connection.queued ∧
      after.input = connection.input ∧ after.receiving = connection.receiving := by
  simp only [reply] at went
  split at went
  · rename_i written wrote
    cases went
    exact writeResponse_kept wrote
  · cases went

theorem close_ended (env : SmtpEnv σ) (ending : Ending) (response : SmtpResponse)
    (connection after : Connection σ) : close env ending response connection ≠ .next after := by
  intro went
  simp only [close] at went
  split at went <;> cases went

theorem awaitLine_kept {env : SmtpEnv σ} {connection after : Connection σ} {line : Text}
    (awaited : connection.awaitLine env = .line line after) :
    after.session = connection.session ∧ after.queued = connection.queued ∧
      after.receiving = connection.receiving := by
  simp only [awaitLine] at awaited
  split at awaited
  · cases awaited
  · split at awaited
    · cases awaited
    · split at awaited
      · cases awaited
      · cases awaited
      · cases awaited
        exact ⟨rfl, rfl, rfl⟩

theorem awaitLine_left {env : SmtpEnv σ} {connection after : Connection σ}
    {progress : Progress (Connection σ) (Ending × Connection σ)}
    (awaited : connection.awaitLine env = .left progress) : progress ≠ .next after := by
  simp only [awaitLine] at awaited
  split at awaited
  · cases awaited
    exact close_ended env _ _ _ after
  · split at awaited
    · cases awaited
      exact close_ended env _ _ _ after
    · split at awaited <;> cases awaited <;> simp

inductive Turned (env : SmtpEnv σ) (connection after : Connection σ) : Happening → Prop
  | message (receiving : connection.receiving = true)
      (went : dataTurn env connection = .next after) : Turned env connection after .message
  | cramMd5 (line : Text) (next : Connection σ) (idle : connection.receiving = false)
      (awaited : connection.awaitLine env = .line line next)
      (pending : next.session.cramMd5Challenge.isSome = true)
      (went : cramMd5Turn env line next = .next after) : Turned env connection after .line
  | scram (line : Text) (next : Connection σ) (idle : connection.receiving = false)
      (awaited : connection.awaitLine env = .line line next)
      (pending : next.session.scramState.isSome = true)
      (went : scramTurn env line next = .next after) : Turned env connection after .line
  | unrecognized (line : Text) (next : Connection σ) (idle : connection.receiving = false)
      (awaited : connection.awaitLine env = .line line next)
      (went : reply env (.syntaxError "Command not recognized".toList) next = .next after) :
      Turned env connection after .line
  | command (line : Text) (next : Connection σ) (idle : connection.receiving = false)
      (awaited : connection.awaitLine env = .line line next) (command : SmtpCommand)
      (parsed : parseCommandSmtputf8 line next.session.ehloUsed = .ok command)
      (went : commandTurn env command next = .next after) :
      Turned env connection after (.command command)

theorem turn_next {env : SmtpEnv σ} {connection after : Connection σ}
    (went : connection.turn env = .next after) :
    Turned env connection after (connection.happening env) := by
  cases receiving : connection.receiving with
  | true =>
      simp only [turn, receiving, if_true] at went
      simp only [happening, receiving, if_true]
      exact .message receiving went
  | false =>
      simp only [turn, receiving, Bool.false_eq_true, if_false] at went
      simp only [happening, receiving, Bool.false_eq_true, if_false]
      cases awaited : connection.awaitLine env with
      | left progress =>
          simp only [awaited] at went
          exact absurd went (awaitLine_left awaited)
      | line line next =>
          simp only [awaited, lineTurn] at went
          by_cases challenged : next.session.cramMd5Challenge.isSome = true
          · simp only [challenged, if_true] at went
            simp only [challenged, true_or, if_true]
            exact .cramMd5 line next receiving awaited challenged went
          · by_cases pending : next.session.scramState.isSome = true
            · simp only [challenged, pending, Bool.false_eq_true, if_false, if_true] at went
              simp only [pending, or_true, if_true]
              exact .scram line next receiving awaited pending went
            · simp only [challenged, pending, Bool.false_eq_true, if_false] at went
              simp only [challenged, pending, or_self, Bool.false_eq_true, if_false]
              cases parsed : parseCommandSmtputf8 line next.session.ehloUsed with
              | error error =>
                  simp only [parsed] at went
                  exact .unrecognized line next receiving awaited went
              | ok command =>
                  simp only [parsed] at went
                  exact .command line next receiving awaited command parsed went

theorem cramMd5Turn_step {env : SmtpEnv σ} {line : Text} {connection after : Connection σ}
    (went : cramMd5Turn env line connection = .next after) :
    after.session.dialogue = connection.session.dialogue ∧ after.queued = connection.queued := by
  have kept := connection.session.handleCramMd5Response_dialogue env.toSmtpServices line
    connection.world
  simp only [cramMd5Turn] at went
  obtain ⟨session, queued, _⟩ := reply_next went
  exact ⟨by rw [session]; exact kept, queued⟩

theorem scramTurn_step {env : SmtpEnv σ} {line : Text} {connection after : Connection σ}
    (went : scramTurn env line connection = .next after) :
    (after.session.dialogue = connection.session.dialogue ∨
      after.session.dialogue = { connection.session.dialogue with authenticated := true }) ∧
      after.queued = connection.queued := by
  have moved := connection.session.handleScramClientFinal_dialogue env.toSmtpServices line
  simp only [scramTurn] at went
  split at went
  all_goals
    rename_i outcome
    rw [outcome] at moved
    obtain ⟨session, queued, _⟩ := reply_next went
    refine ⟨?_, queued⟩
    rw [session]
    exact moved

theorem commandTurn_step {env : SmtpEnv σ} {command : SmtpCommand} {connection after : Connection σ}
    (went : commandTurn env command connection = .next after) :
    after.session = (connection.session.handleCommand env.toSmtpServices command
      connection.world).2.1 ∧ after.queued = connection.queued ∧
        after.input = connection.input ∧ command ≠ .quit := by
  simp only [commandTurn] at went
  split at went
  · cases went
  · rename_i written wrote
    obtain ⟨session, queued, input, _⟩ := writeResponse_kept wrote
    split at went
    · cases went
    · rename_i staying
      cases went
      refine ⟨session, queued, input, fun leaving => staying ?_⟩
      rw [session, leaving]
      rfl

theorem finishMessage_kept {env : SmtpEnv σ} {response : SmtpResponse}
    {messages : List AcceptedMessage} {connection after : Connection σ} {result : Except Text Unit}
    (finished : finishMessage env response messages connection = (result, after)) :
    (after.session.dialogue = connection.session.dialogue ∧ after.queued = connection.queued) ∨
      (after.session.dialogue = connection.session.dialogue.cleared ∧
        after.queued = connection.queued ++ messages) := by
  simp only [finishMessage] at finished
  split at finished
  · rename_i written wrote
    obtain ⟨session, queued, _⟩ := writeResponse_kept wrote
    cases finished
    exact Or.inl ⟨by rw [session], queued⟩
  · rename_i written wrote
    obtain ⟨session, queued, _⟩ := writeResponse_kept wrote
    cases finished
    exact Or.inr ⟨by rw [session]; rfl, by rw [queued]⟩

theorem handleDataInput_step {env : SmtpEnv σ} {connection after : Connection σ}
    {result : Except Text Unit} (handled : handleDataInput env connection = (result, after)) :
    Step env.parseNetwork connection.session.dialogue .message after.session.dialogue ∧
      ∀ message ∈ after.queued, message ∈ connection.queued ∨
        message.recipients = connection.session.transaction.recipients := by
  have finish {start : Connection σ} {response : SmtpResponse} {messages : List AcceptedMessage}
      (finished : finishMessage env response messages start = (result, after))
      (same : start.session.dialogue = connection.session.dialogue)
      (queue : start.queued = connection.queued)
      (own : ∀ message ∈ messages,
        message.recipients = connection.session.transaction.recipients) :
      Step env.parseNetwork connection.session.dialogue .message after.session.dialogue ∧
        ∀ message ∈ after.queued, message ∈ connection.queued ∨
          message.recipients = connection.session.transaction.recipients := by
    rcases finishMessage_kept finished with ⟨kept, queued⟩ | ⟨closed, queued⟩
    · rw [kept, same, queued, queue]
      exact ⟨.unchanged _, fun message member => Or.inl member⟩
    · rw [closed, same, queued, queue]
      refine ⟨.messageOver, fun message member => ?_⟩
      rcases List.mem_append.mp member with before | new
      · exact Or.inl before
      · exact Or.inr (own message new)
  simp only [handleDataInput] at handled
  split at handled
  · cases handled
    exact ⟨.unchanged _, fun message member => Or.inl member⟩
  · exact finish handled rfl rfl (by simp)
  · split at handled
    · exact finish handled rfl rfl (by simp)
    · split at handled
      · exact finish handled rfl rfl (by simp)
      · exact finish handled rfl rfl (by simp)

theorem dataTurn_step {env : SmtpEnv σ} {connection after : Connection σ}
    (went : dataTurn env connection = .next after) :
    Step env.parseNetwork connection.session.dialogue .message after.session.dialogue ∧
      ∀ message ∈ after.queued, message ∈ connection.queued ∨
        message.recipients = connection.session.transaction.recipients := by
  simp only [dataTurn] at went
  split at went
  · rename_i next handled
    have moved := handleDataInput_step handled
    cases went
    exact moved
  · rename_i error next handled
    obtain ⟨session, queued, _⟩ := reply_next went
    have moved := handleDataInput_step handled
    rw [session, queued]
    exact moved

theorem turn_step {env : SmtpEnv σ} {connection after : Connection σ}
    (went : connection.turn env = .next after) :
    Step env.parseNetwork connection.session.dialogue (connection.happening env)
        after.session.dialogue ∧
      ∀ message ∈ after.queued, message ∈ connection.queued ∨
        message.recipients = connection.session.transaction.recipients := by
  have quiet {queued : List AcceptedMessage} (same : after.queued = queued)
      (start : queued = connection.queued) :
      ∀ message ∈ after.queued, message ∈ connection.queued ∨
        message.recipients = connection.session.transaction.recipients := by
    intro message member
    rw [same, start] at member
    exact Or.inl member
  have turned := turn_next went
  generalize connection.happening env = happening at turned ⊢
  cases turned with
  | message receiving went => exact dataTurn_step went
  | cramMd5 line next idle awaited pending went =>
      obtain ⟨session, queue, _⟩ := awaitLine_kept awaited
      obtain ⟨same, queued⟩ := cramMd5Turn_step went
      rw [same, session]
      exact ⟨.unchanged _, quiet queued queue⟩
  | scram line next idle awaited pending went =>
      obtain ⟨session, queue, _⟩ := awaitLine_kept awaited
      obtain ⟨moved, queued⟩ := scramTurn_step went
      rw [session] at moved
      refine ⟨?_, quiet queued queue⟩
      rcases moved with same | known
      · rw [same]
        exact .unchanged _
      · rw [known]
        exact .login _ trivial
  | unrecognized line next idle awaited went =>
      obtain ⟨session, queue, _⟩ := awaitLine_kept awaited
      obtain ⟨same, queued, _⟩ := reply_next went
      rw [same, session]
      exact ⟨.unchanged _, quiet queued queue⟩
  | command line next idle awaited command parsed went =>
      obtain ⟨session, queue, _⟩ := awaitLine_kept awaited
      obtain ⟨same, queued, _, staying⟩ := commandTurn_step went
      have stepped := next.session.handleCommand_step env.toSmtpServices staying next.world
      rw [← same, session] at stepped
      exact ⟨stepped, quiet queued queue⟩

theorem turn_receiving {env : SmtpEnv σ} {connection after : Connection σ}
    (went : connection.turn env = .next after) (receiving : after.receiving = true) :
    after.session.state = .data := by
  have quiet {next : Connection σ} {line : Text} (idle : connection.receiving = false)
      (awaited : connection.awaitLine env = .line line next)
      (same : after.receiving = next.receiving) : after.session.state = .data := by
    rw [same, (awaitLine_kept awaited).2.2, idle] at receiving
    cases receiving
  have turned := turn_next went
  generalize connection.happening env = happening at turned
  cases turned with
  | message _ went =>
      simp only [dataTurn] at went
      split at went
      · cases went
        cases receiving
      · rw [(reply_next went).2.2.2] at receiving
        cases receiving
  | cramMd5 line next idle awaited pending went =>
      simp only [cramMd5Turn] at went
      exact quiet idle awaited (reply_next went).2.2.2
  | scram line next idle awaited pending went =>
      simp only [scramTurn] at went
      split at went
      · exact quiet idle awaited (reply_next went).2.2.2
      · exact quiet idle awaited (reply_next went).2.2.2
  | unrecognized line next idle awaited went => exact quiet idle awaited (reply_next went).2.2.2
  | command line next idle awaited command parsed went =>
      simp only [commandTurn] at went
      split at went
      · cases went
      · split at went
        · cases went
        · cases went
          exact (of_decide_eq_true receiving).2

end Connection

end Rusmes
