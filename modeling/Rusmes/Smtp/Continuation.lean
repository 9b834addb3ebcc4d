import Rusmes.Smtp.Dialogue

/-!
What happens to the line after a 334. The loop knows of an exchange that goes on only by
two fields of the session, the pending CRAM-MD5 challenge and the SCRAM state; without
them the line is parsed as a command.
-/

namespace Rusmes

open WireText Machine

variable {σ : Type}

inductive SmtpReading
  | cramMd5Response
  | scramClientFinal
  | command (parsed : Except Text SmtpCommand)

namespace SmtpSession

def reading (session : SmtpSession) (line : Text) : SmtpReading :=
  if session.cramMd5Challenge.isSome then .cramMd5Response
  else if session.scramState.isSome then .scramClientFinal
  else .command (parseCommandSmtputf8 line session.ehloUsed)

def AwaitsExchange (session : SmtpSession) : Prop :=
  session.cramMd5Challenge.isSome = true ∨ session.scramState.isSome = true

def HandsToParser (session : SmtpSession) (line : Text) : Prop :=
  session.reading line = .command (parseCommandSmtputf8 line session.ehloUsed)

theorem handsToParser_iff {session : SmtpSession} {line : Text} :
    session.HandsToParser line ↔ ¬ session.AwaitsExchange := by
  rw [HandsToParser, reading, AwaitsExchange]
  cases session.cramMd5Challenge <;> cases session.scramState <;> simp

end SmtpSession

namespace Connection

def readingTurn (env : SmtpEnv σ) (line : Text) (connection : Connection σ) :
    SmtpReading → Progress (Connection σ) (Ending × Connection σ)
  | .cramMd5Response => cramMd5Turn env line connection
  | .scramClientFinal => scramTurn env line connection
  | .command (.error _) => reply env (.syntaxError "Command not recognized".toList) connection
  | .command (.ok command) => commandTurn env command connection

theorem lineTurn_reading (env : SmtpEnv σ) (line : Text) (connection : Connection σ) :
    connection.lineTurn env line =
      connection.readingTurn env line (connection.session.reading line) := by
  simp only [lineTurn, SmtpSession.reading]
  by_cases challenged : connection.session.cramMd5Challenge.isSome = true
  · rw [if_pos challenged, if_pos challenged, readingTurn]
  · rw [if_neg challenged, if_neg challenged]
    by_cases pending : connection.session.scramState.isSome = true
    · rw [if_pos pending, if_pos pending, readingTurn]
    · rw [if_neg pending, if_neg pending]
      cases parseCommandSmtputf8 line connection.session.ehloUsed <;> rfl

theorem commandTurn_auth_session {env : SmtpEnv σ} {mechanism : Text}
    {initialResponse : Option Text} {connection after : Connection σ}
    (went : connection.commandTurn env (.auth mechanism initialResponse) = .next after) :
    after.session = (connection.session.handleAuth env.toSmtpServices mechanism initialResponse
      connection.world).2.1 ∧ after.receiving = false := by
  simp only [commandTurn, SmtpSession.handleCommand] at went
  split at went
  · cases went
  · rename_i next wrote
    split at went
    · cases went
    · cases went
      exact ⟨(writeResponse_kept wrote).1, rfl⟩

end Connection

namespace SmtpSession

def PromptsOnly (mechanism : Text) (initialResponse : Option Text) : Prop :=
  toUppercase mechanism = "LOGIN".toList ∨
    (toUppercase mechanism = "PLAIN".toList ∨ toUppercase mechanism = "SCRAM-SHA-256".toList) ∧
      initialResponse = none

section Auth

variable (services : SmtpServices σ) (session : SmtpSession) (world : σ)

theorem handleAuthPlain_answer (response : Text) :
    (session.handleAuthPlain services response world).1.code ≠ 334 ∧
      ((session.handleAuthPlain services response world).2.1.AwaitsExchange ↔
        session.AwaitsExchange) := by
  simp only [handleAuthPlain]
  repeat' split
  all_goals exact ⟨by simp [SmtpResponse.new], Iff.rfl⟩

theorem handleAuthCramMd5_awaits {reply : SmtpResponse}
    (answered : (session.handleAuthCramMd5 services world).1 = .ok reply) :
    (session.handleAuthCramMd5 services world).2.1.AwaitsExchange := by
  simp only [handleAuthCramMd5] at answered ⊢
  split at answered
  · cases answered
  · exact Or.inl rfl

theorem handleAuthScramSha256_awaits {encoded : Text} {reply : SmtpResponse}
    (answered : (session.handleAuthScramSha256 services (some encoded) world).1 = .ok reply)
    (asked : reply.code = 334) :
    (session.handleAuthScramSha256 services (some encoded) world).2.1.AwaitsExchange := by
  simp only [handleAuthScramSha256] at answered ⊢
  split at answered
  · cases answered
  · split at answered
    · cases answered
    · split at answered
      · cases answered
        cases asked
      · cases answered
        cases asked
      · exact Or.inr rfl

theorem handleAuth_keeps (mechanism : Text) (initialResponse : Option Text)
    (pending : session.AwaitsExchange) :
    (session.handleAuth services mechanism initialResponse world).2.1.AwaitsExchange := by
  simp only [handleAuth]
  split
  · exact pending
  · split
    · simp only [handleAuthCramMd5]
      split
      · exact pending
      · exact Or.inl rfl
    · split
      · simp only [handleAuthScramSha256]
        repeat' split
        all_goals first | exact pending | exact Or.inr rfl
      · split
        · split
          · exact (session.handleAuthPlain_answer services world _).2.mpr pending
          · exact pending
        · split <;> exact pending

theorem handleAuth_awaits {mechanism : Text} {initialResponse : Option Text}
    (noted : ¬ PromptsOnly mechanism initialResponse) {reply : SmtpResponse}
    (answered : (session.handleAuth services mechanism initialResponse world).1 = .ok reply)
    (asked : reply.code = 334) :
    (session.handleAuth services mechanism initialResponse world).2.1.AwaitsExchange := by
  rw [PromptsOnly, not_or] at noted
  simp only [handleAuth] at answered ⊢
  by_cases required : session.config.requireAuth = true
  · rw [if_neg (not_not.mpr required)] at answered ⊢
    by_cases cram : toUppercase mechanism = "CRAM-MD5".toList
    · rw [if_pos cram] at answered ⊢
      exact session.handleAuthCramMd5_awaits services world answered
    · rw [if_neg cram] at answered ⊢
      by_cases scram : toUppercase mechanism = "SCRAM-SHA-256".toList
      · rw [if_pos scram] at answered ⊢
        cases initialResponse with
        | none => exact absurd ⟨Or.inr scram, rfl⟩ noted.2
        | some encoded =>
            exact session.handleAuthScramSha256_awaits services world answered asked
      · rw [if_neg scram] at answered ⊢
        by_cases plain : toUppercase mechanism = "PLAIN".toList
        · rw [if_pos plain] at answered ⊢
          cases initialResponse with
          | none => exact absurd ⟨Or.inl plain, rfl⟩ noted.2
          | some response =>
              cases answered
              exact absurd asked (session.handleAuthPlain_answer services world response).1
        · rw [if_neg plain, if_neg noted.1] at answered
          cases answered
          cases asked
  · rw [if_pos required] at answered
    cases answered
    cases asked

theorem handleAuth_prompts {mechanism : Text} {initialResponse : Option Text}
    (required : session.config.requireAuth = true) (prompts : PromptsOnly mechanism initialResponse) :
    ∃ reply, reply.code = 334 ∧
      session.handleAuth services mechanism initialResponse world = (.ok reply, session, world) := by
  simp only [handleAuth]
  rw [if_neg (not_not.mpr required)]
  rcases prompts with login | ⟨plain | scram, rfl⟩
  · rw [login]
    exact ⟨.new 334 "VXNlcm5hbWU6".toList, rfl, rfl⟩
  · rw [plain]
    exact ⟨.new 334 [], rfl, rfl⟩
  · rw [scram]
    exact ⟨.new 334 [], rfl, rfl⟩

end Auth

end SmtpSession

/-- The line after a 334 is taken for the answer exactly if the exchange was noted: not
after AUTH LOGIN, nor after AUTH PLAIN or SCRAM-SHA-256 without an initial response. -/
theorem auth_prompt_answered_iff (env : SmtpEnv σ) (connection : Connection σ) (mechanism : Text)
    (initialResponse : Option Text) :
    let handled := connection.session.handleAuth env.toSmtpServices mechanism initialResponse
      connection.world
    (∀ after : Connection σ,
        connection.commandTurn env (.auth mechanism initialResponse) = .next after →
          after.session = handled.2.1 ∧ after.receiving = false ∧
            ∀ line, after.lineTurn env line =
              after.readingTurn env line (after.session.reading line)) ∧
      ((∀ reply, handled.1 = .ok reply → reply.code = 334 →
          ∀ line, ¬ handled.2.1.HandsToParser line) ↔
        (connection.session.config.requireAuth = true →
          SmtpSession.PromptsOnly mechanism initialResponse →
            connection.session.AwaitsExchange)) := by
  intro handled
  refine ⟨?_, ?_, ?_⟩
  · intro after went
    obtain ⟨same, receiving⟩ := Connection.commandTurn_auth_session went
    exact ⟨same, receiving, fun line => after.lineTurn_reading env line⟩
  · intro answeredAsSasl required prompts
    obtain ⟨reply, asked, prompted⟩ := connection.session.handleAuth_prompts env.toSmtpServices
      connection.world required prompts
    have same : handled = (.ok reply, connection.session, connection.world) := prompted
    rw [same] at answeredAsSasl
    have never := answeredAsSasl reply rfl asked []
    rwa [SmtpSession.handsToParser_iff, not_not] at never
  · intro noted reply answered asked line
    rw [SmtpSession.handsToParser_iff, not_not]
    by_cases prompts : SmtpSession.PromptsOnly mechanism initialResponse
    · by_cases required : connection.session.config.requireAuth = true
      · exact connection.session.handleAuth_keeps _ _ _ _ (noted required prompts)
      · have refused : handled.1 = .ok (.notImplemented "AUTH not available".toList) := by
          simp only [handled, SmtpSession.handleAuth]
          rw [if_pos required]
        rw [refused] at answered
        cases answered
        cases asked
    · exact connection.session.handleAuth_awaits _ _ prompts answered asked

def loginWanted : SmtpSession where
  remoteAddr := .v4 0
  config := { mxConfig with requireAuth := true }
  state := .authenticated
  ehloUsed := true

/-- The user name that AUTH LOGIN asks for is read as a command. -/
theorem login_answer_read_as_command :
    let handled := loginWanted.handleAuth openServices "LOGIN".toList none ()
    ¬ ∀ reply, handled.1 = .ok reply → reply.code = 334 →
      ∀ line, ¬ handled.2.1.HandsToParser line := by
  intro handled answeredAsSasl
  have prompted : handled.1 = .ok (.new 334 "VXNlcm5hbWU6".toList) := by
    decide +kernel
  exact answeredAsSasl _ prompted rfl "YWxpY2U=".toList rfl

end Rusmes
