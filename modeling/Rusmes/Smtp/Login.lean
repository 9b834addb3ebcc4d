import Rusmes.Smtp.Relay

/-!
The authentication gate. A session becomes authenticated only in a turn in which
the backend accepts PLAIN credentials or the proof of a pending SCRAM exchange
verifies, and where authentication is required no transaction has a sender before.
-/

namespace Rusmes

open WireText Machine

variable {σ : Type}

namespace Dialogue

theorem Step.authenticated {parseNetwork : Text → Option IpNetwork} {dialogue after : Dialogue}
    {happening : Happening} (step : Step parseNetwork dialogue happening after) :
    after.authenticated = dialogue.authenticated ∨
      after.authenticated = true ∧ happening.OffersLogin := by
  cases step with
  | login _ offered => exact Or.inr ⟨rfl, offered⟩
  | _ => exact Or.inl rfl

theorem Step.gate {parseNetwork : Text → Option IpNetwork} {dialogue after : Dialogue}
    {happening : Happening} (step : Step parseNetwork dialogue happening after)
    (required : dialogue.config.requireAuth = true)
    (gated : dialogue.sender.isSome = true → dialogue.authenticated = true) :
    after.sender.isSome = true → after.authenticated = true := by
  cases step with
  | mailAccepted sender params smtputf8 ready allowed raised needed => exact fun _ => allowed required
  | rset => exact fun opened => by cases opened
  | messageOver => exact fun opened => by cases opened
  | login => exact fun _ => rfl
  | _ => exact gated

end Dialogue

namespace Connection

/-- The line awaited now is AUTH PLAIN with credentials, and the backend accepts
them in this turn. -/
def PlainAccepted (env : SmtpEnv σ) (connection : Connection σ) : Prop :=
  ∃ line next mechanism response username password user,
    connection.awaitLine env = .line line next ∧
      parseCommandSmtputf8 line next.session.ehloUsed = .ok (.auth mechanism (some response)) ∧
      toUppercase mechanism = "PLAIN".toList ∧
      parsePlainAuth env.toCrypto response = .ok (username, password) ∧
      Username.new username = .ok user ∧
      (env.authenticate user password next.world).1 = .ok true

/-- The line awaited now is the client's final message of the pending SCRAM
exchange, and its proof verifies. -/
def ScramAccepted (env : SmtpEnv σ) (connection : Connection σ) : Prop :=
  ∃ line next pending final,
    connection.awaitLine env = .line line next ∧
      connection.session.scramState = some pending ∧
      (SmtpSession.decodeScramMessage env.toSmtpServices line >>= parseScramClientFinal) =
        .ok final ∧
      final.nonce = pending.nonce ∧
      verifyScramClientProof env.toCrypto pending.storedKey
        (SmtpSession.scramAuthMessage pending final) final.proof = .ok true

end Connection

namespace SmtpSession

theorem handleAuthPlain_accepted {services : SmtpServices σ} {session : SmtpSession}
    {response : Text} {world : σ} (before : session.authenticated = false)
    (known : (session.handleAuthPlain services response world).2.1.authenticated = true) :
    ∃ username password user,
      parsePlainAuth services.toCrypto response = .ok (username, password) ∧
        Username.new username = .ok user ∧
        (services.authenticate user password world).1 = .ok true := by
  simp only [handleAuthPlain] at known
  split at known
  · simp [before] at known
  · rename_i username password credentials
    split at known
    · simp [before] at known
    · rename_i user named
      split at known
      · rename_i next accepted
        exact ⟨username, password, user, credentials, named, by rw [accepted]⟩
      · simp [before] at known
      · simp [before] at known

theorem handleAuth_accepted {services : SmtpServices σ} {session : SmtpSession} {mechanism : Text}
    {initialResponse : Option Text} {world : σ} (before : session.authenticated = false)
    (known : (session.handleAuth services mechanism initialResponse world).2.1.authenticated =
      true) :
    ∃ response username password user,
      initialResponse = some response ∧ toUppercase mechanism = "PLAIN".toList ∧
        parsePlainAuth services.toCrypto response = .ok (username, password) ∧
        Username.new username = .ok user ∧
        (services.authenticate user password world).1 = .ok true := by
  have cram : (session.handleAuthCramMd5 services world).2.1.authenticated = false :=
    (congrArg Dialogue.authenticated (session.handleAuthCramMd5_dialogue services world)).trans
      before
  have scram : (session.handleAuthScramSha256 services initialResponse world).2.1.authenticated =
      false :=
    (congrArg Dialogue.authenticated
      (session.handleAuthScramSha256_dialogue services initialResponse world)).trans before
  simp only [handleAuth] at known
  split at known
  · simp [before] at known
  · split at known
    · simp [cram] at known
    · split at known
      · simp [scram] at known
      · split at known
        · rename_i plain
          split at known
          · rename_i response
            obtain ⟨username, password, user, facts⟩ := handleAuthPlain_accepted before known
            exact ⟨response, username, password, user, rfl, plain, facts⟩
          · simp [before] at known
        · split at known <;> simp [before] at known

theorem handleScramClientFinal_accepted {services : SmtpServices σ} {session : SmtpSession}
    {line : Text} (before : session.authenticated = false)
    (known : (session.handleScramClientFinal services line).2.authenticated = true) :
    ∃ pending final, session.scramState = some pending ∧
      (decodeScramMessage services line >>= parseScramClientFinal) = .ok final ∧
      final.nonce = pending.nonce ∧
      verifyScramClientProof services.toCrypto pending.storedKey (scramAuthMessage pending final)
        final.proof = .ok true := by
  simp only [handleScramClientFinal] at known
  split at known
  · simp [before] at known
  · rename_i pending waiting
    split at known
    · simp [before] at known
    · split at known
      · simp [before] at known
      · rename_i final parsed
        split at known
        · simp [before] at known
        · rename_i nonce
          split at known
          · simp [before] at known
          · simp [before] at known
          · rename_i verified
            exact ⟨pending, final, waiting, parsed, by simpa using nonce, verified⟩

end SmtpSession

namespace Connection

theorem turn_login {env : SmtpEnv σ} {connection after : Connection σ}
    (went : connection.turn env = .next after) (before : connection.session.authenticated = false)
    (known : after.session.authenticated = true) :
    connection.PlainAccepted env ∨ connection.ScramAccepted env := by
  obtain ⟨step, _⟩ := turn_step went
  have turned := turn_next went
  generalize connection.happening env = happening at step turned
  have offered : happening.OffersLogin := by
    rcases step.authenticated with same | ⟨_, offered⟩
    · have unchanged : after.session.authenticated = connection.session.authenticated := same
      rw [before, known] at unchanged
      cases unchanged
    · exact offered
  have unknown {line : Text} {next : Connection σ}
      (awaited : connection.awaitLine env = .line line next) :
      next.session.authenticated = false := by
    rw [(awaitLine_kept awaited).1]
    exact before
  cases turned with
  | message receiving went => exact offered.elim
  | cramMd5 line next idle awaited pending went =>
      have same : after.session.authenticated = next.session.authenticated :=
        congrArg Dialogue.authenticated (cramMd5Turn_step went).1
      rw [known, unknown awaited] at same
      cases same
  | scram line next idle awaited pending went =>
      have verified :
          (next.session.handleScramClientFinal env.toSmtpServices line).2.authenticated = true := by
        simp only [scramTurn] at went
        split at went
        all_goals
          rename_i outcome
          rw [outcome]
          rw [(reply_next went).1] at known
          exact known
      obtain ⟨pending, final, facts⟩ :=
        SmtpSession.handleScramClientFinal_accepted (unknown awaited) verified
      rw [(awaitLine_kept awaited).1] at facts
      exact Or.inr ⟨line, next, pending, final, awaited, facts⟩
  | unrecognized line next idle awaited went =>
      rw [(reply_next went).1, unknown awaited] at known
      cases known
  | command line next idle awaited command parsed went =>
      rw [(commandTurn_step went).1] at known
      cases command with
      | auth mechanism initialResponse =>
          obtain ⟨response, username, password, user, rfl, facts⟩ :=
            SmtpSession.handleAuth_accepted (unknown awaited) known
          exact Or.inl ⟨line, next, mechanism, response, username, password, user, awaited,
            parsed, facts⟩
      | _ => exact offered.elim

end Connection

namespace Opening

theorem reaches_gated {env : SmtpEnv σ} {opening : Opening σ}
    (required : opening.config.requireAuth = true) {rounds : Nat} {connection : Connection σ}
    (reached : opening.Reaches env rounds connection) :
    connection.session.transaction.sender.isSome = true →
      connection.session.authenticated = true := by
  refine reaches_induction (fun _ connection =>
    connection.session.transaction.sender.isSome = true →
      connection.session.authenticated = true) ?_ ?_ reached
  · intro start accepted
    rw [(accept_session accepted).1]
    intro opened
    cases opened
  · intro rounds connection after reached gated went
    have config : connection.session.dialogue.config.requireAuth = true := by
      rw [← required, ← (reaches_origin reached).1]
      rfl
    exact (Connection.turn_step went).1.gate config gated

/-- Where authentication is required, in every state a connection reaches a sender
is set only if the client is authenticated, and the next turn authenticates it only
by accepted PLAIN credentials or a verified SCRAM proof. -/
theorem authentication_gate (env : SmtpEnv σ) (opening : Opening σ)
    (required : opening.config.requireAuth = true) (rounds : Nat) (connection : Connection σ)
    (reached : opening.Reaches env rounds connection) :
    (connection.session.transaction.sender.isSome = true →
      connection.session.authenticated = true) ∧
    ∀ after, connection.turn env = .next after → connection.session.authenticated = false →
      after.session.authenticated = true →
        connection.PlainAccepted env ∨ connection.ScramAccepted env := by
  refine ⟨reaches_gated required reached, fun after went before known => ?_⟩
  exact Connection.turn_login went before known

end Opening

def loginScript : Opening Unit :=
  scripted { mxConfig with requireAuth := true }
    ("EHLO client\r\nAUTH PLAIN AGFsaWNlAHNlY3JldA==\r\n" ++
      "MAIL FROM:<alice@example.com>\r\n")

theorem loginScript_gate :
    loginScript.config.requireAuth = true ∧
    (∃ connection, loginScript.Reaches openEnv 3 connection ∧
      connection.session.transaction.sender = some alice ∧
      connection.session.authenticated = true) ∧
    ∃ connection after, loginScript.Reaches openEnv 1 connection ∧
      connection.turn openEnv = .next after ∧ after.session.authenticated = true ∧
      (connection.PlainAccepted openEnv ∨ connection.ScramAccepted openEnv) := by
  have gate := Opening.authentication_gate openEnv loginScript rfl
  refine ⟨rfl, ?_, ?_⟩
  · have ran : (loginScript.run openEnv 3).goesOn
        (fun connection => connection.session.transaction.sender = some alice) = true := by
      decide +kernel
    obtain ⟨connection, reached, found⟩ := Progress.goesOn_iff.mp ran
    rw [decide_eq_true_eq] at found
    exact ⟨connection, reached, found, (gate 3 connection reached).1 (by simp [found])⟩
  · have ran : (loginScript.run openEnv 1).goesOn (fun connection =>
        !connection.session.authenticated &&
          (connection.turn openEnv).goesOn (fun after => after.session.authenticated)) = true := by
      decide +kernel
    obtain ⟨connection, reached, found⟩ := Progress.goesOn_iff.mp ran
    rw [Bool.and_eq_true, Bool.not_eq_true'] at found
    obtain ⟨after, went, known⟩ := Progress.goesOn_iff.mp found.2
    exact ⟨connection, after, reached, went, known,
      (gate 1 connection reached).2 after went found.1 known⟩

end Rusmes
