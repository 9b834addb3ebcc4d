import Rusmes.Smtp.Dialogue

/-!
No open relay: over a whole connection, whatever the client sends, a recipient is
in the envelope or in a mail handed to the router only if it was accepted from an
authenticated client or may be relayed to from where the client is.
-/

namespace Rusmes

open WireText Machine

variable {σ : Type}

namespace Dialogue

theorem Step.origin {parseNetwork : Text → Option IpNetwork} {dialogue after : Dialogue}
    {happening : Happening} (step : Step parseNetwork dialogue happening after) :
    after.config = dialogue.config ∧ after.remoteAddr = dialogue.remoteAddr := by
  cases step <;> exact ⟨rfl, rfl⟩

theorem Step.recipients {parseNetwork : Text → Option IpNetwork} {dialogue after : Dialogue}
    {happening : Happening} (step : Step parseNetwork dialogue happening after) :
    after.recipients = dialogue.recipients ∨ after.recipients = [] ∨
      ∃ recipient, after.recipients = dialogue.recipients ++ [recipient] ∧
        (dialogue.authenticated = true ∨
          Admitted parseNetwork dialogue.remoteAddr dialogue.config recipient) := by
  cases step with
  | unchanged => exact Or.inl rfl
  | helo name early => exact Or.inl rfl
  | ehlo name early => exact Or.inl rfl
  | mailRefused sender params ready declared => exact Or.inl rfl
  | mailAccepted sender params smtputf8 ready allowed raised needed => exact Or.inl rfl
  | rcptAccepted recipient params started allowed =>
      exact Or.inr (Or.inr ⟨recipient, rfl, allowed⟩)
  | dataAccepted started => exact Or.inl rfl
  | rset => exact Or.inr (Or.inl rfl)
  | login => exact Or.inl rfl
  | messageOver => exact Or.inr (Or.inl rfl)

end Dialogue

namespace Opening

theorem accept_session {env : SmtpEnv σ} {opening : Opening σ} {start : Connection σ}
    (accepted : opening.accept env = .next start) :
    start.session = { remoteAddr := opening.remoteAddr, config := opening.config } ∧
      start.queued = [] := by
  obtain ⟨session, queued, _⟩ := Connection.reply_next accepted
  exact ⟨session, queued⟩

theorem reaches_origin {env : SmtpEnv σ} {opening : Opening σ} {rounds : Nat}
    {connection : Connection σ} (reached : opening.Reaches env rounds connection) :
    connection.session.config = opening.config ∧
      connection.session.remoteAddr = opening.remoteAddr := by
  refine reaches_induction (fun _ connection => connection.session.config = opening.config ∧
    connection.session.remoteAddr = opening.remoteAddr) ?_ ?_ reached
  · intro start accepted
    rw [(accept_session accepted).1]
    exact ⟨rfl, rfl⟩
  · intro rounds connection after _ same went
    obtain ⟨config, remoteAddr⟩ := (Connection.turn_step went).1.origin
    exact ⟨config.trans same.1, remoteAddr.trans same.2⟩

/-- In an earlier turn the client was authenticated and the recipient was added to
the envelope. -/
def AcceptedFromAuthenticated (env : SmtpEnv σ) (opening : Opening σ) (rounds : Nat)
    (recipient : MailAddress) : Prop :=
  ∃ round < rounds, ∃ before after,
    opening.Reaches env round before ∧ before.turn env = .next after ∧
      before.session.authenticated = true ∧
      after.session.transaction.recipients =
        before.session.transaction.recipients ++ [recipient]

def Rightful (env : SmtpEnv σ) (opening : Opening σ) (rounds : Nat) (recipient : MailAddress) :
    Prop :=
  opening.AcceptedFromAuthenticated env rounds recipient ∨
    Admitted env.parseNetwork opening.remoteAddr opening.config recipient

theorem Rightful.later {env : SmtpEnv σ} {opening : Opening σ} {rounds : Nat}
    {recipient : MailAddress} (rightful : opening.Rightful env rounds recipient) :
    opening.Rightful env (rounds + 1) recipient := by
  rcases rightful with ⟨round, earlier, accepted⟩ | admitted
  · exact Or.inl ⟨round, by omega, accepted⟩
  · exact Or.inr admitted

theorem reaches_rightful {env : SmtpEnv σ} {opening : Opening σ} {rounds : Nat}
    {connection : Connection σ} (reached : opening.Reaches env rounds connection) :
    (∀ recipient ∈ connection.session.transaction.recipients,
      opening.Rightful env rounds recipient) ∧
    ∀ message ∈ connection.queued, ∀ recipient ∈ message.recipients,
      opening.Rightful env rounds recipient := by
  refine reaches_induction (fun rounds connection =>
    (∀ recipient ∈ connection.session.transaction.recipients,
      opening.Rightful env rounds recipient) ∧
    ∀ message ∈ connection.queued, ∀ recipient ∈ message.recipients,
      opening.Rightful env rounds recipient) ?_ ?_ reached
  · intro start accepted
    obtain ⟨session, queued⟩ := accept_session accepted
    rw [session, queued]
    exact ⟨by simp [SmtpTransaction.new], by simp⟩
  · rintro rounds connection after reached ⟨envelope, queue⟩ went
    obtain ⟨step, queued⟩ := Connection.turn_step went
    obtain ⟨config, remoteAddr⟩ := reaches_origin reached
    constructor
    · intro recipient member
      change recipient ∈ after.session.dialogue.recipients at member
      rcases step.recipients with same | none | ⟨added, appended, allowed⟩
      · rw [same] at member
        exact (envelope recipient member).later
      · rw [none] at member
        cases member
      · rw [appended] at member
        rcases List.mem_append.mp member with before | new
        · exact (envelope recipient before).later
        · rw [List.mem_singleton] at new
          subst new
          rcases allowed with known | admitted
          · exact Or.inl ⟨rounds, by omega, connection, after, reached, went, known, appended⟩
          · exact Or.inr (by rw [← config, ← remoteAddr]; exact admitted)
    · intro message member recipient inside
      rcases queued message member with before | own
      · exact (queue message before recipient inside).later
      · rw [own] at inside
        exact (envelope recipient inside).later

/-- Every recipient in the envelope, and every recipient of a mail handed to the
router, is rightful. -/
theorem recipients_rightful (env : SmtpEnv σ) (opening : Opening σ) (rounds : Nat)
    (connection : Connection σ) (reached : opening.Reaches env rounds connection) :
    (∀ recipient ∈ connection.session.transaction.recipients,
      opening.Rightful env rounds recipient) ∧
    ∀ message ∈ connection.queued, ∀ toLowercase parseHeaders id messageId mail,
      acceptedMail toLowercase parseHeaders id messageId message = .ok mail →
        ∀ recipient ∈ mail.recipients, opening.Rightful env rounds recipient := by
  obtain ⟨envelope, queue⟩ := reaches_rightful reached
  refine ⟨envelope, fun message member _ _ _ _ mail accepted recipient inside => ?_⟩
  rw [acceptedMail_recipients accepted] at inside
  exact queue message member recipient inside

end Opening

def relayScript : Opening Unit :=
  scripted mxConfig ("EHLO client\r\nMAIL FROM:<alice@example.com>\r\n" ++
    "RCPT TO:<bob@example.com>\r\nDATA\r\nhello\r\n.\r\n")

theorem relayScript_rightful :
    ∃ connection, relayScript.Reaches openEnv 3 connection ∧
      connection.session.transaction.recipients = [bob] ∧ relayScript.Rightful openEnv 3 bob := by
  have ran : (relayScript.run openEnv 3).goesOn
      (fun connection => connection.session.transaction.recipients = [bob]) = true := by
    decide +kernel
  obtain ⟨connection, reached, found⟩ := Progress.goesOn_iff.mp ran
  rw [decide_eq_true_eq] at found
  have rightful := (Opening.recipients_rightful openEnv relayScript 3 connection reached).1
  exact ⟨connection, reached, found, rightful bob (by simp [found])⟩

end Rusmes
