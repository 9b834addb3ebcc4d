import Rusmes.Smtp.Relay

/-!
The order of commands. RSET puts a session that was never greeted into the state
that follows a greeting, and the SMTPUTF8 flag outlives a refused MAIL and is not
asked for at RCPT. In runs that avoid these steps a transaction follows a greeting,
and one with an internationalised address was opened with SMTPUTF8.
-/

namespace Rusmes

open WireText Machine

variable {σ : Type}

def SmtpState.InTransaction (state : SmtpState) : Prop :=
  state = .mailTransaction ∨ state = .data

namespace Dialogue

def Greeted (dialogue : Dialogue) : Prop :=
  dialogue.state = .authenticated ∨ dialogue.state.InTransaction → dialogue.heloName.isSome = true

theorem Step.greeted {parseNetwork : Text → Option IpNetwork} {dialogue after : Dialogue}
    {happening : Happening} (step : Step parseNetwork dialogue happening after)
    (greeted : dialogue.Greeted)
    (restored : happening = .command .rset → dialogue.heloName.isSome = true)
    (received : happening = .message → dialogue.state = .data) : after.Greeted := by
  cases step with
  | unchanged => exact greeted
  | helo name early => exact fun _ => rfl
  | ehlo name early => exact fun _ => rfl
  | mailRefused sender params ready declared => exact greeted
  | mailAccepted sender params smtputf8 ready allowed raised needed =>
      exact fun _ => greeted (Or.inl ready)
  | rcptAccepted recipient params started allowed => exact greeted
  | dataAccepted started => exact fun _ => greeted (Or.inr (Or.inl started))
  | rset => exact fun _ => restored rfl
  | login => exact greeted
  | messageOver => exact fun _ => greeted (Or.inr (Or.inr (received rfl)))

end Dialogue

namespace Opening

theorem reaches_receiving {env : SmtpEnv σ} {opening : Opening σ} {rounds : Nat}
    {connection : Connection σ} (reached : opening.Reaches env rounds connection) :
    connection.receiving = true → connection.session.state = .data := by
  refine reaches_induction (fun _ connection =>
    connection.receiving = true → connection.session.state = .data) ?_ ?_ reached
  · intro start accepted receiving
    rw [(Connection.reply_next accepted).2.2.2] at receiving
    cases receiving
  · intro rounds connection after _ _ went receiving
    exact Connection.turn_receiving went receiving

/-- In a run in which every RSET comes after a greeting, a session in a transaction
has been greeted. -/
theorem transaction_greeted (env : SmtpEnv σ) (opening : Opening σ) (rounds : Nat)
    (connection : Connection σ) (reached : opening.Reaches env rounds connection)
    (restored : ∀ round < rounds, ∀ before, opening.Reaches env round before →
      before.happening env = .command .rset →
        before.session.transaction.heloName.isSome = true) :
    connection.session.state = .mailTransaction ∨ connection.session.state = .data →
      connection.session.transaction.heloName.isSome = true := by
  have greeted : connection.session.dialogue.Greeted := by
    refine reaches_induction (fun rounds connection =>
      (∀ round < rounds, ∀ before, opening.Reaches env round before →
        before.happening env = .command .rset →
          before.session.transaction.heloName.isSome = true) →
        connection.session.dialogue.Greeted) ?_ ?_ reached restored
    · intro start accepted _ reachedState
      simp only [(accept_session accepted).1, SmtpSession.dialogue,
        SmtpState.InTransaction] at reachedState
      rcases reachedState with state | state | state <;> cases state
    · intro rounds connection after reached ih went restored
      have earlier := ih fun round below => restored round (by omega)
      refine (Connection.turn_step went).1.greeted earlier ?_ ?_
      · exact restored rounds (by omega) connection reached
      · intro message
        have turned := Connection.turn_next went
        rw [message] at turned
        cases turned with
        | message receiving _ => exact reaches_receiving reached receiving
  intro state
  exact greeted (Or.inr state)

theorem forall_reaches {env : SmtpEnv σ} {opening : Opening σ} {rounds : Nat}
    {check : Connection σ → Bool}
    (checked : ∀ round < rounds, (opening.run env round).goesOn check = true) :
    ∀ round < rounds, ∀ connection, opening.Reaches env round connection →
      check connection = true := by
  intro round below connection reached
  obtain ⟨state, ran, holds⟩ := Progress.goesOn_iff.mp (checked round below)
  simp only [Reaches, ran, Progress.next.injEq] at reached
  rw [← reached]
  exact holds

end Opening

def greetedScript : Opening Unit :=
  scripted mxConfig "EHLO client\r\nRSET\r\nMAIL FROM:<alice@example.com>\r\n"

theorem greetedScript_greeted :
    ∃ connection, greetedScript.Reaches openEnv 3 connection ∧
      connection.session.state = .mailTransaction ∧
      connection.session.transaction.heloName.isSome = true := by
  have ran : (greetedScript.run openEnv 3).goesOn
      (fun connection => connection.session.state = .mailTransaction) = true := by
    decide +kernel
  obtain ⟨connection, reached, found⟩ := Progress.goesOn_iff.mp ran
  rw [decide_eq_true_eq] at found
  have checked : ∀ round < 3, (greetedScript.run openEnv round).goesOn (fun before =>
      before.happening openEnv ≠ .command .rset ∨
        before.session.transaction.heloName.isSome = true) = true := by
    decide +kernel
  have restored : ∀ round < 3, ∀ before, greetedScript.Reaches openEnv round before →
      before.happening openEnv = .command .rset →
        before.session.transaction.heloName.isSome = true := by
    intro round below before reached reset
    have either := Opening.forall_reaches checked round below before reached
    rw [decide_eq_true_eq] at either
    exact either.resolve_left (fun other => other reset)
  exact ⟨connection, reached, found,
    Opening.transaction_greeted openEnv greetedScript 3 connection reached restored (Or.inl found)⟩

theorem rset_skips_greeting :
    ∃ connection,
      (scripted mxConfig "RSET\r\nMAIL FROM:<alice@example.com>\r\n").Reaches openEnv 2
        connection ∧
      connection.session.state = .mailTransaction ∧
      connection.session.transaction.heloName = none := by
  have ran : ((scripted mxConfig "RSET\r\nMAIL FROM:<alice@example.com>\r\n").run openEnv 2).goesOn
      (fun connection => connection.session.state = .mailTransaction ∧
        connection.session.transaction.heloName = none) = true := by
    decide +kernel
  obtain ⟨connection, reached, found⟩ := Progress.goesOn_iff.mp ran
  rw [decide_eq_true_eq] at found
  exact ⟨connection, reached, found⟩

namespace Dialogue

/-- Outside a transaction the envelope is empty, and an internationalised address
in it needs the flag. -/
structure Flagged (dialogue : Dialogue) : Prop where
  empty : ¬dialogue.state.InTransaction → dialogue.sender = none ∧ dialogue.recipients = []
  sender : ∀ address, dialogue.sender = some address → hasNonAscii address.localPart = true →
    dialogue.smtputf8 = true
  recipients : ∀ address ∈ dialogue.recipients, hasNonAscii address.localPart = true →
    dialogue.smtputf8 = true

theorem flagged_of_empty {dialogue : Dialogue} (unsent : dialogue.sender = none)
    (nobody : dialogue.recipients = []) : dialogue.Flagged where
  empty := fun _ => ⟨unsent, nobody⟩
  sender := by
    intro address found
    rw [unsent] at found
    cases found
  recipients := by
    intro address member
    rw [nobody] at member
    cases member

theorem Flagged.idle {dialogue : Dialogue} (flagged : dialogue.Flagged)
    (early : dialogue.state = .connected ∨ dialogue.state = .authenticated) :
    dialogue.sender = none ∧ dialogue.recipients = [] := by
  apply flagged.empty
  rcases early with state | state <;> simp [state, SmtpState.InTransaction]

theorem Step.flagged {parseNetwork : Text → Option IpNetwork} {dialogue after : Dialogue}
    {happening : Happening} (step : Step parseNetwork dialogue happening after)
    (flagged : dialogue.Flagged)
    (asked : dialogue.state = .mailTransaction → ∀ recipient params,
      happening = .command (.rcpt recipient params) →
        hasNonAscii recipient.localPart = true → dialogue.smtputf8 = true) : after.Flagged := by
  cases step with
  | unchanged => exact flagged
  | login => exact ⟨flagged.empty, flagged.sender, flagged.recipients⟩
  | helo name early =>
      obtain ⟨unsent, nobody⟩ := flagged.idle early
      exact flagged_of_empty unsent nobody
  | ehlo name early =>
      obtain ⟨unsent, nobody⟩ := flagged.idle early
      exact flagged_of_empty unsent nobody
  | mailRefused sender params ready declared =>
      obtain ⟨unsent, nobody⟩ := flagged.idle (Or.inr ready)
      exact flagged_of_empty unsent nobody
  | mailAccepted sender params smtputf8 ready allowed raised needed =>
      obtain ⟨_, nobody⟩ := flagged.idle (Or.inr ready)
      refine ⟨fun outside => absurd (Or.inl rfl) outside, ?_, ?_⟩
      · intro address found international
        simp only [Option.some.injEq] at found
        exact needed (found ▸ international)
      · intro address member
        simp only [nobody] at member
        cases member
  | rcptAccepted recipient params started allowed =>
      refine ⟨fun outside => absurd (Or.inl started) outside, flagged.sender, ?_⟩
      intro address member international
      rcases List.mem_append.mp member with before | new
      · exact flagged.recipients address before international
      · rw [List.mem_singleton] at new
        exact asked started recipient params rfl (new ▸ international)
  | dataAccepted started =>
      exact ⟨fun outside => absurd (Or.inr rfl) outside, flagged.sender, flagged.recipients⟩
  | rset => exact flagged_of_empty rfl rfl
  | messageOver => exact flagged_of_empty rfl rfl

theorem Step.transaction {parseNetwork : Text → Option IpNetwork} {dialogue after : Dialogue}
    {happening : Happening} (step : Step parseNetwork dialogue happening after)
    (inside : after.state.InTransaction) :
    (dialogue.state.InTransaction ∧ after.smtputf8 = dialogue.smtputf8) ∨
      ∃ sender params, happening = .command (.mail sender params) ∧
        dialogue.state = .authenticated ∧ after.state = .mailTransaction ∧
        (after.smtputf8 = true → dialogue.smtputf8 = true ∨ declaresSmtputf8 params) := by
  cases step with
  | unchanged => exact Or.inl ⟨inside, rfl⟩
  | login => exact Or.inl ⟨inside, rfl⟩
  | helo name early => rcases inside with state | state <;> cases state
  | ehlo name early => rcases inside with state | state <;> cases state
  | mailRefused sender params ready declared =>
      simp [SmtpState.InTransaction, ready] at inside
  | mailAccepted sender params smtputf8 ready allowed raised needed =>
      exact Or.inr ⟨sender, params, rfl, ready, rfl, raised⟩
  | rcptAccepted recipient params started allowed => exact Or.inl ⟨inside, rfl⟩
  | dataAccepted started => exact Or.inl ⟨Or.inl started, rfl⟩
  | rset => rcases inside with state | state <;> cases state
  | messageOver => rcases inside with state | state <;> cases state

end Dialogue

namespace Opening

/-- The MAIL command of an earlier turn was accepted, and the transaction it opened
has been going on since. -/
def OpenedBy (env : SmtpEnv σ) (opening : Opening σ) (rounds : Nat) (sender : MailAddress)
    (params : List MailParam) : Prop :=
  ∃ round < rounds, ∃ before after,
    opening.Reaches env round before ∧
      before.happening env = .command (.mail sender params) ∧
      before.turn env = .next after ∧ before.session.state = .authenticated ∧
      after.session.state = .mailTransaction ∧
      ∀ later connection, round < later → later ≤ rounds →
        opening.Reaches env later connection → connection.session.state.InTransaction

theorem reaches_unique {env : SmtpEnv σ} {opening : Opening σ} {rounds : Nat}
    {first second : Connection σ} (one : opening.Reaches env rounds first)
    (other : opening.Reaches env rounds second) : first = second := by
  simp only [Reaches] at one other
  rw [one, Progress.next.injEq] at other
  exact other

theorem OpenedBy.later {env : SmtpEnv σ} {opening : Opening σ} {rounds : Nat} {sender : MailAddress}
    {params : List MailParam} (opened : opening.OpenedBy env rounds sender params)
    {after : Connection σ} (reached : opening.Reaches env (rounds + 1) after)
    (inside : after.session.state.InTransaction) :
    opening.OpenedBy env (rounds + 1) sender params := by
  obtain ⟨round, below, before, next, started, mail, went, ready, left, since⟩ := opened
  refine ⟨round, by omega, before, next, started, mail, went, ready, left, ?_⟩
  intro later connection above bound visited
  by_cases last : later = rounds + 1
  · subst last
    rw [reaches_unique visited reached]
    exact inside
  · exact since later connection above (by omega) visited

/-- No MAIL without SMTPUTF8 comes outside a transaction while the flag is set. -/
def FlagFresh (env : SmtpEnv σ) (opening : Opening σ) (rounds : Nat) : Prop :=
  ∀ round < rounds, ∀ before, opening.Reaches env round before →
    before.session.state = .authenticated →
    ∀ sender params, before.happening env = .command (.mail sender params) →
      ¬declaresSmtputf8 params → before.session.transaction.smtputf8 = false

/-- No RCPT with an internationalised local part comes in a transaction unless the
flag is set. -/
def FlagAsked (env : SmtpEnv σ) (opening : Opening σ) (rounds : Nat) : Prop :=
  ∀ round < rounds, ∀ before, opening.Reaches env round before →
    before.session.state = .mailTransaction →
    ∀ recipient params, before.happening env = .command (.rcpt recipient params) →
      hasNonAscii recipient.localPart = true → before.session.transaction.smtputf8 = true

theorem reaches_flagged {env : SmtpEnv σ} {opening : Opening σ} {rounds : Nat}
    {connection : Connection σ} (reached : opening.Reaches env rounds connection)
    (asked : opening.FlagAsked env rounds) : connection.session.dialogue.Flagged := by
  refine reaches_induction (fun rounds connection =>
    opening.FlagAsked env rounds → connection.session.dialogue.Flagged) ?_ ?_ reached asked
  · intro start accepted _
    rw [(accept_session accepted).1]
    exact Dialogue.flagged_of_empty rfl rfl
  · intro rounds connection after reached ih went asked
    have earlier := ih fun round below => asked round (by omega)
    exact (Connection.turn_step went).1.flagged earlier (asked rounds (by omega) connection reached)

theorem reaches_opened {env : SmtpEnv σ} {opening : Opening σ} {rounds : Nat}
    {connection : Connection σ} (reached : opening.Reaches env rounds connection)
    (fresh : opening.FlagFresh env rounds) (inside : connection.session.state.InTransaction) :
    ∃ sender params, opening.OpenedBy env rounds sender params ∧
      (connection.session.transaction.smtputf8 = true → declaresSmtputf8 params) := by
  refine reaches_induction (fun rounds connection =>
    opening.FlagFresh env rounds → connection.session.state.InTransaction →
      ∃ sender params, opening.OpenedBy env rounds sender params ∧
        (connection.session.transaction.smtputf8 = true → declaresSmtputf8 params))
    ?_ ?_ reached fresh inside
  · intro start accepted _ inside
    rw [(accept_session accepted).1] at inside
    rcases inside with state | state <;> cases state
  · intro rounds connection after reached ih went fresh inside
    have there := reaches_next reached went
    rcases (Connection.turn_step went).1.transaction inside with
      ⟨before, same⟩ | ⟨sender, params, mail, ready, left, raised⟩
    · obtain ⟨sender, params, opened, declared⟩ :=
        ih (fun round below => fresh round (by omega)) before
      exact ⟨sender, params, opened.later there inside, fun set => declared (same.symm.trans set)⟩
    · refine ⟨sender, params, ?_, fun set => ?_⟩
      · refine ⟨rounds, by omega, connection, after, reached, mail, went, ready, left, ?_⟩
        intro later other above bound visited
        have last : later = rounds + 1 := by omega
        subst last
        rw [reaches_unique visited there]
        exact inside
      · by_contra silent
        rcases raised set with before | declared
        · have clear := fresh rounds (by omega) connection reached ready sender params mail
            silent
          have flag : connection.session.transaction.smtputf8 = true := before
          rw [clear] at flag
          cases flag
        · exact silent declared

/-- In a run in which no MAIL without SMTPUTF8 finds the flag set, and no
internationalised RCPT finds it clear, an internationalised address in the
envelope means that the MAIL which opened the transaction carried SMTPUTF8. -/
theorem envelope_smtputf8 (env : SmtpEnv σ) (opening : Opening σ) (rounds : Nat)
    (connection : Connection σ) (reached : opening.Reaches env rounds connection)
    (fresh : opening.FlagFresh env rounds) (asked : opening.FlagAsked env rounds)
    (address : MailAddress)
    (inside : connection.session.transaction.sender = some address ∨
      address ∈ connection.session.transaction.recipients)
    (international : hasNonAscii address.localPart = true) :
    ∃ sender params, opening.OpenedBy env rounds sender params ∧ declaresSmtputf8 params := by
  have flagged := reaches_flagged reached asked
  have set : connection.session.transaction.smtputf8 = true := by
    rcases inside with sender | recipient
    · exact flagged.sender address sender international
    · exact flagged.recipients address recipient international
  have ongoing : connection.session.state.InTransaction := by
    by_contra outside
    obtain ⟨unsent, nobody⟩ := flagged.empty outside
    rcases inside with sender | recipient
    · exact absurd (unsent.symm.trans sender) (by simp)
    · have member : address ∈ connection.session.dialogue.recipients := recipient
      rw [nobody] at member
      cases member
  obtain ⟨sender, params, opened, declared⟩ := reaches_opened reached fresh ongoing
  exact ⟨sender, params, opened, declared set⟩

theorem mail_of_openedBy {env : SmtpEnv σ} {opening : Opening σ} {rounds : Nat}
    {sender : MailAddress} {params : List MailParam}
    (opened : opening.OpenedBy env rounds sender params) :
    ∃ round < rounds, ∃ before, opening.Reaches env round before ∧
      before.happening env = .command (.mail sender params) := by
  obtain ⟨round, below, before, _, reached, mail, _⟩ := opened
  exact ⟨round, below, before, reached, mail⟩

end Opening

def smtputf8Script : Opening Unit :=
  scripted mxConfig "EHLO client\r\nMAIL FROM:<ålice@example.com> SMTPUTF8\r\n"

theorem smtputf8Script_opened :
    ∃ connection address, smtputf8Script.Reaches openEnv 2 connection ∧
      connection.session.transaction.sender = some address ∧
      hasNonAscii address.localPart = true ∧
      ∃ sender params, smtputf8Script.OpenedBy openEnv 2 sender params ∧
        declaresSmtputf8 params := by
  have ran : (smtputf8Script.run openEnv 2).goesOn (fun connection =>
      connection.session.transaction.sender.any fun address =>
        hasNonAscii address.localPart) = true := by
    decide +kernel
  have checked : ∀ round < 2, (smtputf8Script.run openEnv round).goesOn (fun before =>
      match before.happening openEnv with
      | .command (.mail _ params) => declaresSmtputf8 params
      | .command (.rcpt _ _) => false
      | _ => true) = true := by
    decide +kernel
  obtain ⟨connection, reached, found⟩ := Progress.goesOn_iff.mp ran
  obtain ⟨address, sender, international⟩ := (Option.any_eq_true _ _).mp found
  have fresh : smtputf8Script.FlagFresh openEnv 2 := by
    intro round below before reached _ sender params mail silent
    have declared := Opening.forall_reaches checked round below before reached
    simp only [mail, decide_eq_true_eq] at declared
    exact absurd declared silent
  have asked : smtputf8Script.FlagAsked openEnv 2 := by
    intro round below before reached _ recipient params rcpt
    have impossible := Opening.forall_reaches checked round below before reached
    simp [rcpt] at impossible
  exact ⟨connection, address, reached, sender, international,
    Opening.envelope_smtputf8 openEnv smtputf8Script 2 connection reached fresh asked address
      (Or.inl sender) international⟩

def plainMailScript : Opening Unit :=
  scripted mxConfig
    "EHLO client\r\nMAIL FROM:<alice@example.com>\r\nRCPT TO:<bób@example.com>\r\n"

theorem rcpt_ignores_smtputf8 :
    ∃ connection address, plainMailScript.Reaches openEnv 3 connection ∧
      address ∈ connection.session.transaction.recipients ∧
      hasNonAscii address.localPart = true ∧
      ¬∃ sender params, plainMailScript.OpenedBy openEnv 3 sender params ∧
        declaresSmtputf8 params := by
  have ran : (plainMailScript.run openEnv 3).goesOn (fun connection =>
      connection.session.transaction.recipients.any fun address =>
        hasNonAscii address.localPart) = true := by
    decide +kernel
  have checked : ∀ round < 3, (plainMailScript.run openEnv round).goesOn (fun before =>
      match before.happening openEnv with
      | .command (.mail _ params) => ¬declaresSmtputf8 params
      | _ => true) = true := by
    decide +kernel
  obtain ⟨connection, reached, found⟩ := Progress.goesOn_iff.mp ran
  obtain ⟨address, member, international⟩ := List.any_eq_true.mp found
  refine ⟨connection, address, reached, member, international, ?_⟩
  rintro ⟨sender, params, opened, declared⟩
  obtain ⟨round, below, before, visited, mail⟩ := Opening.mail_of_openedBy opened
  have silent := Opening.forall_reaches checked round below before visited
  simp only [mail, decide_eq_true_eq] at silent
  exact silent declared

end Rusmes
