import Rusmes.Smtp.Connection

/-!
What a MAIL command that is turned down leaves behind. The parameters are recorded one
by one, so the ones before the first that is refused stay recorded.
-/

namespace Rusmes

open WireText

variable {σ : Type}

def SmtpResponse.Rejects (response : SmtpResponse) : Prop :=
  400 ≤ response.code ∧ response.code < 600

namespace MailParam

def named (param : MailParam) (name : String) : Bool := toUppercase param.keyword = name.toList

def size (param : MailParam) : Option Nat :=
  if param.named "SIZE" then param.value.bind parseUsize else none

def body (param : MailParam) : Option Text :=
  if param.named "BODY" then param.value.map toUppercase else none

def accepted (config : SmtpConfig) (ehloUsed : Bool) (param : MailParam) : Bool :=
  if param.named "SIZE" then param.size.any fun size => size ≤ config.maxMessageSize
  else if param.named "BODY" then
    param.body.any fun body => body = "7BIT".toList || body = "8BITMIME".toList
  else if param.named "SMTPUTF8" then ehloUsed && param.value.isNone
  else true

end MailParam

namespace SmtpTransaction

def recorded (transaction : SmtpTransaction) (param : MailParam) : SmtpTransaction :=
  { transaction with
    declaredSize := param.size.or transaction.declaredSize
    bodyType := param.body.or transaction.bodyType
    smtputf8 := transaction.smtputf8 || param.named "SMTPUTF8" }

theorem foldl_recorded (transaction : SmtpTransaction) (params : List MailParam) :
    params.foldl recorded transaction =
      { transaction with
        declaredSize := (params.filterMap MailParam.size).getLast?.or transaction.declaredSize
        bodyType := (params.filterMap MailParam.body).getLast?.or transaction.bodyType
        smtputf8 := transaction.smtputf8 || params.any fun param => param.named "SMTPUTF8" } := by
  have last {Value : Type} (read : MailParam → Option Value) (param : MailParam)
      (params : List MailParam) (before : Option Value) :
      ((param :: params).filterMap read).getLast?.or before =
        (params.filterMap read).getLast?.or ((read param).or before) := by
    cases first : read param with
    | none => simp [first]
    | some value =>
        cases later : (params.filterMap read).getLast? <;> simp [first, List.getLast?_cons, later]
  induction params generalizing transaction with
  | nil => simp
  | cons param params ih =>
      rw [List.foldl_cons, ih, last, last, List.any_cons, ← Bool.or_assoc]
      rfl

/-- The parameters say nothing that the transaction does not hold already. -/
def Holds (transaction : SmtpTransaction) (params : List MailParam) : Prop :=
  (∀ size, (params.filterMap MailParam.size).getLast? = some size →
    transaction.declaredSize = some size) ∧
  (∀ body, (params.filterMap MailParam.body).getLast? = some body →
    transaction.bodyType = some body) ∧
  ((∃ param ∈ params, param.named "SMTPUTF8" = true) → transaction.smtputf8 = true)

theorem or_eq_right_iff {Value : Type} {new old : Option Value} :
    new.or old = old ↔ ∀ value, new = some value → old = some value := by
  cases new with
  | none => simp
  | some value => simp [eq_comm]

theorem foldl_recorded_eq_iff {transaction : SmtpTransaction} {params : List MailParam} :
    params.foldl recorded transaction = transaction ↔ transaction.Holds params := by
  rw [foldl_recorded, Holds, ← or_eq_right_iff, ← or_eq_right_iff, ← List.any_eq_true]
  obtain ⟨sender, recipients, heloName, messageSize, declaredSize, bodyType, smtputf8, bdatState⟩ :=
    transaction
  cases smtputf8 <;> simp

end SmtpTransaction

namespace SmtpSession

section MailParam

variable {session : SmtpSession} {param : MailParam}

theorem mailParam_accepted (taken : param.accepted session.config session.ehloUsed = true) :
    session.mailParam param =
      .ok { session with transaction := session.transaction.recorded param } := by
  simp only [mailParam, SmtpTransaction.recorded, MailParam.size, MailParam.body,
    MailParam.accepted, MailParam.named, decide_eq_true_eq] at taken ⊢
  by_cases size : toUppercase param.keyword = "SIZE".toList
  · rw [if_pos size, if_pos size] at taken
    obtain ⟨declared, read, fits⟩ := (Option.any_eq_true _ _).mp taken
    obtain ⟨text, given, parsed⟩ := Option.bind_eq_some_iff.mp read
    simp [size, given, parsed, Nat.not_lt.mpr (of_decide_eq_true fits)]
  · rw [if_neg size] at taken ⊢
    by_cases body : toUppercase param.keyword = "BODY".toList
    · rw [if_pos body, if_pos body] at taken
      obtain ⟨kind, read, known⟩ := (Option.any_eq_true _ _).mp taken
      obtain ⟨text, given, rfl⟩ := Option.map_eq_some_iff.mp read
      rw [Bool.or_eq_true, decide_eq_true_eq, decide_eq_true_eq] at known
      have other : toUppercase param.keyword ≠ "SMTPUTF8".toList := by
        rw [body]
        decide
      rw [if_pos body, if_pos body, if_neg size, given, decide_eq_false other]
      dsimp only
      rw [if_pos known, Option.none_or, Bool.or_false]
      rfl
    · rw [if_neg body] at taken ⊢
      by_cases international : toUppercase param.keyword = "SMTPUTF8".toList
      · rw [if_pos international, Bool.and_eq_true, Option.isNone_iff_eq_none] at taken
        simp [international, taken.1, taken.2]
      · rw [if_neg international, if_neg size, if_neg body, decide_eq_false international,
          Bool.or_false, Option.none_or, Option.none_or]

theorem mailParam_refused (refused : param.accepted session.config session.ehloUsed = false) :
    ∃ response, session.mailParam param = .error response ∧ response.Rejects := by
  have rejects (code : Nat) (message : Text) (inside : 400 ≤ code ∧ code < 600) :
      (SmtpResponse.new code message).Rejects := inside
  simp only [mailParam, MailParam.size, MailParam.body, MailParam.accepted, MailParam.named,
    decide_eq_true_eq] at refused ⊢
  by_cases size : toUppercase param.keyword = "SIZE".toList
  · rw [if_pos size, if_pos size] at refused
    rw [if_pos size]
    cases given : param.value with
    | none => exact ⟨_, rfl, rejects 501 _ (by decide)⟩
    | some text =>
        dsimp only
        cases parsed : parseUsize text with
        | none => exact ⟨_, rfl, rejects 501 _ (by decide)⟩
        | some declared =>
            simp only [given, Option.bind_some, parsed, Option.any_some, decide_eq_false_iff_not,
              Nat.not_le] at refused
            dsimp only
            rw [if_pos refused]
            exact ⟨_, rfl, rejects 552 _ (by decide)⟩
  · rw [if_neg size] at refused ⊢
    by_cases body : toUppercase param.keyword = "BODY".toList
    · rw [if_pos body, if_pos body] at refused
      rw [if_pos body]
      cases given : param.value with
      | none => exact ⟨_, rfl, rejects 501 _ (by decide)⟩
      | some text =>
          simp only [given, Option.map_some, Option.any_some, Bool.or_eq_false_iff,
            decide_eq_false_iff_not, ← not_or] at refused
          dsimp only
          rw [if_neg refused]
          exact ⟨_, rfl, rejects 504 _ (by decide)⟩
    · rw [if_neg body] at refused ⊢
      by_cases international : toUppercase param.keyword = "SMTPUTF8".toList
      · rw [if_pos international, Bool.and_eq_false_iff] at refused
        rw [if_pos international]
        by_cases extended : session.ehloUsed = true
        · have valued : param.value ≠ none := by
            simpa [extended, ← Option.isSome_iff_ne_none] using refused
          rw [if_neg (not_not.mpr extended), if_neg valued]
          exact ⟨_, rfl, rejects 501 _ (by decide)⟩
        · rw [if_pos extended]
          exact ⟨_, rfl, rejects 501 _ (by decide)⟩
      · rw [if_neg international] at refused
        cases refused

end MailParam

/-- The parameters of a command that are recorded: those before the first refused one. -/
def taken (session : SmtpSession) (params : List MailParam) : List MailParam :=
  params.takeWhile (MailParam.accepted session.config session.ehloUsed)

theorem mailParams_transaction (session : SmtpSession) (params : List MailParam) :
    (session.mailParams params).2 =
      { session with
        transaction := (session.taken params).foldl SmtpTransaction.recorded session.transaction } := by
  induction params generalizing session with
  | nil => rfl
  | cons param rest ih =>
      rw [mailParams, taken, List.takeWhile_cons]
      cases fine : param.accepted session.config session.ehloUsed with
      | true =>
          rw [mailParam_accepted fine]
          exact ih _
      | false =>
          obtain ⟨response, refused, -⟩ := mailParam_refused fine
          rw [refused]
          rfl

theorem mailParams_response (session : SmtpSession) (params : List MailParam) :
    (params.all (MailParam.accepted session.config session.ehloUsed) = true ∧
        (session.mailParams params).1 = none) ∨
      (params.all (MailParam.accepted session.config session.ehloUsed) = false ∧
        ∃ response, (session.mailParams params).1 = some response ∧ response.Rejects) := by
  induction params generalizing session with
  | nil => exact Or.inl ⟨rfl, rfl⟩
  | cons param rest ih =>
      rw [mailParams, List.all_cons]
      cases fine : param.accepted session.config session.ehloUsed with
      | true =>
          rw [mailParam_accepted fine, Bool.true_and]
          exact ih { session with transaction := session.transaction.recorded param }
      | false =>
          obtain ⟨response, refused, rejects⟩ := mailParam_refused fine
          rw [refused]
          exact Or.inr ⟨rfl, response, rfl, rejects⟩

def ReachesParameters (services : SmtpServices σ) (session : SmtpSession) (sender : MailAddress)
    (world : σ) : Prop :=
  session.state = .authenticated ∧
    (session.config.requireAuth = true → session.authenticated = true) ∧
    (services.allowMessageIpAndSender session.remoteAddr sender.asString world).1 = true

/-- A parameter is refused, or the sender needs SMTPUTF8 and nothing declares it. -/
def RefusesMail (session : SmtpSession) (sender : MailAddress) (params : List MailParam) : Prop :=
  params.all (MailParam.accepted session.config session.ehloUsed) = false ∨
    hasNonAscii sender.localPart = true ∧ session.transaction.smtputf8 = false ∧
      params.any (fun param => param.named "SMTPUTF8") = false

section Outcome

variable (services : SmtpServices σ) (session : SmtpSession) (sender : MailAddress)
  (params : List MailParam) (world : σ)

theorem handleMail_early (early : ¬ session.ReachesParameters services sender world) :
    (session.handleMail services sender params world).2.1 = session := by
  simp only [handleMail]
  by_cases ready : session.state = .authenticated
  · rw [if_neg (not_not.mpr ready)]
    by_cases login : session.config.requireAuth = true ∧ ¬ session.authenticated = true
    · rw [if_pos login]
    · rw [if_neg login]
      have limited : ¬ (services.allowMessageIpAndSender session.remoteAddr sender.asString
          world).1 = true := by
        intro allowed
        exact early ⟨ready, by simpa using login, allowed⟩
      rw [if_pos limited]
  · rw [if_pos ready]

theorem handleMail_reached (reached : session.ReachesParameters services sender world) :
    (session.RefusesMail sender params ∧
        (session.handleMail services sender params world).1.Rejects ∧
        (session.handleMail services sender params world).2.1 = (session.mailParams params).2) ∨
      (¬ session.RefusesMail sender params ∧
        (session.handleMail services sender params world).1.code = 250) := by
  obtain ⟨ready, login, allowed⟩ := reached
  have passed : ¬ (session.config.requireAuth = true ∧ ¬ session.authenticated = true) := by
    simpa using login
  simp only [handleMail]
  rw [if_neg (not_not.mpr ready), if_neg passed, if_neg (not_not.mpr allowed)]
  rcases session.mailParams_response params with ⟨all, none⟩ | ⟨some, response, found, rejects⟩
  · have same : session.mailParams params = (Option.none, (session.mailParams params).2) :=
      Prod.ext none rfl
    have everything : session.taken params = params := List.takeWhile_eq_self_iff.mpr
      (List.all_eq_true.mp all)
    have declared : (session.mailParams params).2.transaction.smtputf8 =
        (session.transaction.smtputf8 || params.any fun param => param.named "SMTPUTF8") := by
      rw [mailParams_transaction, everything, SmtpTransaction.foldl_recorded]
    rw [same]
    dsimp only
    by_cases needed : hasNonAscii sender.localPart = true ∧
        ¬ (session.mailParams params).2.transaction.smtputf8 = true
    · rw [if_pos needed]
      rw [declared, Bool.not_eq_true, Bool.or_eq_false_iff] at needed
      exact Or.inl ⟨Or.inr needed, ⟨Nat.le_of_ble_eq_true rfl, Nat.le_of_ble_eq_true rfl⟩, rfl⟩
    · rw [if_neg needed]
      rw [declared, Bool.not_eq_true, Bool.or_eq_false_iff] at needed
      refine Or.inr ⟨?_, rfl⟩
      rintro (refused | missing)
      · rw [all] at refused
        cases refused
      · exact needed missing
  · have same : session.mailParams params = (Option.some response, (session.mailParams params).2) :=
      Prod.ext found rfl
    rw [same]
    exact Or.inl ⟨Or.inl some, rejects, rfl⟩

end Outcome

/-- A rejected MAIL command leaves the session as it was exactly if it is stopped before
its parameters, or those before the first refused one say what the transaction holds. -/
theorem rejected_mail_unchanged_iff (services : SmtpServices σ) (session : SmtpSession)
    (sender : MailAddress) (params : List MailParam) (world : σ) :
    let handled := session.handleMail services sender params world
    (handled.1.Rejects → handled.2.1.state = session.state ∧
        handled.2.1.transaction = session.transaction) ↔
      (session.ReachesParameters services sender world → session.RefusesMail sender params →
        session.transaction.Holds (session.taken params)) := by
  intro handled
  by_cases reached : session.ReachesParameters services sender world
  · rcases session.handleMail_reached services sender params world reached with
      ⟨refuses, rejects, after⟩ | ⟨fine, code⟩
    · have left : handled.2.1.transaction =
          (session.taken params).foldl SmtpTransaction.recorded session.transaction := by
        rw [after, mailParams_transaction]
      have state : handled.2.1.state = session.state := by
        rw [after, mailParams_transaction]
      rw [left, SmtpTransaction.foldl_recorded_eq_iff]
      constructor
      · intro unchanged _ _
        exact (unchanged rejects).2
      · intro holds _
        exact ⟨state, holds reached refuses⟩
    · have accepted : ¬ handled.1.Rejects := by
        intro rejects
        have low := rejects.1
        rw [code] at low
        omega
      constructor
      · intro _ _ refuses
        exact absurd refuses fine
      · intro _ rejects
        exact absurd rejects accepted
  · have same : handled.2.1 = session := session.handleMail_early services sender params world reached
    constructor
    · intro _ ready
      exact absurd ready reached
    · intro _ _
      rw [same]
      exact ⟨rfl, rfl⟩

def greeted : SmtpSession where
  remoteAddr := .v4 0
  config := mxConfig
  state := .authenticated
  ehloUsed := true

/-- SMTPUTF8 stays declared after the command that declared it was turned down. -/
theorem rejected_mail_leaves_smtputf8 :
    let handled := greeted.handleMail openServices alice
      [⟨"SMTPUTF8".toList, none⟩, ⟨"BODY".toList, some "BINARYMIME".toList⟩] ()
    ¬ (handled.1.Rejects → handled.2.1.state = greeted.state ∧
        handled.2.1.transaction = greeted.transaction) := by
  intro handled unchanged
  have rejected : handled.1.code = 504 ∧ handled.2.1.transaction.smtputf8 = true := by
    decide +kernel
  have same := (unchanged ⟨by omega, by omega⟩).2
  rw [same] at rejected
  exact absurd rejected.2 (by decide)

end SmtpSession

end Rusmes
