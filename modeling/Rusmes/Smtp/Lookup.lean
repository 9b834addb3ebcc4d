import Rusmes.Smtp.Dialogue

/-!
Recipients of a client that may relay. The check that skips the look-up of a recipient
asks a field that no network of the configuration ever sets, so the recipients of such
a client are looked up like everyone's.
-/

namespace Rusmes

open WireText

variable {σ : Type}

theorem Username.new_localPart (address : MailAddress) :
    ∃ username, Username.new address.localPart = .ok username := by
  have fits : ¬ (address.localPart = [] ∨ octetLength address.localPart > 128) := by
    have bounded := address.bounded
    rintro (empty | long)
    · exact address.nonempty empty
    · omega
  exact ⟨_, dif_neg fits⟩

namespace SmtpSession

def cachedAnswer (services : SmtpServices σ) (session : SmtpSession) (recipient : MailAddress)
    (world : σ) : Option Bool :=
  (session.recipientCache.lookup recipient.asString).bind fun entry =>
    if (services.now world).1 - entry.cachedAt < cacheTtl then some entry.exists else none

/-- Unknown recipients are to be turned away, and nothing the check asks about the client
lets it off. -/
def Checks (session : SmtpSession) : Prop :=
  session.config.checkRecipientExists = true ∧ session.config.rejectUnknownRecipients = true ∧
    session.authenticated = false ∧ session.relayingAllowed = false

section Lookup

variable (services : SmtpServices σ) (session : SmtpSession) (recipient : MailAddress) (world : σ)

theorem validateRecipient_cached {answer : Bool}
    (cached : session.cachedAnswer services recipient world = some answer) :
    (session.validateRecipient services recipient world).1 = .ok answer := by
  obtain ⟨entry, found, fresh⟩ := Option.bind_eq_some_iff.mp cached
  rw [Option.ite_none_right_eq_some] at fresh
  rw [validateRecipient, found]
  dsimp only
  rw [if_pos fresh.1, Option.some.inj fresh.2]

theorem validateRecipient_asked {mailboxes : List Text}
    (unknown : session.cachedAnswer services recipient world = none)
    (listed : ∀ user world, (services.listMailboxes user world).1 = .ok mailboxes) :
    (session.validateRecipient services recipient world).1 = .ok !mailboxes.isEmpty := by
  obtain ⟨username, made⟩ := Username.new_localPart recipient
  have answered : ∀ world, services.listMailboxes username world =
      (.ok mailboxes, (services.listMailboxes username world).2) :=
    fun world => Prod.ext (listed username world) rfl
  simp only [validateRecipient, made]
  cases found : session.recipientCache.lookup recipient.asString with
  | none =>
      dsimp only
      rw [answered]
  | some entry =>
      have stale : ¬ (services.now world).1 - entry.cachedAt < cacheTtl := by
        intro fresh
        simp [cachedAnswer, found, fresh] at unknown
      dsimp only
      rw [if_neg stale, answered]

theorem validateRecipient_config :
    (session.validateRecipient services recipient world).2.1.config = session.config := by
  simp only [validateRecipient]
  repeat' split
  all_goals rfl

theorem rejectsRecipient_iff :
    (session.rejectsRecipient services recipient world).1 = true ↔
      session.Checks ∧ (session.validateRecipient services recipient world).1 = .ok false := by
  simp only [rejectsRecipient, Checks]
  by_cases asks : session.config.checkRecipientExists = true ∧ ¬ session.authenticated = true ∧
      ¬ session.relayingAllowed = true
  · rw [if_pos asks]
    have known := asks.2
    rw [Bool.not_eq_true, Bool.not_eq_true] at known
    have same := session.validateRecipient_config services recipient world
    cases outcome : session.validateRecipient services recipient world with
    | mk answer rest =>
        rw [outcome] at same
        have configured : rest.1.config = session.config := same
        cases answer with
        | error error => simp
        | ok found => cases found <;> simp [asks.1, known, configured]
  · rw [if_neg asks]
    constructor
    · intro never
      cases never
    · rintro ⟨⟨checks, -, known, relaying⟩, -⟩
      exact absurd ⟨checks, by simp [known], by simp [relaying]⟩ asks

theorem handleRcpt_relayed (started : session.state = .mailTransaction)
    (relayed : isIpInNetworks services.parseNetwork session.remoteAddr
      session.config.relayNetworks = true) :
    ((session.handleRcpt services recipient world).1.code = 250 ∧
        (session.handleRcpt services recipient world).2.1.transaction.recipients =
          session.transaction.recipients ++ [recipient]) ↔
      (session.rejectsRecipient services recipient world).1 = false := by
  have allowed : session.isRelayAllowed services recipient = true := by
    simp [isRelayAllowed, relayed]
  have kept := congrArg Dialogue.recipients
    (session.rejectsRecipient_dialogue services recipient world)
  simp only [handleRcpt]
  rw [if_neg (not_not.mpr started), if_neg (not_not.mpr allowed)]
  cases outcome : session.rejectsRecipient services recipient world with
  | mk rejected rest =>
      rw [outcome] at kept
      have envelope : rest.1.transaction.recipients = session.transaction.recipients := kept
      cases rejected with
      | true => simp [SmtpResponse.new]
      | false => simp [SmtpResponse.ok, SmtpResponse.new, envelope]

end Lookup

def AcceptsWhateverListed (services : SmtpServices σ) (session : SmtpSession)
    (recipient : MailAddress) (world : σ) : Prop :=
  ∀ listMailboxes : Username → σ → Except Text (List Text) × σ,
    let handled := session.handleRcpt { services with listMailboxes } recipient world
    handled.1.code = 250 ∧
      handled.2.1.transaction.recipients = session.transaction.recipients ++ [recipient]

/-- A client in a relay network has its recipients accepted whatever mailboxes are listed
exactly if no check is made of them, or the cache still says that the recipient exists. -/
theorem relay_client_accepted_iff (services : SmtpServices σ) (session : SmtpSession)
    (recipient : MailAddress) (world : σ) (started : session.state = .mailTransaction)
    (relayed : isIpInNetworks services.parseNetwork session.remoteAddr
      session.config.relayNetworks = true) :
    session.AcceptsWhateverListed services recipient world ↔
      (session.Checks → session.cachedAnswer services recipient world = some true) := by
  constructor
  · intro accepts checks
    have passes (listMailboxes : Username → σ → Except Text (List Text) × σ) :
        (session.validateRecipient { services with listMailboxes } recipient world).1 ≠
          .ok false := by
      intro unknown
      have taken := (session.handleRcpt_relayed { services with listMailboxes } recipient world
        started relayed).mp (accepts listMailboxes)
      have rejected := (session.rejectsRecipient_iff { services with listMailboxes } recipient
        world).mpr ⟨checks, unknown⟩
      rw [taken] at rejected
      cases rejected
    cases cached : session.cachedAnswer services recipient world with
    | none =>
        have asked := session.validateRecipient_asked
          { services with listMailboxes := fun _ world => (.ok [], world) } recipient world cached
          fun _ _ => rfl
        exact absurd asked (passes fun _ world => (.ok [], world))
    | some answer =>
        cases answer with
        | true => rfl
        | false =>
            exact absurd (session.validateRecipient_cached services recipient world cached)
              (passes services.listMailboxes)
  · intro known listMailboxes
    apply (session.handleRcpt_relayed { services with listMailboxes } recipient world started
      relayed).mpr
    apply Bool.eq_false_iff.mpr
    intro rejected
    obtain ⟨checks, unknown⟩ := (session.rejectsRecipient_iff { services with listMailboxes }
      recipient world).mp rejected
    have answer := session.validateRecipient_cached { services with listMailboxes } recipient world
      (known checks)
    rw [answer] at unknown
    cases unknown

def relayServices : SmtpServices Unit :=
  { openServices with
    parseNetwork := fun text =>
      if text = "10.0.0.0/8".toList then some (.v4 0x0A000000 8) else none }

def relayClient : SmtpSession where
  remoteAddr := .v4 0x0A000001
  config := { mxConfig with relayNetworks := ["10.0.0.0/8".toList], localDomains := [] }
  state := .mailTransaction
  transaction := { sender := some alice }

theorem relayClient_accepted :
    isIpInNetworks relayServices.parseNetwork relayClient.remoteAddr
        relayClient.config.relayNetworks = true ∧
      (relayClient.AcceptsWhateverListed relayServices bob () ↔
        (relayClient.Checks → relayClient.cachedAnswer relayServices bob () = some true)) := by
  have relayed : isIpInNetworks relayServices.parseNetwork relayClient.remoteAddr
      relayClient.config.relayNetworks = true := by
    decide +kernel
  exact ⟨relayed, relay_client_accepted_iff relayServices relayClient bob () rfl relayed⟩

/-- A relay client's recipient elsewhere is turned away where no mailbox is listed for it. -/
theorem relayClient_rejected :
    isIpInNetworks relayServices.parseNetwork relayClient.remoteAddr
        relayClient.config.relayNetworks = true ∧
      relayClient.config.localDomains = [] ∧
      ¬ relayClient.AcceptsWhateverListed relayServices bob () := by
  refine ⟨by decide +kernel, rfl, ?_⟩
  intro accepts
  have accepted := (accepts fun _ world => (.ok [], world)).1
  revert accepted
  decide +kernel

end SmtpSession

end Rusmes
