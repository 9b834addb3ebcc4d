import Rusmes.Jmap.Accounts
import Rusmes.Jmap.PatchReading
import Rusmes.Jmap.Turns

/-!
Email/set update over a store whose calls may fail: the flags are written, then the mailboxes
are walked, where a copy that is refused goes unnoticed and a removal deletes the message.
When an update is done whole or leaves nothing behind.
-/

namespace Rusmes

open Effect WireText

section Steps

variable {σ : Type} (ctx : JmapContext σ) (messageId : MessageId)

/-! What the store answers to the steps. -/

def copyGoes (mailbox : MailboxId) (world : JmapWorld σ) : Bool :=
  let listed := containsMessage ctx messageId mailbox world
  match listed.1 with
  | .ok false => (ctx.messageStore.copyMessages [messageId] mailbox listed.2.store).1.isOk
  | _ => false

def finds (mailbox : MailboxId) (world : JmapWorld σ) : Bool :=
  match (containsMessage ctx messageId mailbox world).1 with
  | .ok seen => seen
  | .error _ => false

def deleteGoes (mailbox : MailboxId) (world : JmapWorld σ) : Bool :=
  (ctx.messageStore.deleteMessages [messageId]
    (containsMessage ctx messageId mailbox world).2.store).1.isOk

/-- The mailboxes that copies went into, and whether the message was found where it was to be
removed from and, if so, whether its deletion went through. -/
structure StepAnswers where
  copied : List MailboxId
  removal : Option Bool

def stepAnswers : List MailboxStep → JmapWorld σ → StepAnswers
  | [], _ => ⟨[], none⟩
  | .file mailbox :: steps, world =>
      let rest := stepAnswers steps (fileInMailbox ctx messageId mailbox world).2
      if copyGoes ctx messageId mailbox world then { rest with copied := mailbox :: rest.copied }
      else rest
  | .remove mailbox :: steps, world =>
      if finds ctx messageId mailbox world then
        ⟨[], some (deleteGoes ctx messageId mailbox world)⟩
      else stepAnswers steps (removeFromMailbox ctx messageId mailbox world).2

/-- How a walk over the steps ends and what it leaves, by what the store answers. -/
def StepAnswers.Tells (answers : StepAnswers) (messageId : MessageId) (holding : Holding)
    (before : Holdings) (outcome : Except JmapFault Unit) (after : Holdings) : Prop :=
  match answers.removal with
  | none => outcome = .ok () ∧
      after = Function.update before messageId (some (holding.filedAlso answers.copied))
  | some true => outcome = .ok () ∧ after messageId = none
  | some false => (∃ text, outcome = .error (.message text)) ∧
      after = Function.update before messageId (some (holding.filedAlso answers.copied))

variable {ctx messageId} {view : σ → Holdings} {world : JmapWorld σ} {holding : Holding}

theorem containsMessage_answers (truthful : Truthful ctx.messageStore view)
    (mailbox : MailboxId) (world : JmapWorld σ) :
    ∃ seen after, containsMessage ctx messageId mailbox world =
        (.ok seen, { world with store := after }) ∧ view after = view world.store ∧
      (seen = true → (view world.store).Files messageId mailbox) := by
  rcases (truthful.list mailbox).either world.store with
    ⟨text, after, refused, kept⟩ | ⟨listed, after, went, kept, files, _⟩
  · refine ⟨false, after, ?_, kept, by simp⟩
    have answered : stored (Effect.unwrapOr [] (ctx.messageStore.getMailboxMessages mailbox))
        world = (.ok [], { world with store := after }) := by
      apply stored_ok
      rw [Effect.unwrapOr_apply, refused]
      rfl
    rw [containsMessage, Effect.bind_ok answered]
    rfl
  · refine ⟨listed.any (·.messageId = messageId), after, ?_, kept, fun seen => ?_⟩
    · have answered : stored (Effect.unwrapOr [] (ctx.messageStore.getMailboxMessages mailbox))
          world = (.ok listed, { world with store := after }) := by
        apply stored_ok
        rw [Effect.unwrapOr_apply, went]
        rfl
      rw [containsMessage, Effect.bind_ok answered]
      rfl
    · obtain ⟨entry, member, same⟩ := List.any_eq_true.mp seen
      exact (files messageId).mp ⟨entry, member, of_decide_eq_true same⟩

theorem fileInMailbox_answers (truthful : Truthful ctx.messageStore view)
    (mailbox : MailboxId) (world : JmapWorld σ) :
    ∃ after, fileInMailbox ctx messageId mailbox world = (.ok (), { world with store := after }) ∧
      view after = if copyGoes ctx messageId mailbox world then
        (view world.store).change messageId (·.filedAlso [mailbox]) else view world.store := by
  obtain ⟨seen, middle, ran, kept, _⟩ := containsMessage_answers truthful mailbox world
  rw [copyGoes, fileInMailbox, Effect.bind_ok ran, ran]
  cases seen with
  | true => exact ⟨middle, rfl, kept⟩
  | false =>
    have ended : discard (stored (Effect.attempt (ctx.messageStore.copyMessages [messageId]
        mailbox))) { world with store := middle } =
          (.ok (), { world with store := (ctx.messageStore.copyMessages [messageId] mailbox
            middle).2 }) := rfl
    dsimp only
    refine ⟨_, ended, ?_⟩
    rcases (truthful.copy messageId mailbox).either middle with
      ⟨text, after, refused, same⟩ | ⟨_, after, went, done⟩
    · rw [refused]
      exact same.trans kept
    · rw [went]
      rw [kept] at done
      exact done

theorem fileInMailbox_held (truthful : Truthful ctx.messageStore view)
    (held : view world.store messageId = some holding) (mailbox : MailboxId) :
    ∃ after, fileInMailbox ctx messageId mailbox world = (.ok (), { world with store := after }) ∧
      view after = Function.update (view world.store) messageId (some (holding.filedAlso
        (if copyGoes ctx messageId mailbox world then [mailbox] else []))) := by
  obtain ⟨after, ran, left⟩ := @fileInMailbox_answers σ ctx messageId view truthful mailbox world
  refine ⟨after, ran, ?_⟩
  rw [left]
  cases copyGoes ctx messageId mailbox world with
  | true => rw [if_pos rfl, if_pos rfl, Holdings.change_held held]
  | false =>
    rw [if_neg Bool.false_ne_true, if_neg Bool.false_ne_true, Holding.filedAlso_nil, ← held,
      Function.update_eq_self]

theorem removeFromMailbox_unseen (truthful : Truthful ctx.messageStore view)
    {mailbox : MailboxId} (unseen : finds ctx messageId mailbox world = false) :
    ∃ after, removeFromMailbox ctx messageId mailbox world =
        (.ok (), { world with store := after }) ∧ view after = view world.store := by
  obtain ⟨seen, middle, ran, kept, _⟩ :=
    @containsMessage_answers σ ctx messageId view truthful mailbox world
  rw [finds, ran] at unseen
  dsimp only at unseen
  subst unseen
  rw [removeFromMailbox, Effect.bind_ok ran]
  exact ⟨middle, rfl, kept⟩

theorem removeFromMailbox_seen (truthful : Truthful ctx.messageStore view)
    {mailbox : MailboxId} (seen : finds ctx messageId mailbox world = true) :
    (view world.store).Files messageId mailbox ∧ ∃ outcome after,
      removeFromMailbox ctx messageId mailbox world =
        (outcome, { world with store := after }) ∧
      if deleteGoes ctx messageId mailbox world then
        outcome = .ok () ∧ view after = Function.update (view world.store) messageId none
      else (∃ text, outcome = .error (.message text)) ∧ view after = view world.store := by
  obtain ⟨found, middle, ran, kept, files⟩ :=
    @containsMessage_answers σ ctx messageId view truthful mailbox world
  rw [finds, ran] at seen
  dsimp only at seen
  subst seen
  rw [removeFromMailbox, Effect.bind_ok ran, deleteGoes, ran, if_pos rfl]
  refine ⟨files rfl, ?_⟩
  dsimp only
  rcases (truthful.delete messageId).either middle with
    ⟨text, after, refused, same⟩ | ⟨_, after, went, done⟩
  · refine ⟨_, after, stored_error refused, ?_⟩
    rw [refused]
    exact ⟨⟨text, rfl⟩, same.trans kept⟩
  · refine ⟨_, after, stored_ok went, ?_⟩
    rw [went]
    rw [kept] at done
    exact ⟨rfl, done⟩

theorem runSteps_gone (truthful : Truthful ctx.messageStore view) (steps : List MailboxStep)
    (gone : view world.store messageId = none) :
    ∃ after, runSteps ctx messageId steps world = (.ok (), { world with store := after }) ∧
      view after = view world.store := by
  induction steps generalizing world with
  | nil => exact ⟨world.store, rfl, rfl⟩
  | cons step steps ih =>
    have turn : ∃ after, step.run ctx messageId world = (.ok (), { world with store := after }) ∧
        view after = view world.store := by
      cases step with
      | file mailbox =>
        obtain ⟨after, ran, left⟩ :=
          @fileInMailbox_answers σ ctx messageId view truthful mailbox world
        refine ⟨after, ran, ?_⟩
        rw [left, Holdings.change_absent gone, ite_self]
      | remove mailbox =>
        cases seen : finds ctx messageId mailbox world with
        | false => exact removeFromMailbox_unseen truthful seen
        | true =>
          have there := (removeFromMailbox_seen truthful seen).1
          exact absurd there (Holdings.files_absent gone mailbox)
    obtain ⟨middle, ran, kept⟩ := turn
    obtain ⟨after, rest, same⟩ := @ih { world with store := middle } (by rw [kept, gone])
    refine ⟨after, ?_, same.trans kept⟩
    rw [runSteps, Effect.bind_ok ran, rest]

theorem StepAnswers.Tells.filed {answers : StepAnswers} {before after : Holdings}
    {outcome : Except JmapFault Unit} {mailboxes : List MailboxId}
    (tells : answers.Tells messageId (holding.filedAlso mailboxes)
      (Function.update before messageId (some (holding.filedAlso mailboxes))) outcome after) :
    ({ answers with copied := mailboxes ++ answers.copied } : StepAnswers).Tells messageId holding
      before outcome after := by
  obtain ⟨copied, removal⟩ := answers
  rw [Tells, Holding.filedAlso_append, Function.update_idem] at tells
  exact tells

theorem StepAnswers.Tells.afterUpdate {answers : StepAnswers} {before after : Holdings}
    {outcome : Except JmapFault Unit} {other : Option Holding}
    (tells : answers.Tells messageId holding (Function.update before messageId other) outcome
      after) : answers.Tells messageId holding before outcome after := by
  rw [Tells, Function.update_idem] at tells
  exact tells

theorem runSteps_held (truthful : Truthful ctx.messageStore view) (steps : List MailboxStep)
    (held : view world.store messageId = some holding) :
    ∃ outcome after, runSteps ctx messageId steps world =
        (outcome, { world with store := after }) ∧
      (stepAnswers ctx messageId steps world).Tells messageId holding (view world.store)
        outcome (view after) := by
  induction steps generalizing world holding with
  | nil =>
    refine ⟨.ok (), world.store, rfl, rfl, ?_⟩
    rw [stepAnswers, Holding.filedAlso_nil, ← held, Function.update_eq_self]
  | cons step steps ih =>
    cases step with
    | file mailbox =>
      obtain ⟨middle, ran, left⟩ := fileInMailbox_held truthful held mailbox
      have there := congrFun left messageId
      rw [Function.update_self] at there
      obtain ⟨outcome, after, rest, tells⟩ := @ih { world with store := middle } _ there
      refine ⟨outcome, after, ?_, ?_⟩
      · rw [runSteps, MailboxStep.run, Effect.bind_ok ran, rest]
      · rw [show view ({ world with store := middle } : JmapWorld σ).store = _ from left] at tells
        rw [stepAnswers, ran]
        cases goes : copyGoes ctx messageId mailbox world with
        | true =>
          rw [goes] at tells
          exact tells.filed
        | false =>
          rw [goes] at tells
          exact tells.filed
    | remove mailbox =>
      rw [stepAnswers, runSteps, MailboxStep.run]
      cases seen : finds ctx messageId mailbox world with
      | false =>
        obtain ⟨middle, ran, kept⟩ := removeFromMailbox_unseen truthful seen
        obtain ⟨outcome, after, rest, tells⟩ :=
          @ih { world with store := middle } holding (by rw [← held, ← kept])
        refine ⟨outcome, after, ?_, ?_⟩
        · rw [Effect.bind_ok ran, rest]
        · rw [if_neg Bool.false_ne_true, ran, ← kept]
          exact tells
      | true =>
        obtain ⟨-, outcome, middle, ran, left⟩ := removeFromMailbox_seen truthful seen
        rw [if_pos rfl]
        cases goes : deleteGoes ctx messageId mailbox world with
        | true =>
          rw [goes, if_pos rfl] at left
          obtain ⟨rfl, deleted⟩ := left
          have gone : view middle messageId = none := by
            rw [deleted, Function.update_self]
          obtain ⟨after, rest, same⟩ :=
            @runSteps_gone σ ctx messageId view { world with store := middle } truthful steps gone
          refine ⟨.ok (), after, ?_, rfl, ?_⟩
          · rw [Effect.bind_ok ran, rest]
          · rw [same]
            exact gone
        | false =>
          rw [goes, if_neg Bool.false_ne_true] at left
          obtain ⟨⟨text, rfl⟩, kept⟩ := left
          refine ⟨_, middle, Effect.bind_error ran, ⟨text, rfl⟩, ?_⟩
          rw [kept, Holding.filedAlso_nil, ← held, Function.update_eq_self]

end Steps

section Flags

variable {σ : Type} (ctx : JmapContext σ)

def flagsShown (entries : List (Text × JsonValue)) (holding : Holding) : MessageFlags :=
  match owningMailbox ctx entries with
  | some mailbox => if holding.filed mailbox then holding.flags else .new
  | none => .new

def flagsRead (entries : List (Text × JsonValue)) (holding : Holding) : MessageFlags :=
  match heardKeywords entries with
  | none => holding.flags
  | some told => setTold ctx (heardOnto entries (flagsShown ctx entries holding)) told

variable {ctx} {messageId : MessageId} {view : σ → Holdings} {world : JmapWorld σ}
  {holding : Holding} {entries : List (Text × JsonValue)}

theorem readMessageFlags_held (truthful : Truthful ctx.messageStore view)
    (held : view world.store messageId = some holding) (mailbox : MailboxId) :
    (∃ text after, readMessageFlags ctx messageId mailbox world =
      (.error (.message text), { world with store := after }) ∧ view after = view world.store) ∨
    ∃ after, readMessageFlags ctx messageId mailbox world =
      (.ok (if holding.filed mailbox then some holding.flags else none),
        { world with store := after }) ∧ view after = view world.store := by
  rw [readMessageFlags]
  rcases stored_either (truthful.list mailbox) world with
    ⟨text, after, _, stopped, same⟩ | ⟨listed, after, _, went, same, files, flags⟩
  · exact .inl ⟨text, after, Effect.bind_error stopped, same⟩
  · refine .inr ⟨after, ?_, same⟩
    rw [Effect.bind_ok went]
    have shown := (files messageId).trans (Holdings.files_iff held mailbox)
    cases found : listed.find? fun entry => entry.messageId = messageId with
    | none =>
      have absent : holding.filed mailbox = false := by
        rw [← Bool.not_eq_true, ← shown]
        rintro ⟨entry, member, same⟩
        exact List.find?_eq_none.mp found entry member (decide_eq_true same)
      rw [absent]
      rfl
    | some entry =>
      have member := List.mem_of_find?_eq_some found
      have named : entry.messageId = messageId := by simpa using List.find?_some found
      have there : holding.filed mailbox = true := shown.mp ⟨entry, member, named⟩
      rw [there, if_pos rfl, ← flags entry member holding (named ▸ held)]
      rfl

theorem currentFlags_held (truthful : Truthful ctx.messageStore view)
    (held : view world.store messageId = some holding) :
    (∃ text after, currentFlags ctx messageId entries world =
      (.error (.message text), { world with store := after }) ∧ view after = view world.store) ∨
    ∃ after, currentFlags ctx messageId entries world =
      (.ok (flagsShown ctx entries holding), { world with store := after }) ∧
        view after = view world.store := by
  rw [currentFlags, flagsShown]
  cases owningMailbox ctx entries with
  | none => exact .inr ⟨world.store, rfl, rfl⟩
  | some mailbox =>
    dsimp only
    rcases readMessageFlags_held truthful held mailbox with
      ⟨text, after, stopped, same⟩ | ⟨after, went, same⟩
    · exact .inl ⟨text, after, Effect.bind_error stopped, same⟩
    · refine .inr ⟨after, ?_, same⟩
      rw [Effect.bind_ok went]
      cases holding.filed mailbox with
      | true => rfl
      | false => rfl

theorem writeFlags_held (truthful : Truthful ctx.messageStore view)
    (held : view world.store messageId = some holding) :
    (∃ text after, writeFlags ctx messageId entries world =
      (.error (.message text), { world with store := after }) ∧ view after = view world.store) ∨
    ∃ after, writeFlags ctx messageId entries world = (.ok (), { world with store := after }) ∧
      view after = Function.update (view world.store) messageId
        (some { holding with flags := flagsRead ctx entries holding }) := by
  rw [writeFlags]
  rcases @currentFlags_held σ ctx messageId view world holding entries truthful held with
    ⟨text, after, stopped, same⟩ | ⟨middle, went, same⟩
  · exact .inl ⟨text, after, Effect.bind_error stopped, same⟩
  rw [Effect.bind_ok went]
  dsimp only
  rcases applyKeywordPatch_heard ctx entries (flagsShown ctx entries holding) with
    ⟨silent, unchanged⟩ | ⟨told, heard, applied⟩
  · refine .inr ⟨middle, ?_, ?_⟩
    · rw [unchanged, if_neg Bool.false_ne_true]
      rfl
    · rw [same, flagsRead, silent]
      exact (held ▸ (Function.update_eq_self messageId (view world.store)).symm)
  · rw [applied, if_pos rfl]
    rcases stored_either (truthful.flag messageId
        (setTold ctx (heardOnto entries (flagsShown ctx entries holding)) told))
      { world with store := middle } with ⟨text, after, _, stopped, kept⟩ | ⟨_, after, _, set, done⟩
    · exact .inl ⟨text, after, stopped, kept.trans same⟩
    · refine .inr ⟨after, set, ?_⟩
      rw [done, same, Holdings.change_held held, flagsRead, heard]

theorem requireMessage_answers (truthful : Truthful ctx.messageStore view) (id : Text)
    (messageId : MessageId) (world : JmapWorld σ) :
    (∃ fault after, requireMessage ctx id messageId world =
        (.error fault, { world with store := after }) ∧ view after = view world.store ∧
      (Passes (ctx.messageStore.getMessage messageId) world.store →
        view world.store messageId = none)) ∨
    ∃ holding after, view world.store messageId = some holding ∧
      ctx.messageStore.getMessage messageId world.store = (.ok (some holding.mail), after) ∧
      requireMessage ctx id messageId world = (.ok (), { world with store := after }) ∧
      view after = view world.store := by
  rw [requireMessage]
  rcases stored_either (truthful.get messageId) world with
    ⟨text, after, refused, stopped, same⟩ | ⟨found, after, got, went, told, same⟩
  · refine .inl ⟨_, after, Effect.bind_error stopped, same, ?_⟩
    rintro ⟨value, last, passed⟩
    cases refused.symm.trans passed
  rw [Effect.bind_ok went]
  cases held : view world.store messageId with
  | none =>
    rw [held, Option.map_none] at told
    subst told
    exact .inl ⟨_, after, rfl, same, fun _ => rfl⟩
  | some holding =>
    rw [held, Option.map_some] at told
    subst told
    exact .inr ⟨holding, after, rfl, got, rfl, same⟩

end Flags

/-! A turn of the loop over the updates. -/

section Update

variable {σ : Type} (ctx : JmapContext σ)

def patchEntries (patch : JsonValue) : List (Text × JsonValue) := patch.asObject.getD []

structure UpdateEffect (id : Text) (patch : JsonValue) (before after : Holdings) : Prop where
  known : ∀ entry ∈ patchEntries patch, patchPath entry.1 ≠ none
  named : NamesMailboxes (patchEntries patch)
  made : ∃ messageId holding flags, parseUuid id = some messageId.uuid ∧
    before messageId = some holding ∧
    (∀ keyword, flags.holdsKeyword keyword = wantedKeyword ctx.toCaseMapping
      (patchEntries patch) keyword (holding.flags.holdsKeyword keyword)) ∧
    after = Function.update before messageId (some ⟨holding.mail,
      fun mailbox => wantedMailbox (patchEntries patch) mailbox (holding.filed mailbox), flags⟩)

/-- The answers of the store to the steps are such that the patch is applied, or that the
update fails with nothing changed. -/
def StepsFit (entries : List (Text × JsonValue)) (holding : Holding) (answers : StepAnswers) :
    Prop :=
  match answers.removal with
  | none =>
      (∀ entry ∈ entries, patchPath entry.1 ≠ none) ∧ NamesMailboxes entries ∧
      (∀ keyword, (flagsRead ctx entries holding).holdsKeyword keyword =
        wantedKeyword ctx.toCaseMapping entries keyword (holding.flags.holdsKeyword keyword)) ∧
      ∀ mailbox, wantedMailbox entries mailbox (holding.filed mailbox) =
        (holding.filed mailbox || decide (mailbox ∈ answers.copied))
  | some true => False
  | some false => flagsRead ctx entries holding = holding.flags ∧
      ∀ mailbox ∈ answers.copied, holding.filed mailbox = true

/-- Once the flags of a message that is there are written, the answers to the steps fit. -/
def UpdateFits (view : σ → Holdings) (id : Text) (patch : JsonValue) (world : JmapWorld σ) :
    Prop :=
  ∀ messageId holding entries flagged, parseUuid id = some messageId.uuid →
    view world.store messageId = some holding → patch.asObject = some entries →
    (requireMessage ctx id messageId >>= fun _ => writeFlags ctx messageId entries) world =
      (.ok (), flagged) →
    StepsFit ctx entries holding (stepAnswers ctx messageId (mailboxSteps entries) flagged)

variable {ctx} {view : σ → Holdings} {messageId : MessageId} {holding : Holding}
  {entries : List (Text × JsonValue)}

theorem updateEffect_iff {id : Text} {patch : JsonValue} {before after : Holdings}
    (read : parseUuid id = some messageId.uuid) (held : before messageId = some holding)
    {filed : MailboxId → Bool} {flags : MessageFlags}
    (left : after = Function.update before messageId (some ⟨holding.mail, filed, flags⟩)) :
    UpdateEffect ctx id patch before after ↔
      (∀ entry ∈ patchEntries patch, patchPath entry.1 ≠ none) ∧
      NamesMailboxes (patchEntries patch) ∧
      (∀ keyword, flags.holdsKeyword keyword = wantedKeyword ctx.toCaseMapping
        (patchEntries patch) keyword (holding.flags.holdsKeyword keyword)) ∧
      ∀ mailbox, wantedMailbox (patchEntries patch) mailbox (holding.filed mailbox) =
        filed mailbox := by
  constructor
  · rintro ⟨known, named, other, own, asked, readOther, heldOther, keywords, made⟩
    have same : messageId = other :=
      congrArg MessageId.mk (Option.some.inj (read.symm.trans readOther))
    subst same
    cases held.symm.trans heldOther
    have equal := congrFun (left.symm.trans made) messageId
    rw [Function.update_self, Function.update_self] at equal
    cases equal
    exact ⟨known, named, keywords, fun mailbox => rfl⟩
  · rintro ⟨known, named, keywords, mailboxes⟩
    refine ⟨known, named, messageId, holding, flags, read, held, keywords, ?_⟩
    rw [left, funext mailboxes]

theorem update_eq_self_iff {before : Holdings} {other : Holding}
    (held : before messageId = some holding) :
    Function.update before messageId (some other) = before ↔ other = holding := by
  rw [Function.update_eq_self_iff, held, Option.some.injEq]

theorem updateFits_of_error {id : Text} {patch : JsonValue} {world after : JmapWorld σ}
    {fault : JmapFault} (read : parseUuid id = some messageId.uuid)
    (failed : ∀ entries, patch.asObject = some entries →
      (requireMessage ctx id messageId >>= fun _ => writeFlags ctx messageId entries) world =
        (.error fault, after)) : UpdateFits ctx view id patch world := by
  intro other holding entries flagged readOther held object written
  have same : messageId = other :=
    congrArg MessageId.mk (Option.some.inj (read.symm.trans readOther))
  subst same
  cases (failed entries object).symm.trans written

theorem updateFits_written {id : Text} {world flagged : JmapWorld σ}
    (read : parseUuid id = some messageId.uuid)
    (held : view world.store messageId = some holding)
    (written : (requireMessage ctx id messageId >>= fun _ => writeFlags ctx messageId entries)
      world = (.ok (), flagged)) :
    UpdateFits ctx view id (.object entries) world ↔
      StepsFit ctx entries holding (stepAnswers ctx messageId (mailboxSteps entries) flagged) := by
  constructor
  · intro fits
    exact fits messageId holding entries flagged read held rfl written
  · intro fits other own asked reached readOther heldOther object writtenOther
    have same : messageId = other :=
      congrArg MessageId.mk (Option.some.inj (read.symm.trans readOther))
    subst same
    cases object
    cases held.symm.trans heldOther
    cases written.symm.trans writtenOther
    exact fits

theorem steps_whole_iff {turn : SetTurn σ JsonValue Unit} {answers : StepAnswers}
    (object : turn.value = .object entries) (read : parseUuid turn.key = some messageId.uuid)
    (held : view turn.before.store messageId = some holding)
    (tells : answers.Tells messageId { holding with flags := flagsRead ctx entries holding }
      (view turn.before.store) turn.outcome (view turn.after.store)) :
    turn.Whole view (UpdateEffect ctx) ↔ StepsFit ctx entries holding answers := by
  have asked : patchEntries turn.value = entries := by
    rw [object]
    rfl
  rw [StepAnswers.Tells] at tells
  rw [StepsFit]
  cases removal : answers.removal with
  | none =>
    rw [removal] at tells
    obtain ⟨went, left⟩ := tells
    rw [SetTurn.whole_ok went, updateEffect_iff read held left, asked]
  | some deleted =>
    rw [removal] at tells
    cases deleted with
    | true =>
      obtain ⟨went, gone⟩ := tells
      rw [SetTurn.whole_ok went]
      refine iff_of_false ?_ id
      rintro ⟨-, -, other, own, flags, readOther, -, -, made⟩
      have same : messageId = other :=
        congrArg MessageId.mk (Option.some.inj (read.symm.trans readOther))
      subst same
      rw [made, Function.update_self] at gone
      cases gone
    | false =>
      obtain ⟨⟨text, failed⟩, left⟩ := tells
      rw [SetTurn.whole_error failed, left, update_eq_self_iff held]
      dsimp only
      have restored (kept : flagsRead ctx entries holding = holding.flags) :
          { holding with flags := flagsRead ctx entries holding } = holding := by rw [kept]
      constructor
      · intro same
        have kept : flagsRead ctx entries holding = holding.flags := congrArg Holding.flags same
        rw [restored kept, Holding.filedAlso_self] at same
        exact ⟨kept, same⟩
      · rintro ⟨kept, inside⟩
        rw [restored kept, Holding.filedAlso_self]
        exact inside

theorem handleEmailUpdate_missing {id : Text} {patch : JsonValue} {world after : JmapWorld σ}
    {fault : JmapFault} (read : parseUuid id = some messageId.uuid)
    (missing : requireMessage ctx id messageId world = (.error fault, after)) :
    handleEmailUpdate ctx id patch world = (.error fault, after) := by
  rw [handleEmailUpdate, parseMessageId, read]
  change (requireMessage ctx id messageId >>= _) world = _
  exact Effect.bind_error missing

theorem handleEmailUpdate_empty {id : Text} {patch : JsonValue} {world after : JmapWorld σ}
    (read : parseUuid id = some messageId.uuid) (empty : patch.asObject = none)
    (found : requireMessage ctx id messageId world = (.ok (), after)) :
    handleEmailUpdate ctx id patch world = (.ok (), after) := by
  rw [handleEmailUpdate, parseMessageId, read]
  change (requireMessage ctx id messageId >>= _) world = _
  rw [Effect.bind_ok found, empty]
  rfl

theorem update_whole_iff (truthful : Truthful ctx.messageStore view)
    {turn : SetTurn σ JsonValue Unit}
    (ran : handleEmailUpdate ctx turn.key turn.value turn.before = (turn.outcome, turn.after)) :
    turn.Whole view (UpdateEffect ctx) ↔ UpdateFits ctx view turn.key turn.value turn.before := by
  obtain ⟨id, patch, world, outcome, last⟩ := turn
  dsimp only at ran ⊢
  cases read : parseUuid id with
  | none =>
    obtain ⟨fault, shape, -⟩ := @handleEmailUpdate_unnamed σ ctx id read patch
    rw [shape] at ran
    cases ran
    refine iff_of_true ((SetTurn.whole_error rfl).mpr rfl) ?_
    intro messageId holding entries flagged other
    cases read.symm.trans other
  | some uuid =>
  let messageId : MessageId := ⟨uuid⟩
  have named : parseUuid id = some messageId.uuid := read
  rcases requireMessage_answers truthful id messageId world with
    ⟨fault, after, missing, same, -⟩ | ⟨holding, after, held, -, found, same⟩
  · cases (handleEmailUpdate_missing named missing).symm.trans ran
    refine iff_of_true ((SetTurn.whole_error rfl).mpr same) ?_
    exact updateFits_of_error named fun entries _ => Effect.bind_error missing
  have heldAfter : view after messageId = some holding := same ▸ held
  cases object : patch.asObject with
  | none =>
    cases (handleEmailUpdate_empty named object found).symm.trans ran
    refine iff_of_true ((SetTurn.whole_ok rfl).mpr ?_) ?_
    · have nothing : patchEntries patch = [] := by rw [patchEntries, object, Option.getD_none]
      have left : view after = Function.update (view world.store) messageId
          (some ⟨holding.mail, holding.filed, holding.flags⟩) := by
        rw [← held, Function.update_eq_self, same]
      rw [updateEffect_iff named held left, nothing]
      exact ⟨fun entry member => absurd member List.not_mem_nil,
        fun entry member => absurd member List.not_mem_nil, fun keyword => rfl, fun mailbox => rfl⟩
    · intro other own entries flagged _ _ asked
      cases object.symm.trans asked
  | some entries =>
    have shape : patch = .object entries := by
      cases patch with
      | object own =>
        cases object
        rfl
      | null | bool | number | string | array => cases object
    subst shape
    rw [handleEmailUpdate_steps ctx messageId named, Effect.bind_ok found] at ran
    rcases @writeFlags_held σ ctx messageId view { world with store := after } holding entries
      truthful heldAfter with ⟨text, flagged, stopped, kept⟩ | ⟨flagged, wrote, left⟩
    · cases (Effect.bind_error stopped).symm.trans ran
      refine iff_of_true ((SetTurn.whole_error rfl).mpr (kept.trans same)) ?_
      have refused : ∀ other, (JsonValue.object entries).asObject = some other →
          (requireMessage ctx id messageId >>= fun _ => writeFlags ctx messageId other) world =
            (.error (.message text), { world with store := flagged }) := by
        intro other asked
        cases asked
        exact (Effect.bind_ok found).trans stopped
      exact updateFits_of_error named refused
    · rw [updateFits_written named held ((Effect.bind_ok found).trans wrote)]
      have there := congrFun left messageId
      rw [Function.update_self] at there
      obtain ⟨ended, final, walked, tells⟩ := @runSteps_held σ ctx messageId view
        { world with store := flagged } _ truthful (mailboxSteps entries) there
      cases ((Effect.bind_ok wrote).trans walked).symm.trans ran
      rw [show view ({ world with store := flagged } : JmapWorld σ).store = _ from left] at tells
      exact steps_whole_iff rfl named held (same ▸ tells.afterUpdate)

end Update

end Rusmes
