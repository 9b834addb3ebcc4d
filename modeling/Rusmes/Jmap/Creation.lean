import Rusmes.Jmap.Accounts
import Rusmes.Jmap.PatchReading
import Rusmes.Jmap.Turns

/-!
Email/set create over a store whose calls may fail: an append, copies, the flags and a read
of the stored mail. When a creation is done whole or leaves nothing behind.
-/

namespace Rusmes

open Effect WireText

section Stored

variable {σ α β : Type}

theorem stored_bind (first : Effect Text σ α) (next : α → Effect Text σ β) :
    stored (first >>= next) = stored first >>= fun value => stored (next value) := by
  funext world
  rcases ran : first world.store with ⟨outcome, middle⟩
  cases outcome with
  | ok value =>
    rw [Effect.bind_ok (stored_ok ran), stored, Effect.bind_ok ran]
    rfl
  | error text =>
    rw [Effect.bind_error (stored_error ran), stored, Effect.bind_error ran]
    rfl

theorem stored_discard (call : Effect Text σ α) :
    discard (stored call) = stored (discard call) := by
  funext world
  rcases ran : call world.store with ⟨outcome, after⟩
  cases outcome with
  | ok value =>
    have done : discard call world.store = (.ok (), after) := by
      change (call >>= fun _ => pure ()) world.store = _
      rw [Effect.bind_ok ran]
      rfl
    change (stored call >>= fun _ => pure ()) world = _
    rw [Effect.bind_ok (stored_ok ran), stored_ok done]
    rfl
  | error text =>
    have stopped : discard call world.store = (.error text, after) := by
      change (call >>= fun _ => pure ()) world.store = _
      rw [Effect.bind_error ran]
    change (stored call >>= fun _ => pure ()) world = _
    rw [Effect.bind_error (stored_error ran), stored_error stopped]

end Stored

section Create

variable {σ : Type} (ctx : JmapContext σ)

def trueIds (object : EmailSetObject) : List Text :=
  (object.mailboxIds.filter Prod.snd).map Prod.fst

def setObjectMessage (object : EmailSetObject) (moment : Int) : MimeMessage :=
  ⟨(setObjectFields object (ctx.formatRfcDate moment)).foldl
      (fun headers field => HeaderMap.insert ctx.toLowercase headers field.1 field.2) ∅,
    .small (encodeUtf8 (buildBodyText object))⟩

/-- The object became a new message with the content, keywords and mailboxes it asks for. -/
structure CreateEffect (object : EmailSetObject) (before after : Holdings) : Prop where
  named : ∀ id ∈ trueIds object, parseUuid id ≠ none
  made : ∃ messageId mail flags moment, before messageId = none ∧
    (∀ sentAt, object.sentAt = some sentAt → moment = sentAt) ∧
    mail.message = setObjectMessage ctx object moment ∧
    (∀ keyword, flags.holdsKeyword keyword =
      decide (keyword ∈ ((object.keywords.getD []).filter Prod.snd).map
        fun entry => ctx.toLowercase entry.1)) ∧
    after = Function.update before messageId (some ⟨mail,
      fun mailbox => decide (some mailbox.uuid ∈ (trueIds object).map parseUuid), flags⟩)

def copyTargets (primary : Text) (mailboxIds : List (Text × Bool)) : List MailboxId :=
  mailboxIds.filterMap fun entry =>
    if entry.2 ∧ entry.1 ≠ primary then (parseUuid entry.1).map MailboxId.mk else none

def copyCalls (messageId : MessageId) (targets : List MailboxId) : List (Effect Text σ Unit) :=
  targets.map fun dest => discard (ctx.messageStore.copyMessages [messageId] dest)

def flagCalls (messageId : MessageId) (keywords : List (Text × Bool)) :
    List (Effect Text σ Unit) :=
  if keywords ≠ [] then [ctx.messageStore.setFlags [messageId] (keywordsToFlags ctx keywords)]
  else []

def callsAfterAppend (messageId : MessageId) (primary : Text) (object : EmailSetObject) :
    Effect Text σ (Option Mail) := do
  inSequence (copyCalls ctx messageId (copyTargets primary object.mailboxIds) ++
    flagCalls ctx messageId (object.keywords.getD []))
  ctx.messageStore.getMessage messageId

/-- If the message is appended, every mailbox it asks for can be read and no later call is
refused. -/
def CreateFits (object : EmailSetObject) (world : JmapWorld σ) : Prop :=
  ∀ primary mailbox mail draws metadata store,
    object.mailboxIds.find? Prod.snd = some primary →
    parseUuid primary.1 = some mailbox.uuid →
    buildMailFromSetObject ctx object world = (.ok mail, { world with draws }) →
    ctx.messageStore.appendMessage mailbox mail world.store = (.ok metadata, store) →
    (∀ id ∈ trueIds object, parseUuid id ≠ none) ∧
      Passes (callsAfterAppend ctx metadata.messageId primary.1 object) store

variable {ctx} {object : EmailSetObject} {messageId : MessageId}

theorem copyToMailboxes_eq (primary : Text) (mailboxIds : List (Text × Bool)) :
    copyToMailboxes ctx messageId primary mailboxIds =
      stored (inSequence (copyCalls ctx messageId (copyTargets primary mailboxIds))) := by
  induction mailboxIds with
  | nil => rfl
  | cons entry others ih =>
    obtain ⟨id, active⟩ := entry
    rw [copyToMailboxes, ih]
    by_cases asked : active ∧ id ≠ primary
    · cases read : parseUuid id with
      | none =>
        have skipped : copyTargets primary ((id, active) :: others) =
            copyTargets primary others := by
          rw [copyTargets, List.filterMap_cons_none]
          · rfl
          · rw [if_pos asked, read, Option.map_none]
        rw [if_pos asked, parseMailboxId, read, skipped]
      | some uuid =>
        have taken : copyTargets primary ((id, active) :: others) =
            ⟨uuid⟩ :: copyTargets primary others := by
          rw [copyTargets, List.filterMap_cons_some]
          · rfl
          · rw [if_pos asked, read, Option.map_some]
        have calls : copyCalls ctx messageId (⟨uuid⟩ :: copyTargets primary others) =
            discard (ctx.messageStore.copyMessages [messageId] ⟨uuid⟩) ::
              copyCalls ctx messageId (copyTargets primary others) := rfl
        rw [if_pos asked, parseMailboxId, read, taken, calls, inSequence, stored_bind,
          ← stored_discard]
    · have skipped : copyTargets primary ((id, active) :: others) =
          copyTargets primary others := by
        rw [copyTargets, List.filterMap_cons_none]
        · rfl
        · rw [if_neg asked]
      rw [if_neg asked, skipped]

theorem handleEmailCreate_eq {primary : Text × Bool} {uuid : BitVec 128}
    (found : object.mailboxIds.find? Prod.snd = some primary)
    (read : parseUuid primary.1 = some uuid) :
    handleEmailCreate ctx object = (do
      let mail ← buildMailFromSetObject ctx object
      let metadata ← stored (ctx.messageStore.appendMessage ⟨uuid⟩ mail)
      let fetched ← stored (callsAfterAppend ctx metadata.messageId primary.1 object)
      match fetched with
      | none =>
          Effect.fail (.message ("message disappeared after append (id=".toList ++
            metadata.messageId.display ++ ")".toList))
      | some fetched => do
          let received ← receivedAt ctx fetched
          Effect.ofExcept (convertMailToEmail ctx metadata.messageId.display fetched
            { blobId := ctx.computeBlobId (encodeUtf8 metadata.messageId.display),
              receivedAt := received, mailboxIds := object.mailboxIds,
              keywords := object.keywords.getD [], threadId := ctx.assignedThread metadata })) := by
  obtain ⟨primary, active⟩ := primary
  rw [handleEmailCreate, found]
  dsimp only
  rw [parseMailboxId, show parseUuid primary = some uuid from read]
  change (buildMailFromSetObject ctx object >>= _) = _
  congr 1
  funext mail
  congr 1
  funext metadata
  rw [copyToMailboxes_eq, callsAfterAppend, inSequence_append, flagCalls]
  by_cases some : object.keywords.getD [] ≠ []
  · rw [if_pos some, if_pos some]
    simp only [stored_bind, inSequence, bind_assoc, pure_bind] <;> rfl
  · rw [if_neg some, if_neg some]
    simp only [stored_bind, inSequence, bind_assoc, pure_bind] <;> rfl

def creationSteps (ctx : JmapContext σ) (primary : Text) (object : EmailSetObject) :
    List (Holding → Holding) :=
  (copyTargets primary object.mailboxIds).map (fun dest holding => holding.filedAlso [dest]) ++
    if object.keywords.getD [] ≠ [] then
      [({ · with flags := keywordsToFlags ctx (object.keywords.getD []) })]
    else []

def changeSteps (messageId : MessageId) (steps : List (Holding → Holding)) :
    List (Holdings → Holdings) :=
  steps.map fun step holdings => holdings.change messageId step

theorem changed_held {holdings : Holdings} {holding : Holding}
    (held : holdings messageId = some holding) (steps : List (Holding → Holding)) :
    changed (changeSteps messageId steps) holdings = Function.update holdings messageId
      (some (steps.foldl (fun holding step => step holding) holding)) := by
  induction steps generalizing holdings holding with
  | nil => exact (held ▸ (Function.update_eq_self messageId holdings).symm)
  | cons step steps ih =>
    have first : (holdings.change messageId step) messageId = some (step holding) := by
      rw [Holdings.change_held held, Function.update_self]
    have rest := ih first
    rw [Holdings.change_held held, Function.update_idem] at rest
    rw [List.foldl_cons, ← rest, ← Holdings.change_held held]
    rfl

theorem steps_filed (targets : List MailboxId) (holding : Holding) :
    (targets.map fun dest holding => Holding.filedAlso holding [dest]).foldl
      (fun holding step => step holding) holding = holding.filedAlso targets := by
  induction targets generalizing holding with
  | nil => exact holding.filedAlso_nil.symm
  | cons dest targets ih =>
    rw [List.map_cons, List.foldl_cons, ih, Holding.filedAlso_append, List.singleton_append]

variable {view : σ → Holdings}

theorem calls_answer (truthful : Truthful ctx.messageStore view) (primary : Text) :
    List.Forall₂ (fun call change =>
        Answers view call fun before _ after => after = change before)
      (copyCalls ctx messageId (copyTargets primary object.mailboxIds) ++
        flagCalls ctx messageId (object.keywords.getD []))
      (changeSteps messageId (creationSteps ctx primary object)) := by
  rw [changeSteps, creationSteps, List.map_append]
  refine List.rel_append ?_ ?_
  · rw [copyCalls, List.map_map, List.forall₂_map_left_iff, List.forall₂_map_right_iff,
      List.forall₂_same]
    exact fun dest _ => (truthful.copy messageId dest).discard
  · rw [flagCalls]
    split
    · exact .cons (truthful.flag messageId _) .nil
    · exact .nil

theorem callsAfterAppend_either (truthful : Truthful ctx.messageStore view) (primary : Text)
    {store : σ} {holding : Holding} (held : view store messageId = some holding) :
    (∃ after holding', holding' = (creationSteps ctx primary object).foldl
        (fun holding step => step holding) holding ∧
      callsAfterAppend ctx messageId primary object store = (.ok (some holding'.mail), after) ∧
      view after = Function.update (view store) messageId (some holding')) ∨
    ∃ text after holding', callsAfterAppend ctx messageId primary object store =
        (.error text, after) ∧ view after messageId = some holding' := by
  rw [callsAfterAppend]
  rcases inSequence_changes (calls_answer truthful primary) store with
    ⟨middle, ran, all⟩ | ⟨text, after, made, ran, among, left⟩
  · rw [changed_held held] at all
    have there : view middle messageId = some ((creationSteps ctx primary object).foldl
        (fun holding step => step holding) holding) := by
      rw [all, Function.update_self]
    rw [Effect.bind_ok ran]
    rcases (truthful.get messageId).either middle with
      ⟨text, after, refused, kept⟩ | ⟨found, after, got, same, kept⟩
    · exact .inr ⟨text, after, _, refused, kept ▸ there⟩
    · rw [there, Option.map_some] at same
      subst same
      exact .inl ⟨after, _, rfl, got, kept.trans all⟩
  · obtain ⟨steps, rfl⟩ : ∃ steps, made = changeSteps messageId steps := by
      rw [List.prefix_iff_eq_take.mp among, changeSteps, ← List.map_take]
      exact ⟨_, rfl⟩
    rw [changed_held held] at left
    have there : view after messageId =
        some (steps.foldl (fun holding step => step holding) holding) := by
      rw [left, Function.update_self]
    exact .inr ⟨text, after, _, Effect.bind_error ran, there⟩

theorem buildMail_made (object : EmailSetObject) (world : JmapWorld σ) :
    ∃ mail draws moment,
      buildMailFromSetObject ctx object world = (.ok mail, { world with draws }) ∧
      (∀ sentAt, object.sentAt = some sentAt → moment = sentAt) ∧
      mail.message = setObjectMessage ctx object moment := by
  rw [buildMailFromSetObject]
  cases object.sentAt with
  | none => exact ⟨_, _, ctx.now world.draws, rfl, by simp, rfl⟩
  | some sentAt => exact ⟨_, _, sentAt, rfl, fun other same => Option.some.inj same, rfl⟩

theorem receivedAt_runs (mail : Mail) (world : JmapWorld σ) :
    ∃ moment draws, receivedAt ctx mail world = (.ok moment, { world with draws }) := by
  rw [receivedAt]
  cases (parseReceivedHeader ctx mail.message.headers).or (parseDateHeader ctx
      (mail.message.headers.getFirst ctx.toCaseMapping "date".toList)) with
  | some moment => exact ⟨_, world.draws, rfl⟩
  | none => exact ⟨_, _, rfl⟩

theorem holdsKeyword_asked (keywords : List (Text × Bool)) (keyword : Text) :
    (keywordsToFlags ctx keywords).holdsKeyword keyword =
      decide (keyword ∈ (keywords.filter Prod.snd).map fun entry =>
        ctx.toLowercase entry.1) := by
  rw [keywordsToFlags_eq, holdsKeyword_setTold, holdsKeyword_new]
  have told : ∀ (entries : List (Text × Bool)) (held : Bool),
      (entries.map fun entry => (entry.1, true)).foldl (fun held entry =>
          if ctx.toLowercase entry.1 = keyword then entry.2 else held) held =
        (held || decide (keyword ∈ entries.map fun entry => ctx.toLowercase entry.1)) := by
    intro entries
    induction entries with
    | nil => simp
    | cons entry others ih =>
      intro held
      rw [List.map_cons, List.foldl_cons, ih, List.map_cons]
      by_cases same : ctx.toLowercase entry.1 = keyword
      · simp [same]
      · have other : keyword ∈ ctx.toLowercase entry.1 ::
            others.map (fun entry => ctx.toLowercase entry.1) ↔
              keyword ∈ others.map fun entry => ctx.toLowercase entry.1 := by
          simp [Ne.symm same]
        rw [if_neg same, decide_eq_decide.mpr other]
  rw [told, Bool.false_or]

theorem mailboxes_asked {primary : Text × Bool} {uuid : BitVec 128}
    (found : object.mailboxIds.find? Prod.snd = some primary)
    (read : parseUuid primary.1 = some uuid) (mailbox : MailboxId) :
    (decide (mailbox = ⟨uuid⟩) ||
        decide (mailbox ∈ copyTargets primary.1 object.mailboxIds)) =
      decide (some mailbox.uuid ∈ (trueIds object).map parseUuid) := by
  have chosen : primary ∈ object.mailboxIds ∧ primary.2 = true :=
    ⟨List.mem_of_find?_eq_some found, List.find?_some found⟩
  rw [Bool.eq_iff_iff, Bool.or_eq_true, decide_eq_true_eq, decide_eq_true_eq, decide_eq_true_eq,
    trueIds, List.map_map, List.mem_map, copyTargets, List.mem_filterMap]
  constructor
  · rintro (rfl | ⟨entry, member, copied⟩)
    · exact ⟨primary, List.mem_filter.mpr chosen, read⟩
    · split at copied
      · rename_i asked
        obtain ⟨other, parsed, rfl⟩ := Option.map_eq_some_iff.mp copied
        exact ⟨entry, List.mem_filter.mpr ⟨member, asked.1⟩, parsed⟩
      · cases copied
  · rintro ⟨entry, among, parsed⟩
    obtain ⟨member, active⟩ := List.mem_filter.mp among
    have parsed : parseUuid entry.1 = some mailbox.uuid := parsed
    by_cases same : entry.1 = primary.1
    · rw [same, read] at parsed
      cases parsed
      exact .inl rfl
    · refine .inr ⟨entry, member, ?_⟩
      rw [if_pos ⟨active, same⟩, parsed, Option.map_some]

def OnlyPanics {α : Type} (result : Except JmapFault α) : Prop :=
  ∀ fault, result = .error fault → fault = .panicked

theorem OnlyPanics.bind {α β : Type} {first : Except JmapFault α} {next : α → Except JmapFault β}
    (panics : OnlyPanics first) (others : ∀ value, OnlyPanics (next value)) :
    OnlyPanics (first >>= next) := by
  intro fault failed
  cases first with
  | error =>
    cases failed
    exact panics fault rfl
  | ok value => exact others value fault failed

theorem onlyPanics_ok {α : Type} (value : α) : OnlyPanics (.ok value : Except JmapFault α) := by
  intro fault failed
  cases failed

theorem onlyPanics_panicked {α : Type} :
    OnlyPanics (.error .panicked : Except JmapFault α) := by
  intro fault failed
  cases failed
  rfl

theorem onlyPanics_mapM {α β : Type} {each : α → Except JmapFault β}
    (panics : ∀ value, OnlyPanics (each value)) (values : List α) :
    OnlyPanics (values.mapM each) := by
  induction values with
  | nil => exact onlyPanics_ok []
  | cons value values ih =>
    rw [List.mapM_cons]
    exact (panics value).bind fun made => ih.bind fun rest => onlyPanics_ok (made :: rest)

theorem onlyPanics_address (address : Text) : OnlyPanics (parseEmailAddress? address) := by
  rw [parseEmailAddress?]
  dsimp only
  split
  · exact onlyPanics_ok _
  · split
    · split
      · exact onlyPanics_panicked
      · exact onlyPanics_ok _
    · exact onlyPanics_ok _

theorem onlyPanics_addresses (headers : HeaderMap) (name : Text) :
    OnlyPanics (parseEmailAddresses ctx headers name) := by
  rw [parseEmailAddresses]
  split
  · exact onlyPanics_ok none
  · exact (onlyPanics_mapM onlyPanics_address _).bind fun addresses => onlyPanics_ok _

theorem onlyPanics_cut (left : Nat) (text : Text) : OnlyPanics (cutOctets left text) := by
  fun_induction cutOctets left text with
  | case1 => exact onlyPanics_ok []
  | case2 => exact onlyPanics_ok []
  | case3 left character rest _ fits ih => exact ih.bind fun others => onlyPanics_ok _
  | case4 => exact onlyPanics_panicked

theorem onlyPanics_preview (message : MimeMessage) : OnlyPanics (extractPreview message) := by
  rw [extractPreview]
  split
  · exact onlyPanics_ok none
  · exact (onlyPanics_cut _ _).bind fun preview => onlyPanics_ok _

theorem onlyPanics_convert (id : Text) (mail : Mail) (conversion : EmailConversionContext) :
    OnlyPanics (convertMailToEmail ctx id mail conversion) := by
  have addresses := @onlyPanics_addresses σ ctx mail.message.headers
  rw [convertMailToEmail]
  exact (addresses _).bind fun _ => (addresses _).bind fun _ => (addresses _).bind fun _ =>
    (addresses _).bind fun _ => (addresses _).bind fun _ => (addresses _).bind fun _ =>
      (onlyPanics_preview _).bind fun _ => onlyPanics_ok _

theorem creation_made {primary : Text × Bool} {uuid : BitVec 128} {mail : Mail}
    (found : object.mailboxIds.find? Prod.snd = some primary)
    (read : parseUuid primary.1 = some uuid) :
    (creationSteps ctx primary.1 object).foldl (fun holding step => step holding)
        ⟨mail, fun id => decide (id = ⟨uuid⟩), .new⟩ =
      ⟨mail, fun mailbox => decide (some mailbox.uuid ∈ (trueIds object).map parseUuid),
        keywordsToFlags ctx (object.keywords.getD [])⟩ := by
  have filed := funext (mailboxes_asked found read)
  rw [creationSteps, List.foldl_append, steps_filed]
  by_cases some : object.keywords.getD [] ≠ []
  · rw [if_pos some, List.foldl_cons, List.foldl_nil, Holding.filedAlso]
    exact congrArg (Holding.mk mail · (keywordsToFlags ctx (object.keywords.getD []))) filed
  · rw [if_neg some, List.foldl_nil, Holding.filedAlso, not_not.mp some]
    exact congrArg (Holding.mk mail · .new) filed

theorem createFits_unfiled (unfiled : object.Unfiled) (world : JmapWorld σ) :
    CreateFits ctx object world := by
  intro primary mailbox mail draws metadata store found read
  cases (unfiled primary found).symm.trans read

theorem createFits_filed {primary : Text × Bool} {mailbox : MailboxId} {mail : Mail} {draws : Nat}
    {world : JmapWorld σ} (found : object.mailboxIds.find? Prod.snd = some primary)
    (read : parseUuid primary.1 = some mailbox.uuid)
    (built : buildMailFromSetObject ctx object world = (.ok mail, { world with draws })) :
    CreateFits ctx object world ↔ ∀ metadata store,
      ctx.messageStore.appendMessage mailbox mail world.store = (.ok metadata, store) →
      (∀ id ∈ trueIds object, parseUuid id ≠ none) ∧
        Passes (callsAfterAppend ctx metadata.messageId primary.1 object) store := by
  constructor
  · intro fits metadata store
    exact fits primary mailbox mail draws metadata store found read built
  · intro fits other box own drawn metadata store foundOther readOther builtOther
    cases found.symm.trans foundOther
    cases built.symm.trans builtOther
    have same : mailbox = box := congrArg MailboxId.mk (Option.some.inj (read.symm.trans readOther))
    subst same
    exact fits metadata store

/-- A creation is whole exactly when, once the message is appended, every mailbox it asks for
can be read and no later call is refused. -/
theorem create_whole_iff (truthful : Truthful ctx.messageStore view)
    {turn : SetTurn σ EmailSetObject Email}
    (ran : handleEmailCreate ctx turn.value turn.before = (turn.outcome, turn.after))
    (calm : turn.outcome ≠ .error .panicked) :
    turn.Whole view (fun _ => CreateEffect ctx) ↔ CreateFits ctx turn.value turn.before := by
  obtain ⟨key, object, world, outcome, last⟩ := turn
  dsimp only at ran calm ⊢
  by_cases unfiled : object.Unfiled
  · obtain ⟨fault, shape, -⟩ := @handleEmailCreate_unfiled σ ctx object unfiled
    rw [shape] at ran
    cases ran
    exact iff_of_true ((SetTurn.whole_error rfl).mpr rfl) (createFits_unfiled unfiled world)
  obtain ⟨primary, found, unread⟩ : ∃ primary, object.mailboxIds.find? Prod.snd = some primary ∧
      parseUuid primary.1 ≠ none := by
    simpa only [EmailSetObject.Unfiled, not_forall, exists_prop] using unfiled
  obtain ⟨uuid, read⟩ := Option.ne_none_iff_exists'.mp unread
  obtain ⟨mail, draws, moment, built, asked, content⟩ := @buildMail_made σ ctx object world
  rw [@createFits_filed σ ctx object primary ⟨uuid⟩ mail draws world found read built]
  rw [handleEmailCreate_eq found read, Effect.bind_ok built] at ran
  rcases stored_either (truthful.append ⟨uuid⟩ mail) { world with draws } with
    ⟨text, after, refused, stopped, kept⟩ | ⟨metadata, store, appended, went, fresh, placed⟩
  · -- the append is refused
    rw [Effect.bind_error stopped] at ran
    cases ran
    refine iff_of_true ((SetTurn.whole_error rfl).mpr kept) ?_
    intro metadata store appended
    cases refused.symm.trans appended
  have there : view store metadata.messageId =
      some ⟨mail, fun id => decide (id = ⟨uuid⟩), .new⟩ := by
    rw [placed, Function.update_self]
  rw [Effect.bind_ok went] at ran
  rcases @callsAfterAppend_either σ ctx object _ view truthful primary.1 _ _ there with
    ⟨after, holding, made, passed, left⟩ | ⟨text, after, holding, refused, left⟩
  · -- every later call is made
    rw [creation_made found read] at made
    subst made
    rw [Effect.bind_ok (stored_ok passed)] at ran
    obtain ⟨received, drawn, told⟩ := @receivedAt_runs σ ctx mail ⟨after, draws⟩
    dsimp only at ran
    rw [Effect.bind_ok told] at ran
    cases shown : convertMailToEmail ctx metadata.messageId.display mail
        { blobId := ctx.computeBlobId (encodeUtf8 metadata.messageId.display),
          receivedAt := received, mailboxIds := object.mailboxIds,
          keywords := object.keywords.getD [], threadId := ctx.assignedThread metadata } with
    | error fault =>
      rw [shown] at ran
      cases ran
      exact absurd (congrArg Except.error (onlyPanics_convert _ _ _ fault shown)) calm
    | ok email =>
      rw [shown] at ran
      cases ran
      rw [SetTurn.whole_ok rfl]
      dsimp only
      rw [left, placed, Function.update_idem]
      constructor
      · intro effect metadata' store' appended'
        cases appended.symm.trans appended'
        exact ⟨effect.named, _, _, passed⟩
      · intro fits
        exact ⟨(fits metadata store appended).1, metadata.messageId, mail, _, moment, fresh, asked,
          content, holdsKeyword_asked _, rfl⟩
  · -- a later call is refused, and the message stays
    rw [Effect.bind_error (stored_error refused)] at ran
    cases ran
    refine iff_of_false ?_ ?_
    · intro whole
      have kept := congrFun ((SetTurn.whole_error rfl).mp whole) metadata.messageId
      rw [show view after metadata.messageId = _ from left, fresh] at kept
      cases kept
    · intro fits
      obtain ⟨value, last, passed⟩ := (fits metadata store appended).2
      cases refused.symm.trans passed

end Create

end Rusmes
