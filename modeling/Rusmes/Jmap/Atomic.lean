import Rusmes.Jmap.Creation
import Rusmes.Jmap.Exposed
import Rusmes.Jmap.Revision

/-!
Email/set over a store whose calls may fail, object by object: what its answer says of each
key against what became of the store in the turn of that key.
-/

namespace Rusmes

open Effect WireText

section Destroy

variable {σ : Type} (ctx : JmapContext σ) {view : σ → Holdings}

def DestroyEffect (id : Text) (before after : Holdings) : Prop :=
  ∃ messageId holding, parseUuid id = some messageId.uuid ∧ before messageId = some holding ∧
    after = Function.update before messageId none

def Destroys (view : σ → Holdings) (id : Text) (world : JmapWorld σ) : Prop :=
  ∃ messageId holding, parseUuid id = some messageId.uuid ∧
    view world.store messageId = some holding ∧
    Passes (ctx.messageStore.getMessage messageId >>= fun _ =>
      ctx.messageStore.deleteMessages [messageId]) world.store

variable {ctx}

theorem destroy_whole (truthful : Truthful ctx.messageStore view) {turn : SetTurn σ Unit Unit}
    (ran : handleEmailDestroy ctx turn.key turn.before = (turn.outcome, turn.after)) :
    turn.Whole view (fun id _ => DestroyEffect id) ∧
      (turn.succeeds = true ↔ Destroys ctx view turn.key turn.before) := by
  obtain ⟨id, _, world, outcome, last⟩ := turn
  dsimp only at ran ⊢
  cases read : parseUuid id with
  | none =>
    obtain ⟨fault, shape, -⟩ := @handleEmailDestroy_unnamed σ ctx id read
    rw [shape] at ran
    cases ran
    refine ⟨(SetTurn.whole_error rfl).mpr rfl, iff_of_false Bool.false_ne_true ?_⟩
    rintro ⟨messageId, holding, other, -⟩
    cases read.symm.trans other
  | some uuid =>
  let messageId : MessageId := ⟨uuid⟩
  have named : ∀ other : MessageId, parseUuid id = some other.uuid → messageId = other :=
    fun other same => congrArg MessageId.mk (Option.some.inj (read.symm.trans same))
  rw [handleEmailDestroy, parseMessageId, read] at ran
  change (requireMessage ctx id messageId >>= fun _ =>
    stored (ctx.messageStore.deleteMessages [messageId])) world = _ at ran
  rcases requireMessage_answers truthful id messageId world with
    ⟨fault, after, missing, same, absent⟩ | ⟨holding, after, held, got, found, same⟩
  · rw [Effect.bind_error missing] at ran
    cases ran
    refine ⟨(SetTurn.whole_error rfl).mpr same, iff_of_false Bool.false_ne_true ?_⟩
    rintro ⟨other, holding, readOther, held, value, last, passed⟩
    cases named other readOther
    obtain ⟨found, middle, got, -⟩ := Effect.bind_eq_ok.mp passed
    cases held.symm.trans (absent ⟨found, middle, got⟩)
  rw [Effect.bind_ok found] at ran
  have heldAfter : view after messageId = some holding := same ▸ held
  rcases (truthful.delete messageId).either after with
    ⟨text, final, refused, kept⟩ | ⟨_, final, deleted, gone⟩
  · have stopped := @stored_error σ Unit _ { world with store := after } text final refused
    cases stopped.symm.trans ran
    refine ⟨(SetTurn.whole_error rfl).mpr (kept.trans same), iff_of_false Bool.false_ne_true ?_⟩
    rintro ⟨other, own, readOther, -, value, last, passed⟩
    cases named other readOther
    rw [Effect.bind_ok got] at passed
    cases refused.symm.trans passed
  · have went := @stored_ok σ Unit _ { world with store := after } () final deleted
    cases went.symm.trans ran
    refine ⟨(SetTurn.whole_ok rfl).mpr ⟨messageId, holding, read, held, ?_⟩, iff_of_true rfl ?_⟩
    · rw [show view final = _ from gone, same]
    · exact ⟨messageId, holding, read, held, _, final, (Effect.bind_ok got).trans deleted⟩

end Destroy

section Request

variable {σ : Type} (ctx : JmapContext σ) (request : EmailSetRequest) (world : JmapWorld σ)

def createTurns : List (SetTurn σ EmailSetObject Email) :=
  setTurns (fun _ object => handleEmailCreate ctx object) (request.create.getD [])
    { world with draws := world.draws + 1 }

def afterCreates : JmapWorld σ :=
  leftBy (fun _ object => handleEmailCreate ctx object) (request.create.getD [])
    { world with draws := world.draws + 1 }

def updateTurns : List (SetTurn σ JsonValue Unit) :=
  setTurns (handleEmailUpdate ctx) (request.update.getD []) (afterCreates ctx request world)

def afterUpdates : JmapWorld σ :=
  leftBy (handleEmailUpdate ctx) (request.update.getD []) (afterCreates ctx request world)

def destroyTurns : List (SetTurn σ Unit Unit) :=
  setTurns (fun id _ => handleEmailDestroy ctx id) ((request.destroy.getD []).map (·, ()))
    (afterUpdates ctx request world)

/-- Every object of the request is handled as a whole, and each key is reported once. -/
structure SetAtomic (view : σ → Holdings) (response : EmailSetResponse) : Prop where
  creates : AtomicEach view (fun _ => CreateEffect ctx) (createTurns ctx request world)
    ((response.created.getD []).map Prod.fst) ((response.notCreated.getD []).map Prod.fst)
  updates : AtomicEach view (UpdateEffect ctx) (updateTurns ctx request world)
    ((response.updated.getD []).map Prod.fst) ((response.notUpdated.getD []).map Prod.fst)
  destroys : AtomicEach view (fun id _ => DestroyEffect id) (destroyTurns ctx request world)
    (response.destroyed.getD []) ((response.notDestroyed.getD []).map Prod.fst)

/-- What each object meets when its turn comes leaves it no way to be half done, and no
message that is destroyed is listed again. -/
structure SetFits (view : σ → Holdings) : Prop where
  creates : ∀ turn ∈ createTurns ctx request world, CreateFits ctx turn.value turn.before
  updates : ∀ turn ∈ updateTurns ctx request world,
    UpdateFits ctx view turn.key turn.value turn.before
  destroys : ∀ turn ∈ destroyTurns ctx request world, Destroys ctx view turn.key turn.before →
    (request.destroy.getD []).count turn.key = 1

variable {ctx request world} {view : σ → Holdings} {principal : Principal}
  {response : EmailSetResponse} {after : JmapWorld σ}

theorem emailSet_turns
    (answered : emailSet ctx request principal world = (.ok response, after)) :
    ((∀ turn ∈ createTurns ctx request world, turn.outcome ≠ .error .panicked) ∧
      (response.created.getD []).map Prod.fst = doneKeys (createTurns ctx request world) ∧
      (response.notCreated.getD []).map Prod.fst = failedKeys (createTurns ctx request world)) ∧
    ((response.updated.getD []).map Prod.fst = doneKeys (updateTurns ctx request world) ∧
      (response.notUpdated.getD []).map Prod.fst = failedKeys (updateTurns ctx request world)) ∧
    response.destroyed.getD [] = doneKeys (destroyTurns ctx request world) ∧
      (response.notDestroyed.getD []).map Prod.fst = (keyed (notDone classifyDestroyError
        (outcomesOf (destroyTurns ctx request world)))).map Prod.fst := by
  obtain ⟨creates, updates, destroys, first, second, third, ranCreates, ranUpdates, ranDestroys,
    notCreated, updated, destroyed, created, notUpdated, notDestroyed⟩ := emailSet_answered answered
  obtain ⟨rfl, rfl, calm⟩ := eachEntry_turns ranCreates
  obtain ⟨rfl, rfl, -⟩ := eachEntry_turns ranUpdates
  obtain ⟨rfl, rfl, -⟩ := eachEntry_turns ranDestroys
  rw [created, notCreated, updated, notUpdated, destroyed, notDestroyed, getD_unlessEmpty,
    getD_unlessEmpty, getD_unlessEmpty, getD_unlessEmpty, getD_unlessEmpty, getD_unlessEmpty,
    List.map_map]
  exact ⟨⟨calm, succeeded_keys _, notDone_keys _ _⟩, ⟨succeeded_keys _, notDone_keys _ _⟩,
    succeeded_keys _, rfl⟩

/-- Email/set is atomic in each object exactly when no creation loses a call after its append
or asks for a mailbox that cannot be read, every update is met by answers that let it be
applied or fail untouched, and no message that is destroyed is listed again. -/
theorem emailSet_atomic_iff (truthful : Truthful ctx.messageStore view)
    (creations : ((request.create.getD []).map Prod.fst).Nodup)
    (updates : ((request.update.getD []).map Prod.fst).Nodup)
    (answered : emailSet ctx request principal world = (.ok response, after)) :
    SetAtomic ctx request world view response ↔ SetFits ctx request world view := by
  obtain ⟨⟨calm, created, notCreated⟩, ⟨updated, notUpdated⟩, destroyed, notDestroyed⟩ :=
    emailSet_turns answered
  have createKeys : ((createTurns ctx request world).map SetTurn.key).Nodup := by
    rw [createTurns, setTurns_keys]
    exact creations
  have updateKeys : ((updateTurns ctx request world).map SetTurn.key).Nodup := by
    rw [updateTurns, setTurns_keys]
    exact updates
  have destroyKeys : (destroyTurns ctx request world).map SetTurn.key =
      request.destroy.getD [] := by
    rw [destroyTurns, setTurns_keys, List.map_map]
    exact List.map_id' _
  have eachCreate : AtomicEach view (fun _ => CreateEffect ctx) (createTurns ctx request world)
      ((response.created.getD []).map Prod.fst) ((response.notCreated.getD []).map Prod.fst) ↔
      ∀ turn ∈ createTurns ctx request world, CreateFits ctx turn.value turn.before := by
    rw [created, notCreated, atomicEach_distinct_iff createKeys]
    refine forall₂_congr fun turn member => ?_
    exact create_whole_iff truthful (setTurns_ran member) (calm turn member)
  have eachUpdate : AtomicEach view (UpdateEffect ctx) (updateTurns ctx request world)
      ((response.updated.getD []).map Prod.fst) ((response.notUpdated.getD []).map Prod.fst) ↔
      ∀ turn ∈ updateTurns ctx request world,
        UpdateFits ctx view turn.key turn.value turn.before := by
    rw [updated, notUpdated, atomicEach_distinct_iff updateKeys]
    exact forall₂_congr fun turn member => update_whole_iff truthful (setTurns_ran member)
  have eachDestroy : AtomicEach view (fun id _ => DestroyEffect id)
      (destroyTurns ctx request world) (response.destroyed.getD [])
      ((response.notDestroyed.getD []).map Prod.fst) ↔
      ∀ turn ∈ destroyTurns ctx request world, Destroys ctx view turn.key turn.before →
        (request.destroy.getD []).count turn.key = 1 := by
    rw [destroyed, notDestroyed, atomicEach_iff (keyed_keys_nodup _) fun key => by
      rw [mem_keyed_keys, notDone_keys], destroyKeys]
    refine forall₂_congr fun turn member => ?_
    obtain ⟨whole, settles⟩ := destroy_whole truthful (setTurns_ran member)
    rw [settles]
    exact and_iff_right whole
  constructor
  · rintro ⟨creates, revisions, destroys⟩
    exact ⟨eachCreate.mp creates, eachUpdate.mp revisions, eachDestroy.mp destroys⟩
  · rintro ⟨creates, revisions, destroys⟩
    exact ⟨eachCreate.mpr creates, eachUpdate.mpr revisions, eachDestroy.mpr destroys⟩

end Request

/-! A store in memory whose calls are refused as a list of answers says. -/

structure Postbox where
  letters : Table MessageId Holding
  refusals : List Bool

namespace Postbox

def view (box : Postbox) : Holdings := fun messageId => box.letters.lookup messageId

def put (messageId : MessageId) (holding : Option Holding) (box : Postbox) : Postbox :=
  match holding with
  | some holding => { box with letters := box.letters.insert messageId holding }
  | none => { box with letters := box.letters.erase messageId }

theorem view_put (messageId : MessageId) (holding : Option Holding) (box : Postbox) :
    (box.put messageId holding).view = Function.update box.view messageId holding := by
  funext other
  cases holding with
  | some holding =>
    by_cases same : other = messageId
    · subst same
      rw [Function.update_self]
      exact AList.lookup_insert box.letters
    · rw [Function.update_of_ne same]
      exact AList.lookup_insert_ne same
  | none =>
    by_cases same : other = messageId
    · subst same
      rw [Function.update_self]
      exact AList.lookup_erase other box.letters
    · rw [Function.update_of_ne same]
      exact AList.lookup_erase_ne same

def call {α : Type} (act : Postbox → Except Text α × Postbox) : Effect Text Postbox α :=
  fun box =>
    if box.refusals.head? = some true then
      (.error "refused".toList, { box with refusals := box.refusals.tail })
    else act { box with refusals := box.refusals.tail }

def change (messageIds : List MessageId) (make : Holding → Holding) (box : Postbox) : Postbox :=
  messageIds.foldl (fun box id => box.put id ((box.view id).map make)) box

def metadata (mailbox : MailboxId) (messageId : MessageId) (holding : Holding) :
    MessageMetadata :=
  ⟨messageId, mailbox, 1, holding.flags, holding.mail.size⟩

def listing (mailbox : MailboxId) (box : Postbox) : List MessageMetadata :=
  (box.letters.entries.filter fun entry => entry.2.filed mailbox).map fun entry =>
    metadata mailbox entry.1 entry.2

def store : MessageStore Postbox where
  appendMessage mailbox mail := call fun box =>
    if (box.view mail.messageId).isSome then (.error "taken".toList, box)
    else
      let holding : Holding := ⟨mail, fun id => decide (id = mailbox), .new⟩
      (.ok (metadata mailbox mail.messageId holding), box.put mail.messageId (some holding))
  getMessage messageId := call fun box => (.ok ((box.view messageId).map Holding.mail), box)
  deleteMessages ids := call fun box => (.ok (), ids.foldl (fun box id => box.put id none) box)
  setFlags ids flags := call fun box => (.ok (), box.change ids ({ · with flags }))
  getMessageFlags messageId := call fun box =>
    (.ok ((box.view messageId).map Holding.flags), box)
  search mailbox _ := call fun box => (.ok ((box.listing mailbox).map (·.messageId)), box)
  copyMessages ids dest := call fun box =>
    let after := box.change ids (·.filedAlso [dest])
    (.ok ((after.listing dest).filter (·.messageId ∈ ids)), after)
  getMailboxMessages mailbox := call fun box => (.ok (box.listing mailbox), box)

theorem answers_call {α : Type} {act : Postbox → Except Text α × Postbox}
    {meaning : Holdings → α → Holdings → Prop}
    (made : ∀ box, (∀ text after, act box = (.error text, after) → after.view = box.view) ∧
      ∀ value after, act box = (.ok value, after) → meaning box.view value after.view) :
    Answers view (call act) meaning := by
  constructor
  · intro box text after ran
    rw [call] at ran
    split at ran
    · cases ran
      rfl
    · exact (made { box with refusals := box.refusals.tail }).1 text after ran
  · intro box value after ran
    rw [call] at ran
    split at ran
    · cases ran
    · exact (made { box with refusals := box.refusals.tail }).2 value after ran

theorem view_change (messageId : MessageId) (make : Holding → Holding) (box : Postbox) :
    (box.change [messageId] make).view = box.view.change messageId make :=
  view_put messageId _ box

theorem mem_listing {mailbox : MailboxId} {box : Postbox} {entry : MessageMetadata} :
    entry ∈ box.listing mailbox ↔ ∃ messageId holding, box.view messageId = some holding ∧
      holding.filed mailbox = true ∧ entry = metadata mailbox messageId holding := by
  rw [listing, List.mem_map]
  constructor
  · rintro ⟨⟨messageId, holding⟩, among, rfl⟩
    obtain ⟨member, filed⟩ := List.mem_filter.mp among
    exact ⟨messageId, holding, AList.mem_lookup_iff.mpr member, filed, rfl⟩
  · rintro ⟨messageId, holding, held, filed, rfl⟩
    exact ⟨⟨messageId, holding⟩,
      List.mem_filter.mpr ⟨AList.mem_lookup_iff.mp held, filed⟩, rfl⟩

theorem truthful : Truthful store view where
  append mailbox mail := by
    dsimp only [store]
    refine answers_call fun box => ⟨fun text after ran => ?_, fun value after ran => ?_⟩
    · split at ran
      · cases ran
        rfl
      · cases ran
    · split at ran
      · cases ran
      · rename_i fresh
        cases ran
        exact ⟨Option.not_isSome_iff_eq_none.mp fresh, view_put _ _ box⟩
  copy messageId dest := by
    dsimp only [store]
    refine answers_call fun box => ⟨fun text after ran => ?_, fun value after ran => ?_⟩
    · cases ran
    · cases ran
      exact view_change messageId _ box
  flag messageId flags := by
    dsimp only [store]
    refine answers_call fun box => ⟨fun text after ran => ?_, fun value after ran => ?_⟩
    · cases ran
    · cases ran
      exact view_change messageId _ box
  get messageId := by
    dsimp only [store]
    refine answers_call fun box => ⟨fun text after ran => ?_, fun value after ran => ?_⟩
    · cases ran
    · cases ran
      exact ⟨rfl, rfl⟩
  list mailbox := by
    dsimp only [store]
    refine answers_call fun box => ⟨fun text after ran => ?_, fun value after ran => ?_⟩
    · cases ran
    · cases ran
      refine ⟨rfl, fun messageId => ?_, fun entry member holding held => ?_⟩
      · constructor
        · rintro ⟨entry, member, rfl⟩
          obtain ⟨messageId, holding, held, filed, rfl⟩ := mem_listing.mp member
          exact ⟨holding, held, filed⟩
        · rintro ⟨holding, held, filed⟩
          exact ⟨_, mem_listing.mpr ⟨messageId, holding, held, filed, rfl⟩, rfl⟩
      · obtain ⟨messageId, own, there, -, rfl⟩ := mem_listing.mp member
        cases there.symm.trans held
        rfl
  delete messageId := by
    dsimp only [store]
    refine answers_call fun box => ⟨fun text after ran => ?_, fun value after ran => ?_⟩
    · cases ran
    · cases ran
      exact view_put messageId none box

end Postbox

def postContext : JmapContext Postbox where
  toCaseMapping := asciiCase
  messageStore := Postbox.store
  getMessageThreadId _ := pure none
  assignedThread _ := none
  mailboxDirectories := pure []
  computeBlobId _ := []
  parseRfcDate _ := none
  formatRfcDate _ := []
  uuidError _ := "invalid".toList
  now draws := draws
  newUuid draws := BitVec.ofNat 128 draws

def flaggedDraft : EmailSetObject where
  mailboxIds := [(MailboxId.display ⟨1⟩, true)]
  keywords := some [("$flagged".toList, true)]
  from_ := none
  to_ := none
  cc := none
  bcc := none
  replyTo := none
  sender := none
  subject := none
  sentAt := none
  inReplyTo := none
  references := none
  messageId := none
  bodyValues := none
  textBody := none

def draftRequest : EmailSetRequest :=
  ⟨"account-alice".toList, some [("draft".toList, flaggedDraft)], none, none⟩

def emptyWorld (refusals : List Bool) : JmapWorld Postbox := ⟨⟨∅, refusals⟩, 0⟩

def alicePrincipal : Principal := Principal.fromUsername aliceUser.text

/-- With no call refused, the draft is created whole. -/
theorem draft_created : ∃ response after,
    emailSet postContext draftRequest alicePrincipal (emptyWorld []) = (.ok response, after) ∧
      SetAtomic postContext draftRequest (emptyWorld []) Postbox.view response := by
  obtain ⟨response, after, answered⟩ : Passes (emailSet postContext draftRequest alicePrincipal)
      (emptyWorld []) := passes_iff.mpr (by decide +kernel)
  refine ⟨response, after, answered, (emailSet_atomic_iff Postbox.truthful (by decide) (by decide)
    answered).mpr ⟨?_, ?_, ?_⟩⟩
  · intro turn member primary mailbox mail draws metadata store found read built appended
    cases List.mem_singleton.mp member
    cases found
    cases built
    have here : mailbox = ⟨1⟩ :=
      congrArg MailboxId.mk (Option.some.inj (read.symm.trans (parseUuid_display ⟨1⟩)))
    subst here
    cases appended
    exact ⟨by decide +kernel, passes_iff.mpr (by decide +kernel)⟩
  · intro turn member
    cases member
  · intro turn member
    cases member

/-- The flags are refused: the creation is listed as failed, and its message stays. -/
theorem draft_left_behind : Truthful postContext.messageStore Postbox.view ∧
    ∃ response after,
      emailSet postContext draftRequest alicePrincipal (emptyWorld [false, true]) = (.ok response, after) ∧
      ¬SetAtomic postContext draftRequest (emptyWorld [false, true]) Postbox.view response := by
  obtain ⟨response, after, answered⟩ : Passes (emailSet postContext draftRequest alicePrincipal)
      (emptyWorld [false, true]) := passes_iff.mpr (by decide +kernel)
  refine ⟨Postbox.truthful, response, after, answered, fun atomic => ?_⟩
  let turns := createTurns postContext draftRequest (emptyWorld [false, true])
  have failed : "draft".toList ∈ failedKeys turns := by decide +kernel
  have left : turns.all (fun turn => (turn.before.store.view ⟨3⟩).isNone &&
      (turn.after.store.view ⟨3⟩).isSome) = true := by decide +kernel
  obtain ⟨turn, member, -, named⟩ := mem_failedKeys.mp failed
  have listed : turn.key ∈ (response.notCreated.getD []).map Prod.fst := by
    rw [(emailSet_turns answered).1.2.2, named]
    exact failed
  have kept := congrFun (atomic.creates.unchanged turn member listed) ⟨3⟩
  have here := List.all_eq_true.mp left turn member
  rw [kept] at here
  cases held : turn.before.store.view ⟨3⟩ with
  | none =>
    rw [held] at here
    cases here
  | some holding =>
    rw [held] at here
    cases here

end Rusmes
