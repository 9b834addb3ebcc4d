import Rusmes.Jmap.Email
import Rusmes.Storage.Copies
import Rusmes.Storage.Kept
import Rusmes.Storage.Metadata

/-!
Whether the Email methods keep accounts apart. A request's account is compared with the
caller's once; messages and mailboxes are then looked up among those of all users, so only
a request that names none of them is confined to its account.
-/

namespace Rusmes

open WireText

/-- What a server has besides its store. `foreign` lists the directories under the fixed
paths of Email/query when the store is not kept there. -/
structure JmapServer where
  host : Host
  threadOf : MessageId → Filesystem → Option Text
  assignedThread : MessageMetadata → Option Text
  foreign : Option (List Text)
  computeBlobId : Octets → Text
  parseRfcDate : Text → Option Int
  formatRfcDate : Int → Text
  uuidError : Text → Text
  now : Nat → Int
  newUuid : Nat → BitVec 128

def JmapServer.mailboxDirectories (server : JmapServer) : Filesystem.Program (List Text) :=
  match server.foreign with
  | some names => return names
  | none => do
      let moment ← Filesystem.tick
      let store ← Effect.read
      return (server.host.walkMailboxes moment store.folders.keys).map MailboxId.display

def JmapServer.context (server : JmapServer) : JmapContext Filesystem where
  toCaseMapping := server.host.toCaseMapping
  messageStore := Filesystem.messageStore server.host
  getMessageThreadId id := fun store => (.ok (server.threadOf id store), store)
  assignedThread := server.assignedThread
  mailboxDirectories := server.mailboxDirectories
  computeBlobId := server.computeBlobId
  parseRfcDate := server.parseRfcDate
  formatRfcDate := server.formatRfcDate
  uuidError := server.uuidError
  now := server.now
  newUuid := server.newUuid

inductive EmailCall
  | get (request : EmailGetRequest)
  | set (request : EmailSetRequest)
  | query (request : EmailQueryRequest)

inductive EmailAnswer
  | get (response : EmailGetResponse)
  | set (response : EmailSetResponse)
  | query (response : EmailQueryResponse)

def EmailCall.accountId : EmailCall → Text
  | .get request => request.accountId
  | .set request => request.accountId
  | .query request => request.accountId

def EmailCall.run {σ : Type} (ctx : JmapContext σ) (principal : Principal) :
    EmailCall → JmapProgram σ EmailAnswer
  | .get request => .get <$> emailGet ctx request principal
  | .set request => .set <$> emailSet ctx request principal
  | .query request => .query <$> emailQuery ctx request principal

/-- An answer without its state strings, which are read off the clock. -/
def EmailAnswer.timeless : EmailAnswer → EmailAnswer
  | .get response => .get { response with state := [] }
  | .set response => .set { response with oldState := [], newState := [] }
  | .query response => .query response

def Separate (host : Host) (store : Filesystem) : Prop :=
  ∀ first second one other, store.folder first = some one → store.folder second = some other →
    ∀ file ∈ one.files, ∀ copy ∈ other.files, ∀ id, Filesystem.storedId host file = some id →
      Filesystem.storedId host copy = some id → one.mailbox.path.user = other.mailbox.path.user

def DifferOnlyIn (user : Username) (first second : Filesystem) : Prop :=
  second = { first with folders := second.folders } ∧
    ∀ id folder, folder.mailbox.path.user ≠ user →
      (first.folder id = some folder ↔ second.folder id = some folder)

def Untouched (user : Username) (before after : Filesystem) : Prop :=
  ∀ id folder, before.folder id = some folder → folder.mailbox.path.user = user →
    after.Holds id folder.files

/-- A call that leaves the messages of a user alone and whose answer does not tell two
states of that user's mailboxes apart. -/
def EmailCall.IsolatedFrom (server : JmapServer) (principal : Principal) (user : Username)
    (call : EmailCall) : Prop :=
  ∀ world : JmapWorld Filesystem, world.store.Orderly → Separate server.host world.store →
    let answered := call.run server.context principal world
    Untouched user world.store answered.2.store ∧
      ∀ store : Filesystem, store.Orderly → Separate server.host store →
        DifferOnlyIn user world.store store →
          (call.run server.context principal { world with store }).1.map EmailAnswer.timeless =
            answered.1.map EmailAnswer.timeless

def EmailQueryRequest.Blind (request : EmailQueryRequest) : Prop :=
  request.calculateTotal.getD false = false ∧ request.limit = some 0

def EmailSetObject.Unfiled (object : EmailSetObject) : Prop :=
  ∀ entry, object.mailboxIds.find? Prod.snd = some entry → parseUuid entry.1 = none

/-- The call names no message and no mailbox: what stands for one is not an identifier. -/
def EmailCall.NamesNothing (server : JmapServer) : EmailCall → Prop
  | .get request => ∀ id ∈ request.ids.getD [], parseUuid id = none
  | .set request =>
      (∀ entry ∈ request.create.getD [], entry.2.Unfiled) ∧
      (∀ entry ∈ request.update.getD [], parseUuid entry.1 = none) ∧
      ∀ id ∈ request.destroy.getD [], parseUuid id = none
  | .query request =>
      request.Blind ∨
        match request.filter.bind EmailFilterCondition.inMailbox with
        | some id => parseUuid id = none
        | none => ∃ names, server.foreign = some names ∧ ∀ name ∈ names, parseUuid name = none

def StoreFree {σ α : Type} (program : JmapProgram σ α) : Prop :=
  ∀ (world : JmapWorld σ) (store : σ), program { world with store } =
    ((program world).1, { (program world).2 with store })

section StoreFree

variable {σ α β : Type} {ctx : JmapContext σ}

theorem storeFree_pure (value : α) : StoreFree (pure value : JmapProgram σ α) := fun _ _ => rfl

theorem storeFree_fail (fault : JmapFault) : StoreFree (Effect.fail fault : JmapProgram σ α) :=
  fun _ _ => rfl

theorem storeFree_ofExcept (result : Except JmapFault α) :
    StoreFree (Effect.ofExcept result : JmapProgram σ α) := fun _ _ => rfl

theorem storeFree_utcNow : StoreFree (utcNow ctx) := fun _ _ => rfl

theorem storeFree_drawId : StoreFree (drawId ctx) := fun _ _ => rfl

theorem StoreFree.bind {first : JmapProgram σ α} {next : α → JmapProgram σ β}
    (free : StoreFree first) (freeNext : ∀ value, StoreFree (next value)) :
    StoreFree (first >>= next) := by
  intro world store
  have elsewhere := free world store
  rcases ran : first world with ⟨outcome, after⟩
  rw [ran] at elsewhere
  cases outcome with
  | ok value =>
      rw [Effect.bind_ok ran, Effect.bind_ok elsewhere]
      exact freeNext value after store
  | error fault =>
      rw [Effect.bind_error ran, Effect.bind_error elsewhere]

theorem StoreFree.map {program : JmapProgram σ α} (free : StoreFree program) (make : α → β) :
    StoreFree (make <$> program) := by
  rw [map_eq_pure_bind]
  exact free.bind fun value => storeFree_pure (make value)

theorem storeFree_buildMail (object : EmailSetObject) :
    StoreFree (buildMailFromSetObject ctx object) := by
  rw [buildMailFromSetObject]
  refine StoreFree.bind ?_ fun _ => ?_
  · split
    · exact storeFree_pure _
    · exact storeFree_utcNow
  · exact storeFree_drawId.bind fun _ => storeFree_drawId.bind fun _ => storeFree_pure _

theorem StoreFree.store {program : JmapProgram σ α} (free : StoreFree program)
    (world : JmapWorld σ) : (program world).2.store = world.store :=
  congrArg (fun ran => ran.2.store) (free world world.store)

theorem storeFree_ensureAccountOwnership (requested : Text) (principal : Principal) :
    StoreFree (ensureAccountOwnership requested principal : JmapProgram σ Unit) := by
  rw [ensureAccountOwnership]
  split
  · exact storeFree_pure ()
  · exact storeFree_fail _

end StoreFree

/-! Calls that name nothing. -/

section NamesNothing

variable {σ : Type} {ctx : JmapContext σ}

theorem getEmail_unnamed {id : Text} (unread : parseUuid id = none) :
    getEmail ctx id = pure none := by
  rw [getEmail, parseMessageId, unread]

theorem getEmails_unnamed {ids : List Text} (unread : ∀ id ∈ ids, parseUuid id = none) :
    getEmails ctx ids = pure ([], ids) := by
  induction ids with
  | nil => rfl
  | cons id ids ih =>
      rw [getEmails, getEmail_unnamed (unread id List.mem_cons_self), pure_bind,
        ih fun other member => unread other (List.mem_cons_of_mem _ member)]
      rfl

def Refuses {α : Type} (program : JmapProgram σ α) (fault : JmapFault) : Prop :=
  program = Effect.fail fault ∧ fault ≠ .panicked

theorem handleEmailCreate_unfiled {object : EmailSetObject} (unfiled : object.Unfiled) :
    ∃ fault, Refuses (handleEmailCreate ctx object) fault := by
  rw [handleEmailCreate]
  cases found : object.mailboxIds.find? Prod.snd with
  | none => exact ⟨_, rfl, by simp⟩
  | some entry =>
      obtain ⟨primary, active⟩ := entry
      refine ⟨.message ("Invalid mailbox ID: ".toList ++ ctx.uuidError primary), ?_, by simp⟩
      dsimp only
      rw [parseMailboxId, show parseUuid primary = none from unfiled _ found]
      rfl

theorem handleEmailUpdate_unnamed {id : Text} (unread : parseUuid id = none)
    (patch : JsonValue) : ∃ fault, Refuses (handleEmailUpdate ctx id patch) fault := by
  refine ⟨.message ("Invalid message ID: ".toList ++ ctx.uuidError id), ?_, by simp⟩
  rw [handleEmailUpdate, parseMessageId, unread]
  rfl

theorem handleEmailDestroy_unnamed {id : Text} (unread : parseUuid id = none) :
    ∃ fault, Refuses (handleEmailDestroy ctx id) fault := by
  refine ⟨.message ("Invalid message ID: ".toList ++ ctx.uuidError id), ?_, by simp⟩
  rw [handleEmailDestroy, parseMessageId, unread]
  rfl

theorem caught_refused {α : Type} {program : JmapProgram σ α} {fault : JmapFault}
    (refuses : Refuses program fault) : caught program = pure (.error fault) := by
  obtain ⟨rfl, told⟩ := refuses
  funext world
  cases fault with
  | message | notFound | forbidden => rfl
  | panicked => exact absurd rfl told

theorem eachEntry_refused {α β : Type} {handle : Text → α → JmapProgram σ β}
    {refused : List (Text × α)}
    (each : ∀ entry ∈ refused, ∃ fault, Refuses (handle entry.1 entry.2) fault) :
    ∃ failures : List (Text × Except JmapFault β), ∀ rest,
      eachEntry handle (refused ++ rest) = (failures ++ ·) <$> eachEntry handle rest := by
  induction refused with
  | nil =>
      refine ⟨[], fun rest => ?_⟩
      simp
  | cons entry refused ih =>
      obtain ⟨key, value⟩ := entry
      obtain ⟨fault, refuses⟩ := each (key, value) List.mem_cons_self
      obtain ⟨failures, others⟩ := ih fun other member => each other (List.mem_cons_of_mem _ member)
      refine ⟨(key, .error fault) :: failures, fun rest => ?_⟩
      rw [List.cons_append, eachEntry, caught_refused refuses, pure_bind, others]
      simp

theorem eachEntry_first {α β : Type} {handle : Text → α → JmapProgram σ β}
    {named : Text × α → Prop} {entries : List (Text × α)}
    (each : ∀ entry ∈ entries, ¬named entry → ∃ fault, Refuses (handle entry.1 entry.2) fault)
    (there : ∃ entry ∈ entries, named entry) :
    ∃ (failures : List (Text × Except JmapFault β)) (key : Text) (value : α)
      (rest : List (Text × α)), named (key, value) ∧
        eachEntry handle entries = (failures ++ ·) <$> eachEntry handle ((key, value) :: rest) := by
  induction entries with
  | nil =>
      obtain ⟨entry, member, _⟩ := there
      cases member
  | cons entry entries ih =>
      by_cases first : named entry
      · refine ⟨[], entry.1, entry.2, entries, first, ?_⟩
        simp
      · have others : ∃ entry ∈ entries, named entry := by
          obtain ⟨found, member, reached⟩ := there
          rcases List.mem_cons.mp member with rfl | later
          · exact absurd reached first
          · exact ⟨found, later, reached⟩
        obtain ⟨failures, key, value, rest, reached, shape⟩ :=
          ih (fun other member => each other (List.mem_cons_of_mem _ member)) others
        obtain ⟨fault, refuses⟩ := each entry List.mem_cons_self first
        refine ⟨(entry.1, .error fault) :: failures, key, value, rest, reached, ?_⟩
        rw [eachEntry, caught_refused refuses, pure_bind, shape]
        simp

theorem storeFree_eachEntry {α β : Type} {handle : Text → α → JmapProgram σ β}
    {entries : List (Text × α)}
    (each : ∀ entry ∈ entries, ∃ fault, Refuses (handle entry.1 entry.2) fault) :
    StoreFree (eachEntry handle entries) := by
  obtain ⟨failures, shape⟩ := eachEntry_refused each
  have whole := shape []
  rw [List.append_nil] at whole
  rw [whole]
  exact StoreFree.map (storeFree_pure []) _

theorem scanMailboxesDirectory_unnamed {names : List Text}
    (unread : ∀ name ∈ names, parseUuid name = none) :
    scanMailboxesDirectory ctx names = pure [] := by
  induction names with
  | nil => rfl
  | cons name names ih =>
      rw [scanMailboxesDirectory, parseMailboxId, unread name List.mem_cons_self,
        ih fun other member => unread other (List.mem_cons_of_mem _ member)]
      rfl

theorem storeFree_emailGet {request : EmailGetRequest} (principal : Principal)
    (unread : ∀ id ∈ request.ids.getD [], parseUuid id = none) :
    StoreFree (emailGet ctx request principal) := by
  rw [emailGet, getEmails_unnamed unread, pure_bind]
  refine (storeFree_ensureAccountOwnership _ _).bind fun _ => ?_
  exact storeFree_utcNow.bind fun _ => storeFree_pure _

theorem storeFree_creates {entries : List (Text × EmailSetObject)}
    (creates : ∀ entry ∈ entries, entry.2.Unfiled) :
    StoreFree (eachEntry (fun _ object => handleEmailCreate ctx object) entries) :=
  storeFree_eachEntry fun entry member => handleEmailCreate_unfiled (creates entry member)

theorem storeFree_updates {entries : List (Text × JsonValue)}
    (updates : ∀ entry ∈ entries, parseUuid entry.1 = none) :
    StoreFree (eachEntry (handleEmailUpdate ctx) entries) :=
  storeFree_eachEntry fun entry member => handleEmailUpdate_unnamed (updates entry member) entry.2

theorem storeFree_emailSet {request : EmailSetRequest} (principal : Principal)
    (creates : ∀ entry ∈ request.create.getD [], entry.2.Unfiled)
    (updates : ∀ entry ∈ request.update.getD [], parseUuid entry.1 = none)
    (destroys : ∀ id ∈ request.destroy.getD [], parseUuid id = none) :
    StoreFree (emailSet ctx request principal) := by
  refine (storeFree_ensureAccountOwnership _ _).bind fun _ => ?_
  refine storeFree_utcNow.bind fun _ => ?_
  refine (storeFree_creates creates).bind fun _ => ?_
  refine (storeFree_updates updates).bind fun _ => ?_
  refine StoreFree.bind (storeFree_eachEntry ?_) fun _ => ?_
  · intro entry member
    obtain ⟨id, among, rfl⟩ := List.mem_map.mp member
    exact handleEmailDestroy_unnamed (destroys id among)
  exact storeFree_utcNow.bind fun _ => storeFree_pure _

end NamesNothing

def blankPage (request : EmailQueryRequest) : EmailQueryResponse where
  accountId := request.accountId
  queryState := ['1']
  canCalculateChanges := false
  position := (request.position.getD 0).toUInt64.toInt64
  ids := []
  total := if request.calculateTotal.getD false then some 0 else none
  limit := some (request.limit.getD 100)

theorem queryPage_nil (request : EmailQueryRequest) :
    queryPage request [] = .ok (blankPage request) := by
  simp [queryPage, blankPage]

theorem queryPage_blind {request : EmailQueryRequest} (blind : request.Blind) (ids : List Text) :
    queryPage request ids = .ok (blankPage request) := by
  obtain ⟨uncounted, nothing⟩ := blind
  let position := (request.position.getD 0).toUInt64
  have start : (UInt64.ofNat (min position.toNat ids.length)).toNat =
      min position.toNat ids.length := by
    have bound := position.toNat_lt
    rw [UInt64.toNat_ofNat']
    exact Nat.mod_eq_of_lt (by omega)
  have stop : min (UInt64.ofNat (min position.toNat ids.length) + 0).toNat ids.length =
      min position.toNat ids.length := by
    rw [UInt64.add_zero, start]
    omega
  rw [queryPage, nothing, Option.getD_some]
  rw [stop, if_neg (Nat.lt_irrefl _), blankPage, uncounted, nothing]
  simp [position]

theorem queryPage_sees {request : EmailQueryRequest} (sees : ¬request.Blind) :
    ∃ bound, ∀ ids : List Text, bound ≤ ids.length →
      queryPage request ids ≠ .ok (blankPage request) := by
  let position := (request.position.getD 0).toUInt64
  refine ⟨position.toNat + 1, fun ids long same => sees ?_⟩
  have start : min position.toNat ids.length = position.toNat := by omega
  rw [queryPage] at same
  rw [start, UInt64.ofNat_toNat] at same
  split at same
  · cases same
  · have pages := Except.ok.inj same
    have counted := congrArg EmailQueryResponse.total pages
    have shown := congrArg EmailQueryResponse.ids pages
    simp only [blankPage, List.drop_eq_nil_iff, List.length_take] at shown
    have whole : (position + request.limit.getD 100).toNat = position.toNat := by omega
    have none : request.limit.getD 100 = 0 := by
      simpa using UInt64.toNat_inj.mp whole
    constructor
    · by_contra asked
      rw [Bool.not_eq_false] at asked
      simp only [blankPage, asked, if_true, Option.some.injEq] at counted
      omega
    · cases given : request.limit with
      | none =>
          rw [given] at none
          exact absurd none (by decide)
      | some limit =>
          rw [given] at none
          exact congrArg some none

def ReadsOnly {α : Type} (program : JmapProgram Filesystem α) : Prop :=
  ∀ world : JmapWorld Filesystem, world.store.SameDisk (program world).2.store

section ReadsOnly

variable {α β : Type} {server : JmapServer}

theorem StoreFree.reads {program : JmapProgram Filesystem α} (free : StoreFree program) :
    ReadsOnly program := by
  intro world
  rw [free.store]
  exact Filesystem.SameDisk.refl _

theorem reads_pure (value : α) : ReadsOnly (pure value : JmapProgram Filesystem α) :=
  (storeFree_pure value).reads

theorem ReadsOnly.bind {first : JmapProgram Filesystem α} {next : α → JmapProgram Filesystem β}
    (reads : ReadsOnly first) (readsNext : ∀ value, ReadsOnly (next value)) : ReadsOnly (first >>= next) := by
  intro world
  have middle := reads world
  rcases ran : first world with ⟨outcome, after⟩
  rw [ran] at middle
  cases outcome with
  | ok value =>
      rw [Effect.bind_ok ran]
      exact middle.trans (readsNext value after)
  | error fault =>
      rw [Effect.bind_error ran]
      exact middle

theorem reads_stored {call : Effect Text Filesystem α}
    (same : ∀ store : Filesystem, store.SameDisk (call store).2) : ReadsOnly (stored call) :=
  fun world => same world.store

theorem reads_receivedAt (mail : Mail) : ReadsOnly (receivedAt server.context mail) := by
  rw [receivedAt]
  split
  · exact reads_pure _
  · exact storeFree_utcNow.reads

theorem reads_getMessage (id : MessageId) :
    ReadsOnly (stored (server.context.messageStore.getMessage id)) :=
  reads_stored fun store => Filesystem.getMessage_sameDisk server.host id store

theorem reads_getMailboxMessages (id : MailboxId) :
    ReadsOnly (stored (server.context.messageStore.getMailboxMessages id)) :=
  reads_stored fun store => Filesystem.getMailboxMessages_sameDisk server.host id store

theorem reads_listedOr (id : MailboxId) :
    ReadsOnly (stored (Effect.unwrapOr [] (server.context.messageStore.getMailboxMessages id))) :=
  reads_stored fun store => Filesystem.getMailboxMessages_sameDisk server.host id store

theorem reads_getEmail (id : Text) : ReadsOnly (getEmail server.context id) := by
  rw [getEmail]
  split
  · exact reads_pure none
  · refine (reads_getMessage _).bind fun found => ?_
    cases found with
    | none => exact reads_pure none
    | some mail =>
        refine ReadsOnly.bind (reads_stored fun store => ?_) fun _ => ?_
        · exact Filesystem.getMessageFlags_sameDisk server.host _ store
        refine ReadsOnly.bind (reads_stored fun store => Filesystem.SameDisk.refl store) fun _ => ?_
        refine (reads_receivedAt mail).bind fun _ => ?_
        exact (storeFree_ofExcept _).reads.bind fun _ => reads_pure _

theorem reads_scan (names : List Text) :
    ReadsOnly (scanMailboxesDirectory server.context names) := by
  induction names with
  | nil => exact reads_pure _
  | cons name names ih =>
      rw [scanMailboxesDirectory]
      refine ReadsOnly.bind ?_ fun _ => ih.bind fun _ => reads_pure _
      split
      · exact reads_pure _
      · exact reads_listedOr _

theorem mailboxDirectories_sameDisk (store : Filesystem) :
    store.SameDisk (server.mailboxDirectories store).2 := by
  rw [JmapServer.mailboxDirectories]
  cases server.foreign with
  | none => exact ⟨rfl, rfl⟩
  | some names => exact ⟨rfl, rfl⟩

theorem reads_queriedIds (request : EmailQueryRequest) :
    ReadsOnly (queriedIds server.context request) := by
  rw [queriedIds]
  split
  · refine ReadsOnly.bind (reads_stored fun store => ?_) fun names => reads_scan names
    exact mailboxDirectories_sameDisk store
  · split
    · exact reads_pure _
    · exact (reads_getMailboxMessages _).bind fun _ => reads_pure _

theorem reads_emailQuery (request : EmailQueryRequest) (principal : Principal) :
    ReadsOnly (emailQuery server.context request principal) := by
  refine (storeFree_ensureAccountOwnership _ _).reads.bind fun _ => ?_
  exact (reads_queriedIds request).bind fun _ => (storeFree_ofExcept _).reads

end ReadsOnly

section Listings

variable {server : JmapServer}

theorem stored_listed (id : MailboxId) (world : JmapWorld Filesystem) :
    ∃ after, stored (server.context.messageStore.getMailboxMessages id) world =
        (.ok (Filesystem.listed server.host world.store id), after) ∧
      world.store.SameDisk after.store := by
  have lists : server.context.messageStore.getMailboxMessages id world.store = (_, _) :=
    Filesystem.getMailboxMessages_listed server.host id world.store
  refine ⟨{ world with store := (Filesystem.getMailboxMessages server.host id world.store).2 },
    ?_, Filesystem.getMailboxMessages_sameDisk server.host id world.store⟩
  rw [stored, lists]
  rfl

theorem stored_listedOr (id : MailboxId) (world : JmapWorld Filesystem) :
    ∃ after, stored (Effect.unwrapOr []
          (server.context.messageStore.getMailboxMessages id)) world =
        (.ok (Filesystem.listed server.host world.store id), after) ∧
      world.store.SameDisk after.store := by
  have lists : server.context.messageStore.getMailboxMessages id world.store = (_, _) :=
    Filesystem.getMailboxMessages_listed server.host id world.store
  refine ⟨{ world with store := (Filesystem.getMailboxMessages server.host id world.store).2 },
    ?_, Filesystem.getMailboxMessages_sameDisk server.host id world.store⟩
  rw [stored, Effect.unwrapOr_apply, lists]
  rfl

theorem scan_runs (names : List Text) (world : JmapWorld Filesystem) :
    ∃ ids after, scanMailboxesDirectory server.context names world = (.ok ids, after) := by
  induction names generalizing world with
  | nil => exact ⟨[], world, rfl⟩
  | cons name names ih =>
      rw [scanMailboxesDirectory, parseMailboxId]
      cases parseUuid name with
      | none =>
          obtain ⟨ids, after, ran⟩ := ih world
          exact ⟨ids, after, by rw [pure_bind, Effect.bind_ok ran]; rfl⟩
      | some uuid =>
          obtain ⟨middle, listed, -⟩ := @stored_listedOr server ⟨uuid⟩ world
          obtain ⟨ids, after, ran⟩ := ih middle
          exact ⟨_, after, by rw [Effect.bind_ok listed, Effect.bind_ok ran]; rfl⟩

theorem queriedIds_runs (request : EmailQueryRequest) (world : JmapWorld Filesystem) :
    ∃ ids after, queriedIds server.context request world = (.ok ids, after) := by
  rw [queriedIds]
  cases request.filter.bind EmailFilterCondition.inMailbox with
  | none =>
      have named : ∃ names after, server.mailboxDirectories world.store = (.ok names, after) := by
        rw [JmapServer.mailboxDirectories]
        cases server.foreign with
        | none => exact ⟨_, _, rfl⟩
        | some names => exact ⟨_, _, rfl⟩
      obtain ⟨names, middle, found⟩ := named
      have scanned : stored server.context.mailboxDirectories world =
          (.ok names, { world with store := middle }) := by
        rw [stored, show server.context.mailboxDirectories world.store = _ from found]
        rfl
      obtain ⟨ids, after, ran⟩ := @scan_runs server names { world with store := middle }
      exact ⟨ids, after, by rw [getAllMessages]; dsimp only; rw [Effect.bind_ok scanned, ran]⟩
  | some id =>
      dsimp only
      rw [parseMailboxId]
      cases parseUuid id with
      | none => exact ⟨[], world, rfl⟩
      | some uuid =>
          obtain ⟨after, listed, -⟩ := @stored_listed server ⟨uuid⟩ world
          exact ⟨_, after, by dsimp only; rw [Effect.bind_ok listed]; rfl⟩

end Listings

section Isolated

variable {server : JmapServer} {principal : Principal} {user : Username}

theorem untouched_of_sameDisk {before after : Filesystem} (same : before.SameDisk after) :
    Untouched user before after :=
  fun _ folder found _ => same.holds ⟨folder, found, fun _ member => member⟩

theorem ReadsOnly.map {α β : Type} {program : JmapProgram Filesystem α} (reads : ReadsOnly program)
    (make : α → β) : ReadsOnly (make <$> program) := by
  rw [map_eq_pure_bind]
  exact reads.bind fun value => reads_pure (make value)

theorem isolated_of_storeFree {call : EmailCall}
    (free : StoreFree (call.run server.context principal)) :
    call.IsolatedFrom server principal user := by
  intro world _ _
  refine ⟨untouched_of_sameDisk (free.reads world), fun store _ _ _ => ?_⟩
  rw [free world store]

theorem emailQuery_blind {request : EmailQueryRequest} (blind : request.Blind)
    (world : JmapWorld Filesystem) :
    (emailQuery server.context request principal world).1 =
      if principal.ownsAccount request.accountId = true then .ok (blankPage request)
      else .error (.forbidden ⟨request.accountId, principal.accountId⟩) := by
  rw [emailQuery, ensureAccountOwnership]
  split
  · obtain ⟨ids, after, ran⟩ := @queriedIds_runs server request world
    rw [pure_bind, Effect.bind_ok ran, queryPage_blind blind]
    rfl
  · rfl

theorem stored_foreign {names : List Text} (foreign : server.foreign = some names) :
    stored server.context.mailboxDirectories = pure names := by
  have listed : server.context.mailboxDirectories = pure names := by
    change server.mailboxDirectories = pure names
    rw [JmapServer.mailboxDirectories, foreign]
  rw [listed]
  rfl

theorem map_outcome {σ α β : Type} (program : JmapProgram σ α) (make : α → β)
    (world : JmapWorld σ) : ((make <$> program) world).1 = (program world).1.map make := by
  rw [map_eq_pure_bind, Effect.bind_apply]
  rcases program world with ⟨outcome, after⟩
  cases outcome with
  | ok value => rfl
  | error fault => rfl

theorem isolated_of_namesNothing {call : EmailCall} (names : call.NamesNothing server) :
    call.IsolatedFrom server principal user := by
  cases call with
  | get request => exact isolated_of_storeFree ((storeFree_emailGet principal names).map _)
  | set request =>
      obtain ⟨creates, updates, destroys⟩ := names
      exact isolated_of_storeFree ((storeFree_emailSet principal creates updates destroys).map _)
  | query request =>
      rcases names with blind | unnamed
      · intro world _ _
        refine ⟨untouched_of_sameDisk ((reads_emailQuery request principal).map _ world), ?_⟩
        intro store _ _ _
        have answer := fun world => @map_outcome _ _ _
          (emailQuery server.context request principal) EmailAnswer.query world
        simp only [EmailCall.run, answer, emailQuery_blind blind]
      · have nothing : StoreFree (queriedIds server.context request) := by
          rw [queriedIds]
          cases asked : request.filter.bind EmailFilterCondition.inMailbox with
          | none =>
              rw [asked] at unnamed
              obtain ⟨names, foreign, unread⟩ := unnamed
              dsimp only
              rw [getAllMessages, stored_foreign foreign, pure_bind,
                scanMailboxesDirectory_unnamed unread]
              exact storeFree_pure []
          | some id =>
              rw [asked] at unnamed
              dsimp only
              rw [parseMailboxId, show parseUuid id = none from unnamed]
              exact storeFree_pure []
        refine isolated_of_storeFree (StoreFree.map ?_ _)
        refine (storeFree_ensureAccountOwnership _ _).bind fun _ => ?_
        exact nothing.bind fun _ => storeFree_ofExcept _

end Isolated

end Rusmes
