import Rusmes.Jmap.Accounts

/-!
What one user's calls reach of another user's mail: for every call that names anything
there are two stores it tells apart, one without mailboxes and one with a mailbox of the
other user. Which usernames share an account.
-/

namespace Rusmes

open WireText

section Stores

variable {host : Host} {user : Username} {mailbox : MailboxId} {id : MessageId} {count : Nat}
  {quotas : Table Username Quota}

def bareStore (count : Nat) (quotas : Table Username Quota) : Filesystem :=
  { folders := ∅, messages := ∅, quotas, subscriptions := ∅, deliveryCounter := count,
    moment := 0, history := [] }

def heldNote (host : Host) (id : MessageId) (number : Nat) : MailFile where
  name := MaildirFilename.generate host.hostname (host.pid 0) number (host.clock 0)
  data := serializeMessageToBytes (Filesystem.mailOf host 0 id ⟨[], [], ⟨0, 0⟩⟩)
  delivery := ⟨number, 0⟩

def heldFolder (host : Host) (user : Username) (mailbox : MailboxId) (id : MessageId)
    (count : Nat) : Folder where
  mailbox := Mailbox.new mailbox ⟨user, ["INBOX".toList]⟩
  new := []
  cur := (List.range' 1 count).map (heldNote host id)

def heldStore (host : Host) (user : Username) (mailbox : MailboxId) (id : MessageId)
    (count : Nat) (quotas : Table Username Quota) : Filesystem :=
  { bareStore count quotas with
    folders := AList.insert mailbox (heldFolder host user mailbox id count) ∅ }

theorem heldNote_stored (host : Host) (id : MessageId) (number : Nat) :
    Filesystem.storedId host (heldNote host id number) = some id := by
  have copy : Filesystem.CopyOf host ⟨[], [], ⟨0, 0⟩⟩ id (heldNote host id number) := ⟨0, rfl⟩
  exact copy.storedId_eq

theorem heldStore_folder : (heldStore host user mailbox id count quotas).folder mailbox =
    some (heldFolder host user mailbox id count) :=
  AList.lookup_insert _

theorem heldStore_folder_of {other : MailboxId} {folder : Folder}
    (found : (heldStore host user mailbox id count quotas).folder other = some folder) :
    other = mailbox ∧ folder = heldFolder host user mailbox id count := by
  have here : other = mailbox := by
    by_contra elsewhere
    cases (AList.lookup_insert_ne elsewhere).symm.trans found
  subst here
  cases heldStore_folder.symm.trans found
  exact ⟨rfl, rfl⟩

theorem heldStore_orderly : (heldStore host user mailbox id count quotas).Orderly := by
  intro other folder found
  obtain ⟨-, rfl⟩ := heldStore_folder_of found
  refine ⟨?_, ?_, ?_⟩
  · intro file member
    obtain ⟨number, -, rfl⟩ := List.mem_map.mp member
    exact MaildirFilename.numbered_generate _ _ _ _
  · intro file member
    obtain ⟨number, among, rfl⟩ := List.mem_map.mp member
    have inside := List.mem_range'.mp among
    change number ≤ count
    omega
  · have numbers : (heldFolder host user mailbox id count).files.map (·.delivery.counter) =
        List.range' 1 count := by
      rw [Folder.files, heldFolder, List.nil_append, List.map_map]
      exact List.map_id' _
    rw [numbers]
    exact List.nodup_range'

theorem heldStore_separate : Separate host (heldStore host user mailbox id count quotas) := by
  intro first second one other found foundOther
  obtain ⟨-, rfl⟩ := heldStore_folder_of found
  obtain ⟨-, rfl⟩ := heldStore_folder_of foundOther
  intros
  rfl

theorem bareStore_folder (other : MailboxId) : (bareStore count quotas).folder other = none := rfl

theorem bareStore_orderly : (bareStore count quotas).Orderly := by
  intro other folder found
  cases found

theorem bareStore_separate : Separate host (bareStore count quotas) := by
  intro first second one other found
  cases found

theorem held_differs : DifferOnlyIn user (bareStore count quotas)
    (heldStore host user mailbox id count quotas) := by
  refine ⟨rfl, fun other folder owner => ?_⟩
  rw [bareStore_folder]
  refine iff_of_false (by simp) fun found => owner ?_
  obtain ⟨-, rfl⟩ := heldStore_folder_of found
  rfl

theorem EmailCall.IsolatedFrom.alike {server : JmapServer} {principal : Principal}
    {call : EmailCall} (isolated : call.IsolatedFrom server principal user) (draws count : Nat)
    (quotas : Table Username Quota) (mailbox : MailboxId) (id : MessageId) :
    (call.run server.context principal
        ⟨heldStore server.host user mailbox id count quotas, draws⟩).1.map EmailAnswer.timeless =
      (call.run server.context principal ⟨bareStore count quotas, draws⟩).1.map
        EmailAnswer.timeless :=
  (isolated ⟨bareStore count quotas, draws⟩ bareStore_orderly bareStore_separate).2 _
    heldStore_orderly heldStore_separate held_differs

end Stores

/-! Nothing is found in a store without mailboxes. -/

section Bare

variable {server : JmapServer} {world : JmapWorld Filesystem}

def Bare (store : Filesystem) : Prop := store.folders = ∅ ∧ store.messages = ∅

theorem getMessage_bare {store : Filesystem} (bare : Bare store) (host : Host) (id : MessageId) :
    ∃ after, Filesystem.getMessage host id store = (.ok none, after) ∧ Bare after := by
  have nothing : host.walkMailboxes store.moment store.folders.keys = [] := by
    apply List.Perm.eq_nil
    rw [bare.1]
    exact host.walkMailboxes_perm store.moment []
  have walked : Filesystem.walk host store =
      (.ok [], { store with moment := store.moment + 2 }) := by
    have files : (Filesystem.walk host store).1 = .ok (((host.walkMailboxes store.moment
      store.folders.keys).filterMap store.folder).flatMap
        (Filesystem.folderWalk host store.moment)) := rfl
    rw [nothing] at files
    exact Prod.ext files rfl
  refine ⟨{ store with moment := store.moment + 2 }, ?_, bare⟩
  have uncached : store.messages.lookup id = none := by
    rw [bare.2]
    rfl
  rw [Filesystem.getMessage, Effect.read_bind, uncached]
  exact Effect.bind_ok walked

theorem stored_bare (bare : Bare world.store) (id : MessageId) :
    ∃ after, stored (server.context.messageStore.getMessage id) world = (.ok none, after) ∧
      Bare after.store := by
  obtain ⟨after, ran, still⟩ := getMessage_bare bare server.host id
  refine ⟨{ world with store := after }, ?_, still⟩
  rw [stored, show server.context.messageStore.getMessage id world.store = _ from ran]
  rfl

theorem getEmail_bare (bare : Bare world.store) (id : Text) :
    ∃ after, getEmail server.context id world = (.ok none, after) ∧ Bare after.store := by
  rw [getEmail]
  cases parseMessageId server.context id with
  | error fault => exact ⟨world, rfl, bare⟩
  | ok messageId =>
      obtain ⟨after, ran, still⟩ := @stored_bare server world bare messageId
      exact ⟨after, by dsimp only; rw [Effect.bind_ok ran]; rfl, still⟩

theorem getEmails_bare (bare : Bare world.store) (ids : List Text) :
    ∃ after, getEmails server.context ids world = (.ok ([], ids), after) := by
  induction ids generalizing world with
  | nil => exact ⟨world, rfl⟩
  | cons id ids ih =>
      obtain ⟨middle, ran, still⟩ := @getEmail_bare server world bare id
      obtain ⟨after, others⟩ := ih still
      exact ⟨after, by rw [getEmails, Effect.bind_ok ran, Effect.bind_ok others]; rfl⟩

def FailsBare {α : Type} (program : JmapProgram Filesystem α) : Prop :=
  ∀ world, Bare world.store → ∃ fault after,
    program world = (.error fault, after) ∧ fault ≠ .panicked ∧ Bare after.store

theorem requireMessage_bare (id : Text) (messageId : MessageId) :
    FailsBare (requireMessage server.context id messageId) := by
  intro world bare
  obtain ⟨after, ran, still⟩ := @stored_bare server world bare messageId
  refine ⟨.notFound id, after, ?_, by simp, still⟩
  rw [requireMessage, Effect.bind_ok ran]
  rfl

theorem FailsBare.bind {α β : Type} {first : JmapProgram Filesystem α}
    (fails : FailsBare first) (next : α → JmapProgram Filesystem β) :
    FailsBare (first >>= next) := by
  intro world bare
  obtain ⟨fault, after, ran, told, still⟩ := fails world bare
  exact ⟨fault, after, Effect.bind_error ran, told, still⟩

theorem failsBare_identified {α : Type} (id : Text) {next : MessageId → JmapProgram Filesystem α}
    (fails : ∀ messageId, FailsBare (next messageId)) :
    FailsBare (Effect.ofExcept (parseMessageId server.context id) >>= next) := by
  intro world bare
  rw [parseMessageId]
  cases parseUuid id with
  | none => exact ⟨_, world, rfl, by simp, bare⟩
  | some uuid => exact fails ⟨uuid⟩ world bare

theorem handleEmailUpdate_bare (id : Text) (patch : JsonValue) :
    FailsBare (handleEmailUpdate server.context id patch) :=
  failsBare_identified id fun messageId => (requireMessage_bare id messageId).bind _

theorem handleEmailDestroy_bare (id : Text) :
    FailsBare (handleEmailDestroy server.context id) :=
  failsBare_identified id fun messageId => (requireMessage_bare id messageId).bind _

theorem buildMail_runs {σ : Type} (ctx : JmapContext σ) (object : EmailSetObject)
    (world : JmapWorld σ) :
    ∃ mail draws, ∀ store : σ,
      buildMailFromSetObject ctx object { world with store } = (.ok mail, ⟨store, draws⟩) := by
  have runs : ∃ mail draws, buildMailFromSetObject ctx object world =
      (.ok mail, { world with draws }) := by
    rw [buildMailFromSetObject]
    cases object.sentAt with
    | none => exact ⟨_, _, rfl⟩
    | some moment => exact ⟨_, _, rfl⟩
  obtain ⟨mail, draws, ran⟩ := runs
  refine ⟨mail, draws, fun store => ?_⟩
  rw [storeFree_buildMail object world store, ran]

theorem handleEmailCreate_refused {object : EmailSetObject} {entry : Text × Bool}
    {uuid : BitVec 128} {mail : Mail} {draws : Nat} {text : Text} {store : Filesystem}
    (filed : object.mailboxIds.find? Prod.snd = some entry)
    (read : parseUuid entry.1 = some uuid)
    (built : buildMailFromSetObject server.context object world = (.ok mail, { world with draws }))
    (refused : Filesystem.appendMessage server.host ⟨uuid⟩ mail world.store =
      (.error text, store)) :
    handleEmailCreate server.context object world =
      (.error (.message text), { store, draws }) := by
  have stopped : stored (server.context.messageStore.appendMessage ⟨uuid⟩ mail)
      { world with draws } = (.error (.message text), { store, draws }) := by
    rw [stored, show server.context.messageStore.appendMessage ⟨uuid⟩ mail world.store = _
      from refused]
    rfl
  obtain ⟨primary, active⟩ := entry
  rw [handleEmailCreate, filed]
  dsimp only
  rw [parseMailboxId, show parseUuid primary = some uuid from read]
  change (buildMailFromSetObject server.context object >>= _) world = _
  rw [Effect.bind_ok built]
  exact Effect.bind_error stopped

theorem handleEmailCreate_bare (object : EmailSetObject) :
    FailsBare (handleEmailCreate server.context object) := by
  intro world bare
  cases filed : object.mailboxIds.find? Prod.snd with
  | none =>
      rw [handleEmailCreate, filed]
      exact ⟨_, world, rfl, by simp, bare⟩
  | some entry =>
      cases read : parseUuid entry.1 with
      | none =>
          have unfiled : object.Unfiled := by
            intro other found
            cases filed.symm.trans found
            exact read
          obtain ⟨fault, shape, told⟩ := @handleEmailCreate_unfiled _ server.context _ unfiled
          exact ⟨fault, world, by rw [shape]; rfl, told, bare⟩
      | some uuid =>
          obtain ⟨mail, draws, built⟩ := buildMail_runs server.context object world
          have missing : world.store.folder ⟨uuid⟩ = none := by
            rw [Filesystem.folder, bare.1]
            rfl
          have refused := @Filesystem.appendMessage_missing server.host _ _ missing mail
          exact ⟨_, _, handleEmailCreate_refused filed read (built world.store) refused, by simp,
            bare⟩

theorem eachEntry_bare {α β : Type} {handle : Text → α → JmapProgram Filesystem β}
    (fails : ∀ key value, FailsBare (handle key value)) (entries : List (Text × α))
    (bare : Bare world.store) :
    ∃ outcomes after, eachEntry handle entries world = (.ok outcomes, after) ∧
      Bare after.store ∧ succeeded outcomes = [] := by
  induction entries generalizing world with
  | nil => exact ⟨[], world, rfl, bare, rfl⟩
  | cons entry entries ih =>
      obtain ⟨key, value⟩ := entry
      obtain ⟨fault, middle, ran, told, still⟩ := fails key value world bare
      obtain ⟨outcomes, after, others, bareAfter, none⟩ := ih still
      have handed : caught (handle key value) world = (.ok (.error fault), middle) := by
        rw [caught, ran]
        cases fault with
        | message | notFound | forbidden => rfl
        | panicked => exact absurd rfl told
      refine ⟨(key, .error fault) :: outcomes, after, ?_, bareAfter, none⟩
      rw [eachEntry, Effect.bind_ok handed, Effect.bind_ok others]
      rfl

end Bare

section OnDisk

variable {server : JmapServer} {world : JmapWorld Filesystem} {messageId : MessageId}

def OnDisk (host : Host) (messageId : MessageId) (store : Filesystem) : Prop :=
  ∃ mailbox folder, store.folder mailbox = some folder ∧
    ∃ file ∈ folder.files, Filesystem.storedId host file = some messageId

theorem OnDisk.sameDisk {host : Host} {store next : Filesystem}
    (there : OnDisk host messageId store) (same : store.SameDisk next) :
    OnDisk host messageId next := by
  obtain ⟨mailbox, folder, found, carries⟩ := there
  exact ⟨mailbox, folder, (same.folder mailbox).trans found, carries⟩

theorem getMessage_onDisk {host : Host} {store : Filesystem} (there : OnDisk host messageId store) :
    ∃ mail after, Filesystem.getMessage host messageId store = (.ok (some mail), after) := by
  rw [Filesystem.getMessage, Effect.read_bind]
  cases store.messages.lookup messageId with
  | some mail => exact ⟨mail, store, rfl⟩
  | none =>
      obtain ⟨mailbox, folder, found, file, member, carries⟩ := there
      rcases ran : Filesystem.walk host store with ⟨outcome, after⟩
      have walked : outcome = .ok (((host.walkMailboxes store.moment
          store.folders.keys).filterMap store.folder).flatMap
            (Filesystem.folderWalk host store.moment)) := (Prod.mk.inj ran).1.symm
      subst walked
      dsimp only
      rw [Effect.bind_ok ran]
      cases search : (((host.walkMailboxes store.moment store.folders.keys).filterMap
          store.folder).flatMap (Filesystem.folderWalk host store.moment)).find?
            fun file => Filesystem.storedId host file = some messageId with
      | some first => exact ⟨_, _, rfl⟩
      | none =>
          exfalso
          have among : folder ∈ (host.walkMailboxes store.moment store.folders.keys).filterMap
              store.folder := by
            refine List.mem_filterMap.mpr ⟨mailbox, ?_, found⟩
            rw [(host.walkMailboxes_perm _ _).mem_iff, ← AList.mem_keys, ← AList.lookup_isSome]
            exact Option.isSome_of_eq_some found
          have reached := List.mem_flatMap.mpr ⟨folder, among,
            (Filesystem.folderWalk_perm host store.moment folder).mem_iff.mpr member⟩
          exact absurd (decide_eq_true carries) (List.find?_eq_none.mp search file reached)

theorem stored_onDisk (there : OnDisk server.host messageId world.store) :
    ∃ mail after, stored (server.context.messageStore.getMessage messageId) world =
      (.ok (some mail), after) := by
  obtain ⟨mail, after, ran⟩ := getMessage_onDisk there
  refine ⟨mail, { world with store := after }, ?_⟩
  rw [stored, show server.context.messageStore.getMessage messageId world.store = _ from ran]
  rfl

theorem getEmail_onDisk {id : Text} (read : parseUuid id = some messageId.uuid)
    (there : OnDisk server.host messageId world.store) :
    (getEmail server.context id world).1 ≠ .ok none := by
  intro missed
  obtain ⟨mail, middle, found⟩ := stored_onDisk there
  rw [getEmail, parseMessageId, read] at missed
  dsimp only at missed
  rw [Effect.bind_ok found] at missed
  dsimp only at missed
  obtain ⟨flags, world₁, _, rest₁⟩ := Effect.bind_eq_ok.mp (Prod.ext missed rfl)
  obtain ⟨threadId, world₂, _, rest₂⟩ := Effect.bind_eq_ok.mp rest₁
  obtain ⟨received, world₃, _, rest₃⟩ := Effect.bind_eq_ok.mp rest₂
  obtain ⟨email, world₄, _, answered⟩ := Effect.bind_eq_ok.mp rest₃
  cases answered

theorem getEmails_onDisk {ids : List Text}
    (asked : ∃ id ∈ ids, parseUuid id = some messageId.uuid)
    (there : OnDisk server.host messageId world.store) {notFound : List Text} :
    (getEmails server.context ids world).1 ≠ .ok ([], notFound) := by
  intro missed
  induction ids generalizing world notFound with
  | nil =>
      obtain ⟨_, member, _⟩ := asked
      cases member
  | cons first ids ih =>
      obtain ⟨found, middle, ran, missed⟩ := Effect.bind_eq_ok.mp (Prod.ext missed rfl)
      obtain ⟨rest, last, others, missed⟩ := Effect.bind_eq_ok.mp missed
      cases found with
      | some email => cases missed
      | none =>
          obtain ⟨id, member, read⟩ := asked
          rcases List.mem_cons.mp member with rfl | later
          · exact getEmail_onDisk read there (congrArg Prod.fst ran)
          · have still := there.sameDisk (@reads_getEmail server first world)
            rw [ran] at still
            obtain ⟨list, missing⟩ := rest
            have empty : list = [] := congrArg Prod.fst (Except.ok.inj (Prod.mk.inj missed).1)
            subst empty
            exact ih ⟨id, later, read⟩ still (congrArg Prod.fst others)

theorem requireMessage_onDisk (id : Text) (there : OnDisk server.host messageId world.store) :
    ∃ after, requireMessage server.context id messageId world = (.ok (), after) := by
  obtain ⟨mail, after, found⟩ := stored_onDisk there
  refine ⟨after, ?_⟩
  rw [requireMessage, Effect.bind_ok found]
  rfl

theorem handleEmailDestroy_onDisk {id : Text} (read : parseUuid id = some messageId.uuid)
    (there : OnDisk server.host messageId world.store) :
    ∃ after, handleEmailDestroy server.context id world = (.ok (), after) := by
  obtain ⟨middle, found⟩ := requireMessage_onDisk id there
  rw [handleEmailDestroy, parseMessageId, read]
  change ∃ after, (requireMessage server.context id messageId >>= _) world = _
  rw [Effect.bind_ok found]
  exact ⟨_, rfl⟩

theorem total_stored {σ α : Type} {call : Effect Text σ α} (total : call.Total) :
    (stored call).Total := by
  intro world
  obtain ⟨value, after, ran⟩ := total world.store
  exact ⟨value, { world with store := after }, by rw [stored, ran]; rfl⟩

theorem total_containsMessage {σ : Type} (ctx : JmapContext σ) (mailboxId : MailboxId) :
    (containsMessage ctx messageId mailboxId).Total :=
  (total_stored (Effect.total_unwrapOr [] _)).bind fun _ => Effect.total_pure _

theorem total_fileInMailbox {σ : Type} (ctx : JmapContext σ) (mailboxId : MailboxId) :
    (fileInMailbox ctx messageId mailboxId).Total := by
  refine (total_containsMessage ctx mailboxId).bind fun contained => ?_
  cases contained with
  | true => exact Effect.total_pure ()
  | false =>
      change Effect.Total (stored (Effect.attempt _) >>= fun _ => pure ())
      exact (total_stored (Effect.total_attempt _)).bind fun _ => Effect.total_pure ()

theorem total_deleteMessages : (stored (server.context.messageStore.deleteMessages
    [messageId])).Total :=
  total_stored fun _ => ⟨(), _, rfl⟩

theorem total_removeFromMailbox (mailboxId : MailboxId) :
    (removeFromMailbox server.context messageId mailboxId).Total := by
  refine (total_containsMessage server.context mailboxId).bind fun contained => ?_
  cases contained with
  | true => exact total_deleteMessages
  | false => exact Effect.total_pure ()

theorem total_replaceMailboxes {σ : Type} (ctx : JmapContext σ)
    (entries : List (Text × JsonValue)) : (replaceMailboxes ctx messageId entries).Total := by
  induction entries with
  | nil => exact Effect.total_pure ()
  | cons entry entries ih =>
      obtain ⟨id, value⟩ := entry
      rw [replaceMailboxes]
      split
      · split
        · exact (total_fileInMailbox ctx _).bind fun _ => ih
        · exact ih
      · exact ih

theorem total_patchMailboxes (entries : List (Text × JsonValue)) :
    (patchMailboxes server.context messageId entries).Total := by
  induction entries with
  | nil => exact Effect.total_pure ()
  | cons entry entries ih =>
      obtain ⟨path, value⟩ := entry
      rw [patchMailboxes]
      split
      · split
        · exact (total_fileInMailbox _ _).bind fun _ => ih
        · exact (total_removeFromMailbox _).bind fun _ => ih
      · exact ih

theorem total_readMessageFlags (mailboxId : MailboxId) :
    (readMessageFlags server.context messageId mailboxId).Total := by
  refine Effect.Total.bind (total_stored fun store => ?_) fun _ => Effect.total_pure _
  exact ⟨_, _, Filesystem.getMailboxMessages_listed server.host mailboxId store⟩

theorem handleEmailUpdate_onDisk {id : Text} (read : parseUuid id = some messageId.uuid)
    (there : OnDisk server.host messageId world.store) (patch : JsonValue) :
    ∃ after, handleEmailUpdate server.context id patch world = (.ok (), after) := by
  obtain ⟨middle, found⟩ := requireMessage_onDisk id there
  rw [handleEmailUpdate, parseMessageId, read]
  change ∃ after, (requireMessage server.context id messageId >>= _) world = _
  rw [Effect.bind_ok found]
  cases patch.asObject with
  | none => exact ⟨middle, rfl⟩
  | some entries =>
      dsimp only
      apply Effect.Total.unit
      refine Effect.Total.bind ?_ fun current => ?_
      · split
        · exact (total_readMessageFlags _).bind fun _ => Effect.total_pure _
        · exact Effect.total_pure _
      · have filed := (@total_replaceMailboxes messageId _ server.context
          (((entries.lookup "/mailboxIds".toList).bind JsonValue.asObject).getD [])).bind
            fun _ => @total_patchMailboxes server messageId entries
        split
        · exact (total_stored fun _ => ⟨(), _, rfl⟩).bind fun _ => filed
        · exact filed

end OnDisk

/-! What the calls answer over the two stores. -/

section Answers

variable {server : JmapServer} {principal : Principal} {world : JmapWorld Filesystem}

theorem heldStore_onDisk {host : Host} {user : Username} {mailbox : MailboxId} {id : MessageId}
    {quotas : Table Username Quota} {count : Nat} (some : 0 < count) :
    OnDisk host id (heldStore host user mailbox id count quotas) := by
  refine ⟨mailbox, _, heldStore_folder, heldNote host id 1, ?_, heldNote_stored host id 1⟩
  exact List.mem_map.mpr ⟨1, by simp [List.mem_range']; omega, rfl⟩

theorem ensureAccountOwnership_owned {σ : Type} {requested : Text}
    (owned : principal.ownsAccount requested = true) :
    (ensureAccountOwnership requested principal : JmapProgram σ Unit) = pure () :=
  if_pos owned

theorem eachEntry_cons_ok {σ α β : Type} {handle : Text → α → JmapProgram σ β} {key : Text}
    {value : α} {rest : List (Text × α)} {state after : JmapWorld σ}
    {outcomes : List (Text × Except JmapFault β)}
    (ran : eachEntry handle ((key, value) :: rest) state = (.ok outcomes, after)) :
    ∃ outcome middle others, caught (handle key value) state = (.ok outcome, middle) ∧
      outcomes = (key, outcome) :: others := by
  obtain ⟨outcome, middle, first, later⟩ := Effect.bind_eq_ok.mp ran
  obtain ⟨others, last, _, gathered⟩ := Effect.bind_eq_ok.mp later
  cases gathered
  exact ⟨outcome, middle, others, first, rfl⟩

theorem emailSet_answered {σ : Type} {ctx : JmapContext σ} {world after : JmapWorld σ}
    {request : EmailSetRequest} {response : EmailSetResponse}
    (ran : emailSet ctx request principal world = (.ok response, after)) :
    ∃ creates updates destroys first second third,
      eachEntry (fun _ object => handleEmailCreate ctx object)
          (request.create.getD []) { world with draws := world.draws + 1 } = (.ok creates, first) ∧
      eachEntry (handleEmailUpdate ctx) (request.update.getD []) first =
          (.ok updates, second) ∧
      eachEntry (fun id _ => handleEmailDestroy ctx id)
          ((request.destroy.getD []).map (·, ())) second = (.ok destroys, third) ∧
      response.notCreated = unlessEmpty (notDone createError creates) ∧
      response.updated = unlessEmpty ((succeeded updates).map fun entry => (entry.1, none)) ∧
      response.destroyed = unlessEmpty ((succeeded destroys).map Prod.fst) ∧
      response.created = unlessEmpty (succeeded creates) ∧
      response.notUpdated = unlessEmpty (notDone classifyUpdateError updates) ∧
      response.notDestroyed = unlessEmpty (keyed (notDone classifyDestroyError destroys)) := by
  obtain ⟨_, start, checked, set⟩ := Effect.bind_eq_ok.mp ran
  have same : start = world := by
    rw [ensureAccountOwnership] at checked
    split at checked
    · exact (Prod.mk.inj checked).2.symm
    · cases checked
  subst same
  obtain ⟨_, clocked, timed, rest⟩ := Effect.bind_eq_ok.mp set
  cases timed
  obtain ⟨creates, first, created, rest₁⟩ := Effect.bind_eq_ok.mp rest
  obtain ⟨updates, second, updated, rest₂⟩ := Effect.bind_eq_ok.mp rest₁
  obtain ⟨destroys, third, destroyed, rest₃⟩ := Effect.bind_eq_ok.mp rest₂
  obtain ⟨_, last, _, answered⟩ := Effect.bind_eq_ok.mp rest₃
  cases answered
  exact ⟨creates, updates, destroys, first, second, third, created, updated, destroyed,
    rfl, rfl, rfl, rfl, rfl, rfl⟩

theorem emailSet_bare (request : EmailSetRequest) (bare : Bare world.store)
    (owned : principal.ownsAccount request.accountId = true) :
    ∃ response after, emailSet server.context request principal world = (.ok response, after) ∧
      response.updated = none ∧ response.destroyed = none := by
  let clocked : JmapWorld Filesystem := { world with draws := world.draws + 1 }
  obtain ⟨creates, first, created, bareFirst, _⟩ := @eachEntry_bare clocked _ _ _
    (fun _ => @handleEmailCreate_bare server) (request.create.getD []) bare
  obtain ⟨updates, second, updated, bareSecond, noneUpdated⟩ := eachEntry_bare
    (@handleEmailUpdate_bare server) (request.update.getD []) bareFirst
  obtain ⟨destroys, third, destroyed, bareThird, noneDestroyed⟩ := @eachEntry_bare second _ _
    (fun id _ => handleEmailDestroy server.context id) (fun id _ => handleEmailDestroy_bare id)
    ((request.destroy.getD []).map (·, ())) bareSecond
  have moment : ∀ world, utcNow server.context world =
      (.ok (server.now world.draws), { world with draws := world.draws + 1 }) := fun _ => rfl
  rw [emailSet, ensureAccountOwnership_owned owned, pure_bind, Effect.bind_ok (moment world),
    Effect.bind_ok created, Effect.bind_ok updated, Effect.bind_ok destroyed,
    Effect.bind_ok (moment third)]
  refine ⟨_, _, rfl, ?_, ?_⟩
  · rw [noneUpdated]
    rfl
  · rw [noneDestroyed]
    rfl

theorem set_alike {request : EmailSetRequest} {user : Username}
    (isolated : (EmailCall.set request).IsolatedFrom server principal user)
    (owned : principal.ownsAccount request.accountId = true) (count : Nat)
    (quotas : Table Username Quota) (mailbox : MailboxId) (id : MessageId) :
    ∃ blank response bareAfter after,
      emailSet server.context request principal ⟨bareStore count quotas, 0⟩ =
        (.ok blank, bareAfter) ∧
      emailSet server.context request principal
          ⟨heldStore server.host user mailbox id count quotas, 0⟩ = (.ok response, after) ∧
      response.notCreated = blank.notCreated ∧ response.updated = none ∧
      response.destroyed = none := by
  have bare : Bare (bareStore count quotas) := ⟨rfl, rfl⟩
  obtain ⟨blank, bareAfter, ran, blankUpdated, blankDestroyed⟩ :=
    @emailSet_bare server principal ⟨bareStore count quotas, 0⟩ request bare owned
  have same := isolated.alike 0 count quotas mailbox id
  rcases answered : emailSet server.context request principal
    ⟨heldStore server.host user mailbox id count quotas, 0⟩ with ⟨outcome, after⟩
  simp only [EmailCall.run, map_outcome, answered, ran] at same
  cases outcome with
  | error fault => cases same
  | ok response =>
      have equal := EmailAnswer.set.inj (Except.ok.inj same)
      have notCreated := congrArg EmailSetResponse.notCreated equal
      have updated := congrArg EmailSetResponse.updated equal
      have destroyed := congrArg EmailSetResponse.destroyed equal
      exact ⟨blank, response, bareAfter, after, ran, rfl, notCreated,
        updated.trans blankUpdated, destroyed.trans blankDestroyed⟩

theorem eachEntry_outcome {σ α β : Type} {handle : Text → α → JmapProgram σ β} {key : Text}
    {value : α} {entries rest : List (Text × α)} {state middle after : JmapWorld σ}
    {failures outcomes : List (Text × Except JmapFault β)} {outcome : Except JmapFault β}
    (shape : eachEntry handle entries =
      (failures ++ ·) <$> eachEntry handle ((key, value) :: rest))
    (ran : eachEntry handle entries state = (.ok outcomes, after))
    (handled : caught (handle key value) state = (.ok outcome, middle)) :
    ∃ others, outcomes = failures ++ (key, outcome) :: others := by
  rw [shape, map_eq_pure_bind] at ran
  obtain ⟨gathered, last, whole, same⟩ := Effect.bind_eq_ok.mp ran
  obtain ⟨first, next, others, firstRan, rfl⟩ := eachEntry_cons_ok whole
  cases firstRan.symm.trans handled
  cases same
  exact ⟨others, rfl⟩

theorem unlessEmpty_inj {α : Type} {first second : List α}
    (same : unlessEmpty first = unlessEmpty second) : first = second := by
  cases first with
  | nil =>
      cases second with
      | nil => rfl
      | cons value values => cases same
  | cons value values =>
      cases second with
      | nil => cases same
      | cons other others => exact Option.some.inj same

theorem succeeded_ne_nil {β : Type} {key : Text} {value : β}
    {failures others : List (Text × Except JmapFault β)} :
    succeeded (failures ++ (key, .ok value) :: others) ≠ [] := by
  simp [succeeded, Except.toOption]

theorem caught_ok {σ α : Type} {program : JmapProgram σ α} {state after : JmapWorld σ} {value : α}
    (ran : program state = (.ok value, after)) :
    caught program state = (.ok (.ok value), after) := by
  rw [caught, ran]

theorem caught_message {σ α : Type} {program : JmapProgram σ α} {state after : JmapWorld σ}
    {text : Text} (ran : program state = (.error (.message text), after)) :
    caught program state = (.ok (.error (.message text)), after) := by
  rw [caught, ran]

end Answers

/-! An isolated call names nothing. -/

section Named

variable {server : JmapServer} {principal : Principal} {user : Username}

def fullQuota (size : Nat) : Quota := ⟨1 - UInt64.ofNat size, 0⟩

theorem heldStore_full (mailbox : MailboxId) (id : MessageId) (count size : Nat) :
    ¬(heldStore server.host user mailbox id count
      (AList.insert user (fullQuota size) ∅)).admits user size := by
  have quota : (heldStore server.host user mailbox id count
      (AList.insert user (fullQuota size) ∅)).quotaOf user = fullQuota size := by
    rw [Filesystem.quotaOf, show (heldStore server.host user mailbox id count
      (AList.insert user (fullQuota size) ∅)).quotas.lookup user = _ from AList.lookup_insert _]
    rfl
  rw [Filesystem.admits, quota]
  simp [fullQuota]

theorem set_creates_unfiled {request : EmailSetRequest}
    (isolated : (EmailCall.set request).IsolatedFrom server principal user)
    (owned : principal.ownsAccount request.accountId = true) :
    ∀ entry ∈ request.create.getD [], entry.2.Unfiled := by
  by_contra some
  simp only [not_forall] at some
  obtain ⟨entry, member, filedEntry⟩ := some
  obtain ⟨failures, key, object, rest, filed, shape⟩ :=
    @eachEntry_first _ _ _ (fun _ object => handleEmailCreate server.context object)
      (fun entry : Text × EmailSetObject => ¬entry.2.Unfiled) (request.create.getD [])
      (fun other _ unfiled => handleEmailCreate_unfiled (not_not.mp unfiled))
      ⟨entry, member, filedEntry⟩
  simp only [EmailSetObject.Unfiled, not_forall] at filed
  obtain ⟨chosen, found, read⟩ := filed
  obtain ⟨uuid, read⟩ := Option.ne_none_iff_exists'.mp read
  let start : JmapWorld Filesystem := ⟨bareStore 0 ∅, 1⟩
  obtain ⟨mail, draws, built⟩ := buildMail_runs server.context object start
  let quotas : Table Username Quota := AList.insert user (fullQuota mail.size) ∅
  obtain ⟨blank, response, bareAfter, after, bareRan, ran, same, -⟩ :=
    set_alike isolated owned 0 quotas ⟨uuid⟩ ⟨0⟩
  obtain ⟨bareCreates, _, _, _, _, _, bareCreated, _, _, bareAnswer, _⟩ :=
    emailSet_answered bareRan
  obtain ⟨creates, _, _, _, _, _, created, _, _, answer, _⟩ := emailSet_answered ran
  have missing : (bareStore 0 quotas).folder ⟨uuid⟩ = none := rfl
  have refusedBare := handleEmailCreate_refused found read (built _)
    (Filesystem.appendMessage_missing missing mail)
  have refused := handleEmailCreate_refused found read (built _)
    (Filesystem.appendMessage_refused (@heldStore_folder server.host user ⟨uuid⟩ ⟨0⟩ 0 quotas)
      (heldStore_full ⟨uuid⟩ ⟨0⟩ 0 mail.size))
  obtain ⟨bareOthers, rfl⟩ := eachEntry_outcome shape bareCreated (caught_message refusedBare)
  obtain ⟨others, rfl⟩ := eachEntry_outcome shape created (caught_message refused)
  rw [answer, bareAnswer] at same
  have lists := unlessEmpty_inj same
  simp only [notDone, List.filterMap_append, List.filterMap_cons] at lists
  have heads := (List.cons.inj (List.append_cancel_left lists)).1
  have texts := congrArg JmapSetError.description (Prod.mk.inj heads).2
  exact absurd (Option.some.inj texts) (by decide)

theorem set_silent {request : EmailSetRequest}
    (isolated : (EmailCall.set request).IsolatedFrom server principal user)
    (owned : principal.ownsAccount request.accountId = true) (id : MessageId) :
    ∃ updates destroys first second third, OnDisk server.host id first.store ∧
      eachEntry (handleEmailUpdate server.context) (request.update.getD []) first =
        (.ok updates, second) ∧
      eachEntry (fun id _ => handleEmailDestroy server.context id)
          ((request.destroy.getD []).map (·, ())) second = (.ok destroys, third) ∧
      succeeded updates = [] ∧ succeeded destroys = [] := by
  obtain ⟨_, response, _, _, _, ran, _, noneUpdated, noneDestroyed⟩ :=
    set_alike isolated owned 1 ∅ ⟨0⟩ id
  obtain ⟨_, updates, destroys, first, second, third, created, updated, destroyed, _,
    updateAnswer, destroyAnswer, -, -, -⟩ := emailSet_answered ran
  have free := @storeFree_creates _ server.context _ (set_creates_unfiled isolated owned)
  have kept := free.store ⟨heldStore server.host user ⟨0⟩ id 1 ∅, 1⟩
  rw [show eachEntry _ (request.create.getD []) _ = _ from created] at kept
  rw [updateAnswer] at noneUpdated
  rw [destroyAnswer] at noneDestroyed
  refine ⟨updates, destroys, first, second, third, ?_, updated, destroyed, ?_, ?_⟩
  · rw [show first.store = _ from kept]
    exact heldStore_onDisk Nat.zero_lt_one
  · exact List.map_eq_nil_iff.mp (@unlessEmpty_inj _ _ [] noneUpdated)
  · exact List.map_eq_nil_iff.mp (@unlessEmpty_inj _ _ [] noneDestroyed)

theorem set_updates_unread {request : EmailSetRequest}
    (isolated : (EmailCall.set request).IsolatedFrom server principal user)
    (owned : principal.ownsAccount request.accountId = true) :
    ∀ entry ∈ request.update.getD [], parseUuid entry.1 = none := by
  by_contra some
  simp only [not_forall] at some
  obtain ⟨entry, member, readEntry⟩ := some
  obtain ⟨failures, key, patch, rest, named, shape⟩ :=
    @eachEntry_first _ _ _ (handleEmailUpdate server.context)
      (fun entry : Text × JsonValue => ¬parseUuid entry.1 = none) (request.update.getD [])
      (fun other _ unread => handleEmailUpdate_unnamed (not_not.mp unread) other.2)
      ⟨entry, member, readEntry⟩
  obtain ⟨uuid, read⟩ := Option.ne_none_iff_exists'.mp named
  obtain ⟨updates, _, _, _, _, there, updated, _, nothing, _⟩ := set_silent isolated owned ⟨uuid⟩
  obtain ⟨_, handled⟩ := handleEmailUpdate_onDisk read there patch
  obtain ⟨others, rfl⟩ := eachEntry_outcome shape updated (caught_ok handled)
  exact succeeded_ne_nil nothing

theorem set_destroys_unread {request : EmailSetRequest}
    (isolated : (EmailCall.set request).IsolatedFrom server principal user)
    (owned : principal.ownsAccount request.accountId = true) :
    ∀ id ∈ request.destroy.getD [], parseUuid id = none := by
  by_contra some
  simp only [not_forall] at some
  obtain ⟨id, member, readId⟩ := some
  obtain ⟨failures, key, _, rest, named, shape⟩ :=
    @eachEntry_first _ _ _ (fun id _ => handleEmailDestroy server.context id)
      (fun entry : Text × Unit => ¬parseUuid entry.1 = none) ((request.destroy.getD []).map (·, ()))
      (fun other _ unread => handleEmailDestroy_unnamed (not_not.mp unread))
      ⟨(id, ()), List.mem_map_of_mem member, readId⟩
  obtain ⟨uuid, read⟩ := Option.ne_none_iff_exists'.mp named
  obtain ⟨_, destroys, first, second, _, there, updated, destroyed, _, nothing⟩ :=
    set_silent isolated owned ⟨uuid⟩
  -- The updates name nothing, so the message is still there when the loop over them is done.
  have free := @storeFree_updates _ server.context _ (set_updates_unread isolated owned)
  have kept := free.store first
  rw [show eachEntry _ (request.update.getD []) _ = _ from updated] at kept
  rw [← show second.store = _ from kept] at there
  obtain ⟨_, handled⟩ := handleEmailDestroy_onDisk read there
  obtain ⟨others, rfl⟩ := eachEntry_outcome shape destroyed (caught_ok handled)
  exact succeeded_ne_nil nothing

theorem get_unread {request : EmailGetRequest}
    (isolated : (EmailCall.get request).IsolatedFrom server principal user)
    (owned : principal.ownsAccount request.accountId = true) :
    ∀ id ∈ request.ids.getD [], parseUuid id = none := by
  by_contra some
  simp only [not_forall] at some
  obtain ⟨id, member, readId⟩ := some
  obtain ⟨uuid, read⟩ := Option.ne_none_iff_exists'.mp readId
  have same := isolated.alike 0 1 ∅ ⟨0⟩ ⟨uuid⟩
  obtain ⟨middle, ran⟩ := @getEmails_bare server ⟨bareStore 1 ∅, 0⟩ ⟨rfl, rfl⟩
    (request.ids.getD [])
  have there : OnDisk server.host ⟨uuid⟩ (heldStore server.host user ⟨0⟩ ⟨uuid⟩ 1 ∅) :=
    heldStore_onDisk Nat.zero_lt_one
  have bareAnswer : emailGet server.context request principal ⟨bareStore 1 ∅, 0⟩ =
      (.ok ⟨request.accountId, timestampText (server.now middle.draws), [],
        request.ids.getD []⟩, { middle with draws := middle.draws + 1 }) := by
    rw [emailGet, ensureAccountOwnership_owned owned, pure_bind, Effect.bind_ok ran]
    rfl
  rcases answered : emailGet server.context request principal
    ⟨heldStore server.host user ⟨0⟩ ⟨uuid⟩ 1 ∅, 0⟩ with ⟨outcome, after⟩
  simp only [EmailCall.run, map_outcome, answered, bareAnswer] at same
  cases outcome with
  | error fault => cases same
  | ok response =>
      have equal := EmailAnswer.get.inj (Except.ok.inj same)
      have empty := congrArg EmailGetResponse.list equal
      rw [emailGet, ensureAccountOwnership_owned owned, pure_bind] at answered
      obtain ⟨⟨list, notFound⟩, next, found, rest⟩ := Effect.bind_eq_ok.mp answered
      obtain ⟨_, _, _, last⟩ := Effect.bind_eq_ok.mp rest
      cases last
      change list = [] at empty
      subst empty
      exact getEmails_onDisk ⟨id, member, read⟩ there (congrArg Prod.fst found)

/-! Queries. -/

theorem heldStore_filesOf {host : Host} (mailbox : MailboxId) (id : MessageId) (count : Nat)
    (quotas : Table Username Quota) :
    ((heldStore host user mailbox id count quotas).filesOf mailbox).length = count := by
  rw [Filesystem.filesOf_found heldStore_folder, Folder.files, heldFolder, List.nil_append,
    List.length_map, List.length_range']

theorem listed_length (host : Host) (store : Filesystem) (id : MailboxId) :
    (Filesystem.listed host store id).length = (store.filesOf id).length := by
  rw [Filesystem.listed_eq, List.length_map, Filesystem.entriesOf_length]

theorem scan_sees {names : List Text} {mailbox : MailboxId} {world : JmapWorld Filesystem}
    (met : ∃ name ∈ names, parseUuid name = some mailbox.uuid) :
    ∃ ids after, scanMailboxesDirectory server.context names world = (.ok ids, after) ∧
      (world.store.filesOf mailbox).length ≤ ids.length := by
  induction names generalizing world with
  | nil =>
      obtain ⟨_, member, _⟩ := met
      cases member
  | cons name names ih =>
      obtain ⟨found, member, read⟩ := met
      rw [scanMailboxesDirectory, parseMailboxId]
      rcases List.mem_cons.mp member with rfl | later
      · rw [read]
        obtain ⟨middle, listed, _⟩ := @stored_listedOr server mailbox world
        obtain ⟨ids, after, others⟩ := @scan_runs server names middle
        dsimp only
        refine ⟨_, after, by rw [Effect.bind_ok listed, Effect.bind_ok others]; rfl, ?_⟩
        rw [List.length_append, List.length_map, listed_length]
        omega
      · cases parseUuid name with
        | none =>
            obtain ⟨ids, after, others, shown⟩ := @ih world ⟨found, later, read⟩
            exact ⟨_, after, by rw [pure_bind, Effect.bind_ok others]; rfl, shown⟩
        | some uuid =>
            obtain ⟨middle, listed, same⟩ := @stored_listedOr server ⟨uuid⟩ world
            obtain ⟨ids, after, others, shown⟩ := @ih middle ⟨found, later, read⟩
            rw [same.filesOf] at shown
            dsimp only
            refine ⟨_, after, by rw [Effect.bind_ok listed, Effect.bind_ok others]; rfl, ?_⟩
            rw [List.length_append]
            omega

theorem scan_bare {names : List Text} {world : JmapWorld Filesystem}
    (empty : world.store.folders = ∅) :
    ∃ after, scanMailboxesDirectory server.context names world = (.ok [], after) := by
  induction names generalizing world with
  | nil => exact ⟨world, rfl⟩
  | cons name names ih =>
      rw [scanMailboxesDirectory, parseMailboxId]
      cases parseUuid name with
      | none =>
          obtain ⟨after, others⟩ := ih empty
          exact ⟨after, by rw [pure_bind, Effect.bind_ok others]; rfl⟩
      | some uuid =>
          obtain ⟨middle, listed, same⟩ := @stored_listedOr server ⟨uuid⟩ world
          obtain ⟨after, others⟩ := ih (same.1.trans empty)
          have missing : world.store.folder ⟨uuid⟩ = none := by
            rw [Filesystem.folder, empty]
            rfl
          rw [Filesystem.listed_missing missing] at listed
          exact ⟨after, by
            dsimp only; rw [Effect.bind_ok listed, Effect.bind_ok others]; rfl⟩

theorem stored_mailboxDirectories (world : JmapWorld Filesystem) :
    ∃ names after, stored server.context.mailboxDirectories world = (.ok names, after) ∧
      world.store.SameDisk after.store ∧
      (server.foreign = some names ∨ server.foreign = none ∧
        names.Perm (world.store.folders.keys.map MailboxId.display)) := by
  have named : ∃ names, (server.mailboxDirectories world.store).1 = .ok names ∧
      (server.foreign = some names ∨ server.foreign = none ∧
        names.Perm (world.store.folders.keys.map MailboxId.display)) := by
    rw [JmapServer.mailboxDirectories]
    cases server.foreign with
    | some names => exact ⟨names, rfl, .inl rfl⟩
    | none => exact ⟨_, rfl, .inr ⟨rfl, (server.host.walkMailboxes_perm _ _).map _⟩⟩
  obtain ⟨names, found, among⟩ := named
  refine ⟨names, { world with store := (server.mailboxDirectories world.store).2 }, ?_,
    mailboxDirectories_sameDisk world.store, among⟩
  rw [stored, show server.context.mailboxDirectories world.store =
    (.ok names, (server.mailboxDirectories world.store).2) from Prod.ext found rfl]
  rfl

theorem queriedIds_bare (request : EmailQueryRequest) {world : JmapWorld Filesystem}
    (bare : Bare world.store) :
    ∃ after, queriedIds server.context request world = (.ok [], after) := by
  rw [queriedIds]
  cases request.filter.bind EmailFilterCondition.inMailbox with
  | none =>
      obtain ⟨names, middle, found, same, _⟩ := @stored_mailboxDirectories server world
      obtain ⟨after, scanned⟩ := @scan_bare server names middle (same.1.trans bare.1)
      exact ⟨after, by dsimp only; rw [getAllMessages, Effect.bind_ok found, scanned]⟩
  | some id =>
      dsimp only
      rw [parseMailboxId]
      cases parseUuid id with
      | none => exact ⟨world, rfl⟩
      | some uuid =>
          obtain ⟨after, listed, _⟩ := @stored_listed server ⟨uuid⟩ world
          have missing : world.store.folder ⟨uuid⟩ = none := by
            rw [Filesystem.folder, bare.1]
            rfl
          rw [Filesystem.listed_missing missing] at listed
          exact ⟨after, by dsimp only; rw [Effect.bind_ok listed]; rfl⟩

theorem getAllMessages_sees {mailbox : MailboxId} {world : JmapWorld Filesystem}
    (met : ∀ names, (server.foreign = some names ∨ server.foreign = none ∧
        names.Perm (world.store.folders.keys.map MailboxId.display)) →
      ∃ name ∈ names, parseUuid name = some mailbox.uuid) :
    ∃ ids after, getAllMessages server.context world = (.ok ids, after) ∧
      (world.store.filesOf mailbox).length ≤ ids.length := by
  obtain ⟨names, middle, found, same, among⟩ := @stored_mailboxDirectories server world
  obtain ⟨ids, after, scanned, shown⟩ := @scan_sees server names mailbox middle (met names among)
  rw [same.filesOf] at shown
  exact ⟨ids, after, by rw [getAllMessages, Effect.bind_ok found, scanned], shown⟩

theorem queriedIds_sees {request : EmailQueryRequest}
    (sees : ¬(EmailCall.query request).NamesNothing server) :
    ∃ mailbox : MailboxId, ∀ world : JmapWorld Filesystem,
      world.store.folders.keys = [mailbox] →
        ∃ ids after, queriedIds server.context request world = (.ok ids, after) ∧
          (world.store.filesOf mailbox).length ≤ ids.length := by
  rw [EmailCall.NamesNothing, not_or] at sees
  replace sees := sees.2
  rw [queriedIds]
  cases asked : request.filter.bind EmailFilterCondition.inMailbox with
  | some id =>
      rw [asked] at sees
      obtain ⟨uuid, read⟩ := Option.ne_none_iff_exists'.mp sees
      refine ⟨⟨uuid⟩, fun world _ => ?_⟩
      obtain ⟨after, listed, _⟩ := @stored_listed server ⟨uuid⟩ world
      dsimp only
      rw [parseMailboxId, read]
      dsimp only
      refine ⟨_, after, by rw [Effect.bind_ok listed]; rfl, ?_⟩
      rw [List.length_map, listed_length]
  | none =>
      rw [asked] at sees
      dsimp only at sees ⊢
      cases kept : server.foreign with
      | none =>
          refine ⟨⟨0⟩, fun world only => getAllMessages_sees fun names among => ?_⟩
          rw [kept, only] at among
          rcases among with elsewhere | ⟨_, same⟩
          · cases elsewhere
          · refine ⟨_, same.mem_iff.mpr (List.mem_map_of_mem List.mem_cons_self), ?_⟩
            exact parseUuid_display ⟨0⟩
      | some names =>
          rw [kept] at sees
          simp only [Option.some.injEq, exists_eq_left', not_forall] at sees
          obtain ⟨name, member, read⟩ := sees
          obtain ⟨uuid, read⟩ := Option.ne_none_iff_exists'.mp read
          refine ⟨⟨uuid⟩, fun world _ => getAllMessages_sees fun found among => ?_⟩
          rw [kept] at among
          rcases among with same | ⟨elsewhere, _⟩
          · cases same
            exact ⟨name, member, read⟩
          · cases elsewhere

theorem heldStore_keys {host : Host} (mailbox : MailboxId) (id : MessageId) (count : Nat)
    (quotas : Table Username Quota) :
    (heldStore host user mailbox id count quotas).folders.keys = [mailbox] := by
  rw [heldStore, AList.keys_insert, AList.keys_empty]
  rfl

theorem query_namesNothing {request : EmailQueryRequest}
    (isolated : (EmailCall.query request).IsolatedFrom server principal user)
    (owned : principal.ownsAccount request.accountId = true) :
    (EmailCall.query request).NamesNothing server := by
  by_contra sees
  have shows : ¬request.Blind := fun blind => sees (.inl blind)
  obtain ⟨bound, long⟩ := queryPage_sees shows
  obtain ⟨mailbox, looks⟩ := queriedIds_sees sees
  obtain ⟨ids, after, found, shown⟩ := looks
    ⟨heldStore server.host user mailbox ⟨0⟩ bound ∅, 0⟩ (heldStore_keys _ _ _ _)
  rw [heldStore_filesOf] at shown
  obtain ⟨bareAfter, nothing⟩ := @queriedIds_bare server request ⟨bareStore bound ∅, 0⟩ ⟨rfl, rfl⟩
  have same := isolated.alike 0 bound ∅ mailbox ⟨0⟩
  have answer : ∀ world ids after, queriedIds server.context request world = (.ok ids, after) →
      (emailQuery server.context request principal world).1 = queryPage request ids := by
    intro world ids after ran
    rw [emailQuery, ensureAccountOwnership_owned owned, pure_bind, Effect.bind_ok ran]
    rfl
  simp only [EmailCall.run, map_outcome, answer _ _ _ found, answer _ _ _ nothing,
    queryPage_nil] at same
  cases page : queryPage request ids with
  | error fault =>
      rw [page] at same
      cases same
  | ok response =>
      rw [page] at same
      have equal : response = blankPage request := EmailAnswer.query.inj (Except.ok.inj same)
      rw [equal] at page
      exact long ids shown page

theorem namesNothing_of_isolated {call : EmailCall}
    (isolated : call.IsolatedFrom server principal user)
    (owned : principal.ownsAccount call.accountId = true) : call.NamesNothing server := by
  cases call with
  | get request => exact get_unread isolated owned
  | set request =>
      exact ⟨set_creates_unfiled isolated owned, set_updates_unread isolated owned,
        set_destroys_unread isolated owned⟩
  | query request => exact query_namesNothing isolated owned

end Named

def Confusable (first second : Char) : Prop :=
  first = second ∨ first ∈ ['@', '-'] ∧ second ∈ ['@', '-']

theorem dashed_eq_iff {first second : Char} :
    dashed first = dashed second ↔ Confusable first second := by
  simp only [dashed, Confusable, List.mem_cons, List.not_mem_nil, or_false]
  split <;> split <;> grind

theorem deriveAccountId_eq_iff {first second : Text} :
    deriveAccountId first = deriveAccountId second ↔ List.Forall₂ Confusable first second := by
  calc deriveAccountId first = deriveAccountId second
      ↔ first.map dashed = second.map dashed := List.append_right_inj _
    _ ↔ List.Forall₂ Eq (first.map dashed) (second.map dashed) := by rw [List.forall₂_eq_eq_eq]
    _ ↔ List.Forall₂ (fun one other => dashed one = dashed other) first second := by
      rw [List.forall₂_map_left_iff, List.forall₂_map_right_iff]
    _ ↔ List.Forall₂ Confusable first second := by simp only [dashed_eq_iff]

/-- Two accounts are told apart unless their names are confusable, and a call that owns its
account is kept from the mail of another user exactly when it names nothing. -/
theorem accounts_isolated_iff (server : JmapServer) (caller user : Username) :
    (deriveAccountId caller.text ≠ deriveAccountId user.text ↔
      ¬List.Forall₂ Confusable caller.text user.text) ∧
    ∀ call : EmailCall, (Principal.fromUsername caller.text).ownsAccount call.accountId = true →
      (call.IsolatedFrom server (Principal.fromUsername caller.text) user ↔
        call.NamesNothing server) := by
  refine ⟨not_congr deriveAccountId_eq_iff, fun call owned => ?_⟩
  constructor
  · intro isolated
    exact namesNothing_of_isolated isolated owned
  · exact isolated_of_namesNothing

def localServer : JmapServer where
  host := plainHost
  threadOf _ _ := none
  assignedThread _ := none
  foreign := none
  computeBlobId _ := []
  parseRfcDate _ := none
  formatRfcDate _ := []
  uuidError _ := "invalid".toList
  now draws := draws
  newUuid draws := BitVec.ofNat 128 draws

def destroyCall (id : MessageId) : EmailCall :=
  .set ⟨"account-alice".toList, none, none, some [id.display]⟩

theorem accounts_of_two_users :
    deriveAccountId aliceUser.text ≠ deriveAccountId FilesystemBackend.bobUser.text ∧
      (EmailCall.get ⟨"account-alice".toList, some ["nothing".toList]⟩).IsolatedFrom localServer
        (Principal.fromUsername aliceUser.text) FilesystemBackend.bobUser ∧
      ¬(destroyCall ⟨7⟩).IsolatedFrom localServer (Principal.fromUsername aliceUser.text)
        FilesystemBackend.bobUser := by
  have law := accounts_isolated_iff localServer aliceUser FilesystemBackend.bobUser
  refine ⟨law.1.mpr ?_, (law.2 _ (by decide)).mpr ?_, fun isolated => ?_⟩
  · intro alike
    exact absurd alike.length_eq (by decide)
  · intro id member
    cases List.mem_singleton.mp member
    decide
  · have unread := ((law.2 _ (by decide)).mp isolated).2.2
    have read := unread _ (List.mem_singleton_self (MessageId.display ⟨7⟩))
    rw [parseUuid_display] at read
    cases read

/-- Two users share an account, and one destroys the message of another. -/
theorem stranger_destroys_message :
    (deriveAccountId "ann@home".toList = deriveAccountId "ann-home".toList) ∧
    let store := heldStore plainHost FilesystemBackend.bobUser ⟨1⟩ ⟨7⟩ 1 ∅
    let answered := (destroyCall ⟨7⟩).run localServer.context
      (Principal.fromUsername aliceUser.text) ⟨store, 0⟩
    (store.filesOf ⟨1⟩).length = 1 ∧ answered.2.store.filesOf ⟨1⟩ = [] := by
  refine ⟨by decide, ?_⟩
  decide +kernel

end Rusmes
