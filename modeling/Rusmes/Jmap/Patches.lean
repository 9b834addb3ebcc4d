import Rusmes.Imap.Flags
import Rusmes.Jmap.Exposed
import Rusmes.Jmap.PatchReading
import Rusmes.Proto.StoredId
import Rusmes.Storage.Accounting

/-!
Email/set updates over the filesystem backend, where no listing shows a message under the
identifier its files carry: what an update makes of the keywords and mailboxes of a message
against what its patch asks.
-/

namespace Rusmes

open WireText

namespace Filesystem

/-- Every copy of the message carries the keywords, and the mailboxes are those with a copy. -/
structure Displays (host : Host) (store : Filesystem) (messageId : MessageId)
    (keywords : Text → Bool) (mailboxes : MailboxId → Bool) : Prop where
  keywords : ∀ id, ∀ file ∈ store.filesOf id, storedId host file = some messageId →
    ∀ keyword, (MaildirFilename.decodeFlags file.name).holdsKeyword keyword = keywords keyword
  mailboxes : ∀ id, mailboxes id = true ↔
    ∃ file ∈ store.filesOf id, storedId host file = some messageId

def otherFiles (host : Host) (store : Filesystem) (messageId : MessageId) (id : MailboxId) :
    List MailFile :=
  (store.filesOf id).filter fun file => !carriesId host [messageId] file

end Filesystem

section Claimed

structure PatchApplied (host : Host) (before after : Filesystem) (messageId : MessageId)
    (patch : List (Text × JsonValue)) (keywords : Text → Bool) (mailboxes : MailboxId → Bool) :
    Prop where
  shows : after.Displays host messageId
    (fun keyword => wantedKeyword host.toCaseMapping patch keyword (keywords keyword))
    (fun mailbox => wantedMailbox patch mailbox (mailboxes mailbox))
  named : NamesMailboxes patch
  others : ∀ id, (after.otherFiles host messageId id).Perm (before.otherFiles host messageId id)

def updateRequest (accountId id : Text) (patch : List (Text × JsonValue)) : EmailSetRequest :=
  { accountId, create := none, update := some [(id, .object patch)], destroy := none }

/-- What is listed under `updated` has the patch applied, and a patch with another path is
listed under `notUpdated`. -/
def PatchHonoured (server : JmapServer) (principal : Principal) (accountId id : Text)
    (messageId : MessageId) (patch : List (Text × JsonValue)) (keywords : Text → Bool)
    (mailboxes : MailboxId → Bool) (world : JmapWorld Filesystem) : Prop :=
  ∀ response after, emailSet server.context (updateRequest accountId id patch) principal world =
      (.ok response, after) →
    (id ∈ (response.updated.getD []).map Prod.fst →
      PatchApplied server.host world.store after.store messageId patch keywords mailboxes) ∧
    ((∃ entry ∈ patch, patchPath entry.1 = none) →
      id ∈ (response.notUpdated.getD []).map Prod.fst)

end Claimed

/-- The mailboxes among those asked for that take a copy: they are there, and their owner's
quota has room for it after the copies before. -/
def takers (owner : MailboxId → Option Username) (size : Nat) :
    (Username → Quota) → List MailboxId → List MailboxId
  | _, [] => []
  | quota, mailbox :: rest =>
    match owner mailbox with
    | none => takers owner size quota rest
    | some user =>
      if (quota user).used + UInt64.ofNat size ≤ (quota user).limit then
        let charged := { quota user with used := (quota user).used + UInt64.ofNat size }
        mailbox :: takers owner size (Function.update quota user charged) rest
      else takers owner size quota rest

theorem holdsKeyword_system (flags : MessageFlags) (keyword : Text) :
    flags.system.holdsKeyword keyword =
      (decide (keyword ∈ systemKeywords) && flags.holdsKeyword keyword) := by
  rw [MessageFlags.holdsKeyword, MessageFlags.holdsKeyword, systemKeywords]
  generalize "$seen".toList = seen, "$answered".toList = answered, "$flagged".toList = flagged,
    "$deleted".toList = deleted, "$draft".toList = draft
  split_ifs <;> simp [MessageFlags.system, *]

theorem holdsKeyword_told {σ : Type} (ctx : JmapContext σ) (told : List (Text × Bool)) (keyword : Text) :
    (setTold ctx .new told).system.holdsKeyword keyword =
      (decide (keyword ∈ systemKeywords) && toldKeyword ctx.toCaseMapping told keyword) := by
  rw [holdsKeyword_system, holdsKeyword_setTold, holdsKeyword_new, toldKeyword]

namespace MaildirFilename

theorem decodeFlags_plain {filename : Text} (plain : ':' ∉ filename) :
    decodeFlags filename = .new := by
  have none : flagPart filename = [] := by
    rw [flagPart]
    cases found : splitOnceAt separator filename with
    | none => rfl
    | some parts =>
      exfalso
      apply plain
      rw [splitOnceAt_eq_some found, separator]
      simp
  rw [decodeFlags, none]
  rfl

theorem decodeFlags_generate {hostname : Text} (plain : ':' ∉ hostname) (pid counter : Nat)
    (now : Nat × Nat) : decodeFlags (generate hostname pid counter now) = .new := by
  apply decodeFlags_plain
  rw [generate]
  simp [not_mem_decimal, plain]

end MaildirFilename

namespace Filesystem

variable {host : Host} {store next : Filesystem} {messageId : MessageId} {mail : Mail}

/-- A mail of the message that keeps its identifier when it is written to a file, its fields
being free of line feeds. -/
structure Proper (host : Host) (messageId : MessageId) (mail : Mail) : Prop where
  named : mail.messageId = messageId
  drained : { mail with message.body := mail.message.body.drained } = mail
  kept : mail.IdKept host.toCaseMapping
  plain : mail.PlainHeaders

/-- A store that holds a message: what is cached and what was written of it are mails of its
identifier, and that identifier is not drawn again. -/
structure Held (host : Host) (messageId : MessageId) (store : Filesystem) : Prop where
  orderly : store.Orderly
  written : ∀ id, ∀ file ∈ store.filesOf id, storedId host file = some messageId →
    ∃ mail : Mail, mail.PlainHeaders ∧ file.data = serializeMessageToBytes mail
  cached : ∀ mail, store.messages.lookup messageId = some mail → Proper host messageId mail
  fresh : ∀ moment, store.moment ≤ moment → host.newUuid moment ≠ messageId.uuid

structure Reads (store next : Filesystem) : Prop where
  same : next = { store with messages := next.messages, moment := next.moment }
  later : store.moment ≤ next.moment

theorem Reads.folder (reads : Reads store next) (id : MailboxId) :
    next.folder id = store.folder id := by
  rw [reads.same]
  rfl

theorem Reads.filesOf (reads : Reads store next) (id : MailboxId) :
    next.filesOf id = store.filesOf id := by
  rw [Filesystem.filesOf, Filesystem.filesOf, reads.folder]

theorem Reads.quotaOf (reads : Reads store next) : next.quotaOf = store.quotaOf := by
  rw [reads.same]
  rfl

theorem Held.reads (held : Held host messageId store) (reads : Reads store next)
    (cached : ∀ mail, next.messages.lookup messageId = some mail → Proper host messageId mail) :
    Held host messageId next where
  orderly := by
    have same : SameDisk store next := by
      rw [reads.same]
      exact ⟨rfl, rfl⟩
    exact same.orderly held.orderly
  written id file member := by
    rw [reads.filesOf] at member
    exact held.written id file member
  cached := cached
  fresh moment later := held.fresh moment (reads.later.trans later)

theorem Held.unlisted (held : Held host messageId store) {id : MailboxId} {file : MailFile}
    (member : file ∈ store.filesOf id) : listedId host file ≠ some messageId := by
  intro listed
  obtain ⟨mail, plain, data⟩ := held.written id file member (storedId_of_listedId listed)
  rw [listedId, data, listedId_serialize host.toCaseMapping plain] at listed
  cases listed

theorem Held.shown (held : Held host messageId store) {id : MailboxId} {file : MailFile}
    (member : file ∈ store.filesOf id) {moment : Nat} (later : store.moment ≤ moment) :
    shownId host moment file ≠ messageId := by
  rw [shownId]
  cases listed : listedId host file with
  | none =>
    rw [Option.getD_none]
    intro same
    exact held.fresh moment later (congrArg MessageId.uuid same)
  | some other =>
    rw [Option.getD_some]
    rintro rfl
    exact held.unlisted member listed

theorem Held.listing (held : Held host messageId store) (id : MailboxId) :
    ∃ next, getMailboxMessages host id store = (.ok (listed host store id), next) ∧
      Reads store next ∧ next.messages.lookup messageId = store.messages.lookup messageId ∧
      ∀ entry ∈ listed host store id, entry.messageId ≠ messageId := by
  have hidden : ∀ entry ∈ listed host store id, entry.messageId ≠ messageId := by
    intro entry member
    rw [listed_eq] at member
    obtain ⟨origin, among, rfl⟩ := List.mem_map.mp member
    exact held.shown (mem_filesOf_of_entry among) (by omega)
  refine ⟨_, getMailboxMessages_listed host id store, ?_, ?_, hidden⟩
  · cases found : store.folder id with
    | none =>
      rw [getMailboxMessages_missing found]
      exact ⟨rfl, by simp⟩
    | some folder =>
      rw [getMailboxMessages_found found]
      exact ⟨rfl, by simp; omega⟩
  · cases found : store.folder id with
    | none => rw [getMailboxMessages_missing found]
    | some folder =>
      rw [getMailboxMessages_found found]
      rcases lookup_cacheListed (store.moment + 2) (folderWalk host store.moment folder)
        store.messages messageId with ⟨entry, member, shown, _⟩ | ⟨_, same⟩
      · have inside : entry.1 ∈ store.filesOf id := by
          rw [filesOf_found found, ← (folderWalk_perm host store.moment folder).mem_iff]
          exact List.fst_mem_of_mem_zipIdx member
        exact absurd shown (held.shown inside (by omega))
      · exact same

theorem proper_mailOf {file : MailFile} (carries : storedId host file = some messageId)
    (moment : Nat) : Proper host messageId (mailOf host moment messageId file) where
  named := rfl
  drained := rfl
  kept := by
    have copied := @storedId_reserialize host.toCaseMapping file.data
      (mailOf host moment messageId file) rfl
    rw [Mail.IdKept, copied]
    cases field : (MimeMessage.parseFromBytes host.toCaseMapping file.data).headers.getFirst
        host.toCaseMapping rusmesMessageId with
    | none => rfl
    | some value => exact carries
  plain := plainHeaders_of_parsed (congrArg MimeMessage.headers
    (mailOf_parsed host moment messageId file))

theorem Held.found (held : Held host messageId store) (there : OnDisk host messageId store) :
    ∃ mail next, getMessage host messageId store = (.ok (some mail), next) ∧ Reads store next ∧
      next.messages.lookup messageId = some mail ∧ Proper host messageId mail := by
  obtain ⟨mail, next, ran⟩ := getMessage_onDisk there
  rw [getMessage, Effect.read_bind] at ran
  cases cached : store.messages.lookup messageId with
  | some kept =>
    refine ⟨kept, store, ?_, ⟨rfl, le_rfl⟩, cached, held.cached kept cached⟩
    rw [getMessage, Effect.read_bind, cached]
    rfl
  | none =>
    let walked := ((host.walkMailboxes store.moment store.folders.keys).filterMap
      store.folder).flatMap (folderWalk host store.moment)
    have walk : walk host store = (.ok walked, { store with moment := store.moment + 2 }) := rfl
    rw [cached] at ran
    dsimp only at ran
    rw [Effect.bind_ok walk] at ran
    cases search : walked.find? fun file => storedId host file = some messageId with
    | none =>
      rw [search] at ran
      cases ran
    | some file =>
      rw [search] at ran
      cases ran
      have carries : storedId host file = some messageId := by
        simpa using List.find?_some search
      let mail := mailOf host (store.moment + 2) messageId file
      refine ⟨mail, { store with
        moment := store.moment + 2 + 1, messages := store.messages.insert messageId mail }, ?_,
        ⟨rfl, ?_⟩, ?_, proper_mailOf carries _⟩
      · rw [getMessage, Effect.read_bind, cached]
        dsimp only
        rw [Effect.bind_ok walk, search]
        rfl
      · show store.moment ≤ store.moment + 2 + 1
        omega
      · exact AList.lookup_insert store.messages

theorem filesOf_setFlags (orderly : store.Orderly) (ids : List MessageId) (flags : MessageFlags)
    (id : MailboxId) : ((setFlags host ids flags store).2.filesOf id).Perm
      ((store.filesOf id).map (flaggedFile host ids flags)) := by
  rw [filesOf, folder_setFlags, filesOf]
  cases found : store.folder id with
  | none => exact List.Perm.refl _
  | some folder => exact flagFolder_files host ids flags store.moment (orderly.wellNamed found)

theorem Held.setFlags (held : Held host messageId store) (ids : List MessageId)
    (flags : MessageFlags) : Held host messageId (setFlags host ids flags store).2 where
  orderly := @perform_orderly host store (.setFlags ids flags) (by simp) held.orderly
  written id file member := by
    rw [(filesOf_setFlags held.orderly ids flags id).mem_iff] at member
    obtain ⟨before, inside, rfl⟩ := List.mem_map.mp member
    rw [storedId, flaggedFile_data]
    exact held.written id before inside
  cached := held.cached
  fresh moment later := held.fresh moment (Nat.le_of_succ_le (Nat.le_of_succ_le later))

/-! Copies. -/

def ownerOf (store : Filesystem) (id : MailboxId) : Option Username :=
  (store.folder id).map fun folder => folder.mailbox.path.user

theorem Reads.ownerOf (reads : Reads store next) : next.ownerOf = store.ownerOf := by
  funext id
  rw [Filesystem.ownerOf, Filesystem.ownerOf, reads.folder]

theorem filesOf_appended (orderly : store.Orderly) {dest : MailboxId} {folder : Folder}
    (found : store.folder dest = some folder) (user : Username) (id : MailboxId) :
    ((appended host dest mail user store).filesOf id).Perm
      (store.filesOf id ++ if id = dest then [deliveredFile host store mail] else []) := by
  rw [filesOf, folder_appended]
  by_cases here : id = dest
  · subst here
    rw [if_pos rfl, if_pos rfl, found, filesOf_found found]
    have placed := (receiveFile_numbered host mail (orderly id folder found)).1
    change (receiveFile (deliveredFile host store mail) folder).files.Perm _
    rw [Folder.files, placed, Folder.files]
    change (folder.new ++ [deliveredFile host store mail] ++ folder.cur).Perm _
    rw [List.append_assoc, List.append_assoc]
    exact List.perm_append_comm.append_left folder.new
  · rw [if_neg here, if_neg here, List.append_nil]
    exact List.Perm.refl _

theorem ownerOf_appended (dest : MailboxId) (user : Username) :
    (appended host dest mail user store).ownerOf = store.ownerOf := by
  funext id
  rw [ownerOf, ownerOf, folder_appended]
  split
  · rename_i here
    cases store.folder id <;> rfl
  · rfl

theorem quotas_appended (dest : MailboxId) (user : Username) :
    (appended host dest mail user store).quotaOf = Function.update store.quotaOf user
      { store.quotaOf user with used := (store.quotaOf user).used + UInt64.ofNat mail.size } := by
  funext other
  rw [quotaOf_appended, Function.update_apply]

theorem Held.appended (held : Held host messageId store) (proper : Proper host messageId mail)
    {dest : MailboxId} {folder : Folder} (found : store.folder dest = some folder)
    (admitted : store.admits folder.mailbox.path.user mail.size) :
    Held host messageId (appended host dest mail folder.mailbox.path.user store) where
  orderly := by
    have kept := @appendMessage_orderly host dest store mail held.orderly
    rwa [appendMessage_accepted found admitted] at kept
  written id file member carries := by
    rw [(filesOf_appended held.orderly found _ id).mem_iff] at member
    rcases List.mem_append.mp member with before | new
    · exact held.written id file before carries
    · split at new
      · rw [List.mem_singleton.mp new]
        exact ⟨mail, proper.plain, rfl⟩
      · cases new
  cached other cached := by
    have inserted : (Filesystem.appended host dest mail folder.mailbox.path.user
        store).messages.lookup messageId = some mail := by
      rw [← proper.named]
      exact (AList.lookup_insert store.messages).trans (congrArg some proper.drained)
    rw [inserted] at cached
    cases cached
    exact proper
  fresh moment later := held.fresh moment (Nat.le_of_succ_le later)

/-- A store in which the message has been filed in some mailboxes since a base. -/
structure Filed (host : Host) (messageId : MessageId) (mail : Mail) (base : Filesystem)
    (done : List MailboxId) (store : Filesystem) : Prop where
  held : Held host messageId store
  cached : store.messages.lookup messageId = some mail
  owner : store.ownerOf = base.ownerOf
  files : ∀ id, ∃ copies, (store.filesOf id).Perm (base.filesOf id ++ copies) ∧
    (∀ copy ∈ copies, storedId host copy = some messageId ∧
      MaildirFilename.decodeFlags copy.name = .new) ∧
    (copies = [] ↔ id ∉ done)

section Filing

variable {base : Filesystem} {done : List MailboxId}

theorem Filed.start (held : Held host messageId base)
    (cached : base.messages.lookup messageId = some mail) :
    Filed host messageId mail base [] base := by
  refine ⟨held, cached, rfl, fun id => ⟨[], ?_, ?_, ?_⟩⟩
  · rw [List.append_nil]
  · simp
  · simp

theorem Filed.reads (filed : Filed host messageId mail base done store)
    (reads : Reads store next)
    (same : next.messages.lookup messageId = store.messages.lookup messageId) :
    Filed host messageId mail base done next := by
  refine ⟨filed.held.reads reads ?_, ?_, ?_, fun id => ?_⟩
  · intro mail cached
    exact filed.held.cached mail (same.symm.trans cached)
  · rw [same, filed.cached]
  · rw [reads.ownerOf, filed.owner]
  · rw [reads.filesOf]
    exact filed.files id

theorem storedId_delivered (proper : Proper host messageId mail) :
    storedId host (deliveredFile host store mail) = some messageId :=
  proper.kept.trans (congrArg some proper.named)

theorem Filed.appended (plainHost : ':' ∉ host.hostname)
    (filed : Filed host messageId mail base done store) {dest : MailboxId} {folder : Folder}
    (found : store.folder dest = some folder)
    (admitted : store.admits folder.mailbox.path.user mail.size) :
    Filed host messageId mail base (done ++ [dest])
      (appended host dest mail folder.mailbox.path.user store) := by
  have proper := filed.held.cached mail filed.cached
  have held := filed.held.appended proper found admitted
  refine ⟨held, ?_, ?_, fun id => ?_⟩
  · rw [← proper.named]
    exact (AList.lookup_insert store.messages).trans (congrArg some proper.drained)
  · rw [ownerOf_appended, filed.owner]
  · obtain ⟨copies, files, carry, none⟩ := filed.files id
    have grown := @filesOf_appended host store mail filed.held.orderly dest folder found
      folder.mailbox.path.user id
    by_cases here : id = dest
    · subst here
      rw [if_pos rfl] at grown
      refine ⟨copies ++ [deliveredFile host store mail], ?_, ?_, ?_⟩
      · rw [← List.append_assoc]
        exact grown.trans (files.append_right _)
      · intro copy member
        rcases List.mem_append.mp member with before | new
        · exact carry copy before
        · rw [List.mem_singleton.mp new]
          exact ⟨storedId_delivered proper, MaildirFilename.decodeFlags_generate plainHost _ _ _⟩
      · simp
    · rw [if_neg here, List.append_nil] at grown
      refine ⟨copies, grown.trans files, carry, ?_⟩
      simp [none, here]

end Filing

end Filesystem

/-! A store with one message. -/

section Delivered

open Filesystem

variable {host : Host} {user : Username} {mailbox : MailboxId} {messageId : MessageId}
  {count : Nat} {quotas : Table Username Quota}

theorem mem_heldStore {id : MailboxId} {file : MailFile}
    (member : file ∈ (heldStore host user mailbox messageId count quotas).filesOf id) :
    id = mailbox ∧ ∃ number, file = heldNote host messageId number := by
  cases found : (heldStore host user mailbox messageId count quotas).folder id with
  | none =>
    rw [filesOf, found] at member
    cases member
  | some folder =>
    obtain ⟨rfl, rfl⟩ := heldStore_folder_of found
    rw [filesOf_found found, Folder.files, heldFolder, List.nil_append] at member
    obtain ⟨number, -, rfl⟩ := List.mem_map.mp member
    exact ⟨rfl, number, rfl⟩

theorem heldStore_held (fresh : ∀ moment, host.newUuid moment ≠ messageId.uuid) :
    Held host messageId (heldStore host user mailbox messageId count quotas) where
  orderly := heldStore_orderly
  written id file member _ := by
    obtain ⟨-, number, rfl⟩ := mem_heldStore member
    exact ⟨_, plainHeaders_of_parsed (congrArg MimeMessage.headers
      (mailOf_parsed host 0 messageId ⟨[], [], ⟨0, 0⟩⟩)), rfl⟩
  cached mail found := by cases found
  fresh moment _ := fresh moment

theorem heldStore_shows (plainHost : ':' ∉ host.hostname) :
    (heldStore host user mailbox messageId (count + 1) quotas).Displays host messageId
      (fun _ => false) fun id => decide (id = mailbox) where
  keywords id file member _ keyword := by
    obtain ⟨-, number, rfl⟩ := mem_heldStore member
    rw [heldNote, MaildirFilename.decodeFlags_generate plainHost, holdsKeyword_new]
  mailboxes id := by
    rw [decide_eq_true_eq]
    constructor
    · rintro rfl
      refine ⟨heldNote host messageId 1, ?_, heldNote_stored host messageId 1⟩
      rw [filesOf_found heldStore_folder, Folder.files, heldFolder, List.nil_append]
      exact List.mem_map.mpr ⟨1, List.mem_range'.mpr ⟨0, by omega, rfl⟩, rfl⟩
    · rintro ⟨file, member, -⟩
      exact (mem_heldStore member).1

end Delivered

section Update

open Filesystem

variable {server : JmapServer} {world : JmapWorld Filesystem} {messageId : MessageId} {mail : Mail}
  {base : Filesystem} {done : List MailboxId}

theorem containsMessage_hidden (held : Held server.host messageId world.store) (id : MailboxId) :
    ∃ next, containsMessage server.context messageId id world =
        (.ok false, { world with store := next }) ∧
      Filesystem.Reads world.store next ∧
      next.messages.lookup messageId = world.store.messages.lookup messageId := by
  obtain ⟨next, ran, reads, same, hidden⟩ := held.listing id
  refine ⟨next, ?_, reads, same⟩
  have listing : stored (Effect.unwrapOr [] (server.context.messageStore.getMailboxMessages id))
      world = (.ok (listed server.host world.store id), { world with store := next }) := by
    rw [stored, Effect.unwrapOr_apply,
      show server.context.messageStore.getMailboxMessages id world.store = _ from ran]
    rfl
  rw [containsMessage, Effect.bind_ok listing, Effect.pure_apply]
  have absent : (listed server.host world.store id).any (·.messageId = messageId) = false := by
    simpa using hidden
  rw [absent]

theorem readMessageFlags_hidden (held : Held server.host messageId world.store) (id : MailboxId) :
    ∃ next, readMessageFlags server.context messageId id world =
        (.ok none, { world with store := next }) ∧
      Filesystem.Reads world.store next ∧
      next.messages.lookup messageId = world.store.messages.lookup messageId := by
  obtain ⟨next, ran, reads, same, hidden⟩ := held.listing id
  refine ⟨next, ?_, reads, same⟩
  have listing : stored (server.context.messageStore.getMailboxMessages id) world =
      (.ok (listed server.host world.store id), { world with store := next }) := by
    rw [stored, show server.context.messageStore.getMailboxMessages id world.store = _ from ran]
    rfl
  have absent : (listed server.host world.store id).find? (·.messageId = messageId) = none := by
    simpa using hidden
  rw [readMessageFlags, Effect.bind_ok listing, Effect.pure_apply, absent]
  rfl

theorem removeFromMailbox_hidden
    (filed : Filesystem.Filed server.host messageId mail base done world.store) (id : MailboxId) :
    ∃ next, removeFromMailbox server.context messageId id world =
        (.ok (), { world with store := next }) ∧
      Filesystem.Filed server.host messageId mail base done next ∧
      next.quotaOf = world.store.quotaOf := by
  obtain ⟨next, ran, reads, same⟩ := containsMessage_hidden filed.held id
  refine ⟨next, ?_, filed.reads reads same, reads.quotaOf⟩
  rw [removeFromMailbox, Effect.bind_ok ran]
  rfl

theorem fileInMailbox_filed (plainHost : ':' ∉ server.host.hostname)
    (filed : Filesystem.Filed server.host messageId mail base done world.store) (dest : MailboxId) :
    ∃ next done', fileInMailbox server.context messageId dest world =
        (.ok (), { world with store := next }) ∧
      Filesystem.Filed server.host messageId mail base done' next ∧
      ∀ more, done' ++ takers base.ownerOf mail.size next.quotaOf more =
        done ++ takers base.ownerOf mail.size world.store.quotaOf (dest :: more) := by
  obtain ⟨listing, ran, reads, same⟩ := containsMessage_hidden filed.held dest
  have before := filed.reads reads same
  have step : fileInMailbox server.context messageId dest world =
      (.ok (), { world with
        store := (copyMessages server.host dest [messageId] listing).2 }) := by
    rw [fileInMailbox, Effect.bind_ok ran]
    rfl
  rcases appendMessage_cases server.host dest mail listing with
    ⟨error, refused, stopped⟩ | ⟨folder, found, admitted, accepted⟩
  · refine ⟨listing, done, ?_, before, fun more => ?_⟩
    · rw [step, copyMessages_stopped before.cached stopped]
    · rw [takers, reads.quotaOf]
      cases owned : base.ownerOf dest with
      | none => rfl
      | some user =>
        dsimp only
        rw [← before.owner, ownerOf] at owned
        obtain ⟨folder, found, rfl⟩ := Option.map_eq_some_iff.mp owned
        have full := refused folder found
        rw [admits, reads.quotaOf] at full
        rw [if_neg full]
  · refine ⟨_, done ++ [dest], ?_, before.appended plainHost found admitted, fun more => ?_⟩
    · rw [step, (copyMessages_after before.cached accepted).1]
      rfl
    · have owned : base.ownerOf dest = some folder.mailbox.path.user := by
        rw [← before.owner, ownerOf, found]
        rfl
      rw [admits, reads.quotaOf] at admitted
      rw [quotas_appended, reads.quotaOf, takers, owned]
      dsimp only
      rw [if_pos admitted, List.append_assoc]
      rfl

def FiledBy (server : JmapServer) (messageId : MessageId) (mail : Mail) (base : Filesystem)
    (targets : List MailboxId) (program : JmapProgram Filesystem Unit) : Prop :=
  ∀ world done, Filesystem.Filed server.host messageId mail base done world.store →
    ∃ next done', program world = (.ok (), { world with store := next }) ∧
      Filesystem.Filed server.host messageId mail base done' next ∧
      ∀ more, done' ++ takers base.ownerOf mail.size next.quotaOf more =
        done ++ takers base.ownerOf mail.size world.store.quotaOf (targets ++ more)

theorem FiledBy.nothing : FiledBy server messageId mail base [] (pure ()) :=
  fun world done filed => ⟨world.store, done, rfl, filed, fun _ => rfl⟩

theorem FiledBy.bind {first second : List MailboxId}
    {program next : JmapProgram Filesystem Unit}
    (one : FiledBy server messageId mail base first program)
    (two : FiledBy server messageId mail base second next) :
    FiledBy server messageId mail base (first ++ second) (program >>= fun _ => next) := by
  intro world done filed
  obtain ⟨middle, between, ran, filedBetween, firstTook⟩ := one world done filed
  obtain ⟨last, done', ranOn, filedLast, secondTook⟩ :=
    two { world with store := middle } between filedBetween
  refine ⟨last, done', ?_, filedLast, fun more => ?_⟩
  · rw [Effect.bind_ok ran, ranOn]
  · rw [secondTook, firstTook, List.append_assoc]

theorem filedBy_file (plainHost : ':' ∉ server.host.hostname) (dest : MailboxId) :
    FiledBy server messageId mail base [dest]
      (fileInMailbox server.context messageId dest) :=
  fun _ _ filed => fileInMailbox_filed plainHost filed dest

theorem filedBy_remove (id : MailboxId) :
    FiledBy server messageId mail base [] (removeFromMailbox server.context messageId id) := by
  intro world done filed
  obtain ⟨next, ran, filedNext, quotas⟩ := removeFromMailbox_hidden filed id
  refine ⟨next, done, ran, filedNext, fun more => ?_⟩
  rw [quotas]
  rfl

theorem filedBy_steps (plainHost : ':' ∉ server.host.hostname) (steps : List MailboxStep) :
    FiledBy server messageId mail base (steps.flatMap MailboxStep.target)
      (runSteps server.context messageId steps) := by
  induction steps with
  | nil => exact FiledBy.nothing
  | cons step steps ih =>
    rw [List.flatMap_cons, runSteps]
    cases step with
    | file mailbox => exact (filedBy_file plainHost mailbox).bind ih
    | remove mailbox => exact (filedBy_remove mailbox).bind ih

def toldFile (server : JmapServer) (messageId : MessageId) :
    Option (List (Text × Bool)) → MailFile → MailFile
  | none, file => file
  | some told, file =>
    flaggedFile server.host [messageId] (setTold server.context .new told) file

theorem storedId_toldFile (heard : Option (List (Text × Bool))) (file : MailFile) :
    storedId server.host (toldFile server messageId heard file) = storedId server.host file := by
  cases heard with
  | none => rfl
  | some told => rw [toldFile, storedId, flaggedFile_data, storedId]

theorem carriesId_single {host : Host} {file : MailFile} :
    carriesId host [messageId] file = true ↔ storedId host file = some messageId := by
  rw [carriesId]
  cases storedId host file <;> simp

theorem toldFile_other (heard : Option (List (Text × Bool))) {file : MailFile}
    (other : carriesId server.host [messageId] file = false) :
    toldFile server messageId heard file = file := by
  cases heard with
  | none => rfl
  | some told => rw [toldFile, flaggedFile, other]; rfl

structure Told (server : JmapServer) (messageId : MessageId)
    (heard : Option (List (Text × Bool))) (store base : Filesystem) : Prop where
  owner : base.ownerOf = store.ownerOf
  quota : base.quotaOf = store.quotaOf
  files : ∀ id, (base.filesOf id).Perm ((store.filesOf id).map (toldFile server messageId heard))

theorem requireMessage_held (held : Held server.host messageId world.store)
    (there : OnDisk server.host messageId world.store) (id : Text) :
    ∃ mail next, (getMessage server.host messageId world.store).1 = .ok (some mail) ∧
      requireMessage server.context id messageId world = (.ok (), { world with store := next }) ∧
      Held server.host messageId next ∧ Filesystem.Reads world.store next ∧
      next.messages.lookup messageId = some mail := by
  obtain ⟨mail, next, ran, reads, cached, proper⟩ := held.found there
  have kept : Held server.host messageId next := by
    refine held.reads reads ?_
    intro other lookup
    rw [cached] at lookup
    cases lookup
    exact proper
  refine ⟨mail, next, by rw [ran], ?_, kept, reads, cached⟩
  have fetched : stored (server.context.messageStore.getMessage messageId) world =
      (.ok (some mail), { world with store := next }) := by
    rw [stored, show server.context.messageStore.getMessage messageId world.store = _ from ran]
    rfl
  rw [requireMessage, Effect.bind_ok fetched]
  rfl

theorem currentFlags_none (held : Held server.host messageId world.store)
    (patch : List (Text × JsonValue)) :
    ∃ next, currentFlags server.context messageId patch world =
        (.ok .new, { world with store := next }) ∧
      Filesystem.Reads world.store next ∧
      next.messages.lookup messageId = world.store.messages.lookup messageId := by
  rw [currentFlags]
  cases owningMailbox server.context patch with
  | none => exact ⟨world.store, rfl, ⟨rfl, le_rfl⟩, rfl⟩
  | some mailboxId =>
    obtain ⟨next, ran, reads, same⟩ := readMessageFlags_hidden held mailboxId
    refine ⟨next, ?_, reads, same⟩
    dsimp only
    rw [Effect.bind_ok ran]
    rfl

theorem ownerOf_setFlags {store : Filesystem} (orderly : store.Orderly) (ids : List MessageId)
    (flags : MessageFlags) :
    (Filesystem.setFlags server.host ids flags store).2.ownerOf = store.ownerOf := by
  funext id
  rw [ownerOf, ownerOf, folder_setFlags]
  cases found : store.folder id with
  | none => rfl
  | some folder =>
    rw [Option.map_some, Option.map_some, Option.map_some,
      flagFolder_mailbox server.host ids flags store.moment (orderly.wellNamed found)]

theorem handleEmailUpdate_held (plainHost : ':' ∉ server.host.hostname)
    (held : Held server.host messageId world.store)
    (there : OnDisk server.host messageId world.store) {id : Text}
    (read : parseUuid id = some messageId.uuid) (patch : List (Text × JsonValue)) :
    ∃ mail base next, (getMessage server.host messageId world.store).1 = .ok (some mail) ∧
      handleEmailUpdate server.context id (.object patch) world =
        (.ok (), { world with store := next }) ∧
      Told server messageId (heardKeywords patch) world.store base ∧
      Filesystem.Filed server.host messageId mail base
        (takers base.ownerOf mail.size base.quotaOf (heardMailboxes patch)) next := by
  obtain ⟨mail, first, got, required, heldFirst, readsFirst, cachedFirst⟩ :=
    requireMessage_held held there id
  obtain ⟨second, current, readsSecond, sameSecond⟩ :=
    @currentFlags_none server { world with store := first } messageId heldFirst patch
  have cached : second.messages.lookup messageId = some mail := sameSecond.trans cachedFirst
  have heldSecond : Held server.host messageId second :=
    heldFirst.reads readsSecond fun other lookup => heldFirst.cached other (sameSecond ▸ lookup)
  have owners : second.ownerOf = world.store.ownerOf :=
    readsSecond.ownerOf.trans readsFirst.ownerOf
  have quotas : second.quotaOf = world.store.quotaOf :=
    readsSecond.quotaOf.trans readsFirst.quotaOf
  have files : ∀ id, second.filesOf id = world.store.filesOf id := fun id =>
    (readsSecond.filesOf id).trans (readsFirst.filesOf id)
  have run : ∀ base, Held server.host messageId base →
      base.messages.lookup messageId = some mail → ∃ next,
      runSteps server.context messageId (mailboxSteps patch) { world with store := base } =
        (.ok (), { world with store := next }) ∧
      Filesystem.Filed server.host messageId mail base
        (takers base.ownerOf mail.size base.quotaOf (heardMailboxes patch)) next := by
    intro base heldBase cachedBase
    obtain ⟨next, done, ran, filed, took⟩ := filedBy_steps plainHost (mailboxSteps patch)
      { world with store := base } [] (Filesystem.Filed.start heldBase cachedBase)
    have all := took []
    rw [takers, List.append_nil, List.append_nil, List.nil_append, targets_mailboxSteps] at all
    rw [all] at filed
    exact ⟨next, ran, filed⟩
  rw [handleEmailUpdate_steps server.context messageId read, Effect.bind_ok required]
  rcases applyKeywordPatch_heard server.context patch .new with
    ⟨silent, unchanged⟩ | ⟨told, heard, applied⟩
  · obtain ⟨next, ran, filed⟩ := run second heldSecond cached
    have written : writeFlags server.context messageId patch { world with store := first } =
        (.ok (), { world with store := second }) := by
      rw [writeFlags, Effect.bind_ok current]
      dsimp only
      rw [unchanged, if_neg Bool.false_ne_true]
      rfl
    rw [Effect.bind_ok written]
    refine ⟨mail, second, next, got, ran, ⟨owners, quotas, fun id => ?_⟩, filed⟩
    rw [silent, files, show toldFile server messageId none = fun file => file from rfl,
      List.map_id']
  · let flags := setTold server.context .new told
    let base := (Filesystem.setFlags server.host [messageId] flags second).2
    obtain ⟨next, ran, filed⟩ := run base (heldSecond.setFlags [messageId] flags) cached
    have written : writeFlags server.context messageId patch { world with store := first } =
        (.ok (), { world with store := base }) := by
      rw [writeFlags, Effect.bind_ok current]
      dsimp only
      rw [applied, if_pos rfl, heardOnto, ite_self]
      rfl
    rw [Effect.bind_ok written]
    refine ⟨mail, base, next, got, ran, ⟨?_, quotas, fun id => ?_⟩, filed⟩
    · rw [ownerOf_setFlags heldSecond.orderly, owners]
    · rw [heard, ← files]
      exact filesOf_setFlags heldSecond.orderly [messageId] flags id

/-! What the store shows afterwards. -/

def keywordLeft (letters : CaseMapping) (heard : Option (List (Text × Bool)))
    (keywords : Text → Bool) (keyword : Text) : Bool :=
  match heard with
  | none => keywords keyword
  | some told => decide (keyword ∈ systemKeywords) && toldKeyword letters told keyword

theorem holdsKeyword_toldFile {keywords : Text → Bool} {file : MailFile}
    (carries : storedId server.host file = some messageId)
    (holds : ∀ keyword, (MaildirFilename.decodeFlags file.name).holdsKeyword keyword =
      keywords keyword) (heard : Option (List (Text × Bool))) (keyword : Text) :
    (MaildirFilename.decodeFlags
        (toldFile server messageId heard file).name).holdsKeyword keyword =
      keywordLeft server.host.toCaseMapping heard keywords keyword := by
  cases heard with
  | none => exact holds keyword
  | some told =>
    rw [toldFile, decodeFlags_flaggedFile, if_pos (carriesId_single.mpr carries)]
    exact holdsKeyword_told server.context told keyword

section Shown

variable {store next : Filesystem} {heard : Option (List (Text × Bool))}
  {keywords wanted : Text → Bool} {mailboxes asked : MailboxId → Bool}

theorem mem_filed (told : Told server messageId heard store base)
    (filed : Filesystem.Filed server.host messageId mail base done next) (id : MailboxId) :
    (∀ file ∈ next.filesOf id,
      (∃ before ∈ store.filesOf id, file = toldFile server messageId heard before) ∨
      id ∈ done ∧ storedId server.host file = some messageId ∧
        MaildirFilename.decodeFlags file.name = .new) ∧
    (∀ before ∈ store.filesOf id, toldFile server messageId heard before ∈ next.filesOf id) ∧
    (id ∈ done → ∃ file ∈ next.filesOf id, storedId server.host file = some messageId ∧
      MaildirFilename.decodeFlags file.name = .new) := by
  obtain ⟨copies, files, carry, none⟩ := filed.files id
  have inside : ∀ file, file ∈ next.filesOf id ↔
      (∃ before ∈ store.filesOf id, toldFile server messageId heard before = file) ∨
        file ∈ copies := by
    intro file
    rw [files.mem_iff, List.mem_append, (told.files id).mem_iff, List.mem_map]
  refine ⟨?_, ?_, ?_⟩
  · intro file member
    rcases (inside file).mp member with ⟨before, there, rfl⟩ | copy
    · exact .inl ⟨before, there, rfl⟩
    · refine .inr ⟨?_, carry file copy⟩
      by_contra absent
      rw [none.mpr absent] at copy
      cases copy
  · intro before there
    exact (inside _).mpr (.inl ⟨before, there, rfl⟩)
  · intro target
    obtain ⟨copy, member⟩ := List.exists_mem_of_ne_nil copies fun empty => none.mp empty target
    exact ⟨copy, (inside copy).mpr (.inr member), carry copy member⟩

/-- The store shows the message with exactly the keywords left on the old copies and the
mailboxes it was in or taken into, provided new copies, which carry none, agree. -/
theorem shows_iff (shows : store.Displays server.host messageId keywords mailboxes)
    (present : ∃ id, mailboxes id = true) (told : Told server messageId heard store base)
    (filed : Filesystem.Filed server.host messageId mail base done next) :
    next.Displays server.host messageId wanted asked ↔
      (∀ keyword, wanted keyword =
        keywordLeft server.host.toCaseMapping heard keywords keyword) ∧
      (∀ id, asked id = (mailboxes id || decide (id ∈ done))) ∧
      (done ≠ [] → ∀ keyword, wanted keyword = false) := by
  constructor
  · intro showsNext
    refine ⟨fun keyword => ?_, fun id => ?_, fun some keyword => ?_⟩
    · obtain ⟨id, here⟩ := present
      obtain ⟨file, member, carries⟩ := (shows.mailboxes id).mp here
      have kept := (mem_filed told filed id).2.1 file member
      rw [← showsNext.keywords id _ kept
        ((storedId_toldFile heard file).trans carries) keyword]
      exact holdsKeyword_toldFile carries (shows.keywords id file member carries) heard keyword
    · obtain ⟨origins, keeps, takes⟩ := mem_filed told filed id
      rw [Bool.eq_iff_iff, Bool.or_eq_true, decide_eq_true_eq, showsNext.mailboxes id,
        shows.mailboxes id]
      constructor
      · rintro ⟨file, member, carries⟩
        rcases origins file member with ⟨before, there, rfl⟩ | ⟨target, _⟩
        · rw [storedId_toldFile] at carries
          exact .inl ⟨before, there, carries⟩
        · exact .inr target
      · rintro (⟨file, member, carries⟩ | target)
        · exact ⟨_, keeps file member, (storedId_toldFile heard file).trans carries⟩
        · obtain ⟨file, member, carries, _⟩ := takes target
          exact ⟨file, member, carries⟩
    · obtain ⟨id, target⟩ := List.exists_mem_of_ne_nil done some
      obtain ⟨file, member, carries, bare⟩ := (mem_filed told filed id).2.2 target
      rw [← showsNext.keywords id file member carries keyword, bare, holdsKeyword_new]
  · rintro ⟨left, filedIn, bare⟩
    refine ⟨fun id file member carries keyword => ?_, fun id => ?_⟩
    · rcases (mem_filed told filed id).1 file member with
        ⟨before, there, rfl⟩ | ⟨target, _, flagless⟩
      · rw [storedId_toldFile] at carries
        rw [left]
        exact holdsKeyword_toldFile carries (shows.keywords id before there carries) heard keyword
      · rw [flagless, holdsKeyword_new, bare (List.ne_nil_of_mem target)]
    · obtain ⟨origins, keeps, takes⟩ := mem_filed told filed id
      rw [filedIn, Bool.or_eq_true, decide_eq_true_eq, shows.mailboxes id]
      constructor
      · rintro (⟨file, member, carries⟩ | target)
        · exact ⟨_, keeps file member, (storedId_toldFile heard file).trans carries⟩
        · obtain ⟨file, member, carries, _⟩ := takes target
          exact ⟨file, member, carries⟩
      · rintro ⟨file, member, carries⟩
        rcases origins file member with ⟨before, there, rfl⟩ | ⟨target, _⟩
        · rw [storedId_toldFile] at carries
          exact .inl ⟨before, there, carries⟩
        · exact .inr target

theorem otherFiles_kept (told : Told server messageId heard store base)
    (filed : Filesystem.Filed server.host messageId mail base done next) (id : MailboxId) :
    (next.otherFiles server.host messageId id).Perm
      (store.otherFiles server.host messageId id) := by
  obtain ⟨copies, files, carry, _⟩ := filed.files id
  have own : copies.filter (fun file => !carriesId server.host [messageId] file) = [] := by
    rw [List.filter_eq_nil_iff]
    intro copy member
    simp [carriesId_single.mpr (carry copy member).1]
  have unmoved : ∀ before : List MailFile,
      (before.map (toldFile server messageId heard)).filter
          (fun file => !carriesId server.host [messageId] file) =
        before.filter fun file => !carriesId server.host [messageId] file := by
    intro before
    induction before with
    | nil => rfl
    | cons file before ih =>
      have same : carriesId server.host [messageId] (toldFile server messageId heard file) =
          carriesId server.host [messageId] file := by
        rw [carriesId, storedId_toldFile, carriesId]
      cases carries : carriesId server.host [messageId] file with
      | true => simp [same, carries, ih]
      | false => simp [carries, ih, toldFile_other heard carries]
  have kept := (files.trans ((told.files id).append_right copies)).filter
    fun file => !carriesId server.host [messageId] file
  rw [List.filter_append, own, List.append_nil, unmoved] at kept
  exact kept

end Shown

/-! The call. -/

theorem onDisk_of_shows {store : Filesystem} {keywords : Text → Bool} {mailboxes : MailboxId → Bool}
    (shows : store.Displays server.host messageId keywords mailboxes)
    (present : ∃ id, mailboxes id = true) : OnDisk server.host messageId store := by
  obtain ⟨id, here⟩ := present
  obtain ⟨file, member, carries⟩ := (shows.mailboxes id).mp here
  cases found : store.folder id with
  | none =>
    rw [filesOf, found] at member
    cases member
  | some folder =>
    rw [filesOf_found found] at member
    exact ⟨id, folder, found, file, member, carries⟩

theorem emailSet_update {principal : Principal} {accountId id : Text}
    {patch : List (Text × JsonValue)} {next : Filesystem}
    (owned : principal.ownsAccount accountId = true)
    (ran : handleEmailUpdate server.context id (.object patch)
      { world with draws := world.draws + 1 } =
        (.ok (), { store := next, draws := world.draws + 1 })) :
    ∃ response after, emailSet server.context (updateRequest accountId id patch) principal world =
        (.ok response, after) ∧
      after.store = next ∧ response.updated = some [(id, none)] ∧ response.notUpdated = none := by
  have moment : ∀ world, utcNow server.context world =
      (.ok (server.now world.draws), { world with draws := world.draws + 1 }) := fun _ => rfl
  have handled : eachEntry (handleEmailUpdate server.context) [(id, .object patch)]
      { world with draws := world.draws + 1 } =
        (.ok [(id, .ok ())], { store := next, draws := world.draws + 1 }) := by
    rw [eachEntry, Effect.bind_ok (caught_ok ran)]
    rfl
  rw [emailSet, ensureAccountOwnership_owned (show principal.ownsAccount
    (updateRequest accountId id patch).accountId = true from owned), pure_bind,
    Effect.bind_ok (moment world),
    Effect.bind_ok (show eachEntry _ ((updateRequest accountId id patch).create.getD []) _ =
      (.ok [], _) from rfl),
    Effect.bind_ok (show eachEntry _ ((updateRequest accountId id patch).update.getD []) _ = _
      from handled)]
  exact ⟨_, _, rfl, rfl, rfl, rfl⟩

def messageSize (host : Host) (store : Filesystem) (messageId : MessageId) : Nat :=
  match (getMessage host messageId store).1 with
  | .ok (some mail) => mail.size
  | _ => 0

def filedInto (host : Host) (store : Filesystem) (messageId : MessageId)
    (patch : List (Text × JsonValue)) : List MailboxId :=
  takers store.ownerOf (messageSize host store messageId) store.quotaOf (heardMailboxes patch)

theorem emailSet_held (plainHost : ':' ∉ server.host.hostname)
    (held : Held server.host messageId world.store)
    (there : OnDisk server.host messageId world.store) {principal : Principal}
    {accountId id : Text} (owned : principal.ownsAccount accountId = true)
    (read : parseUuid id = some messageId.uuid) (patch : List (Text × JsonValue)) :
    ∃ response after mail base,
      emailSet server.context (updateRequest accountId id patch) principal world =
        (.ok response, after) ∧
      response.updated = some [(id, none)] ∧ response.notUpdated = none ∧
      Told server messageId (heardKeywords patch) world.store base ∧
      Filesystem.Filed server.host messageId mail base
        (filedInto server.host world.store messageId patch) after.store := by
  obtain ⟨mail, base, next, got, ran, told, filed⟩ :=
    @handleEmailUpdate_held server { world with draws := world.draws + 1 } messageId plainHost held
      there id read patch
  obtain ⟨response, after, answered, stored, updated, notUpdated⟩ := emailSet_update owned ran
  refine ⟨response, after, mail, base, answered, updated, notUpdated, told, ?_⟩
  have size : messageSize server.host world.store messageId = mail.size := by
    rw [messageSize, show (getMessage server.host messageId world.store).1 = _ from got]
  rw [stored, filedInto, size, ← told.owner, ← told.quota]
  exact filed

/-- A patch whose every entry is one that an update reads, and which asks for what reading it
does: the keywords it hears, put in the place of all others, and copies in mailboxes that have
room. -/
structure PatchFits (host : Host) (store : Filesystem) (messageId : MessageId)
    (patch : List (Text × JsonValue)) (held : Text → Bool) (filed : MailboxId → Bool) : Prop where
  known : ∀ entry ∈ patch, patchPath entry.1 ≠ none
  named : NamesMailboxes patch
  keywords : ∀ keyword, wantedKeyword host.toCaseMapping patch keyword (held keyword) =
    keywordLeft host.toCaseMapping (heardKeywords patch) held keyword
  mailboxes : ∀ id, wantedMailbox patch id (filed id) =
    (filed id || decide (id ∈ filedInto host store messageId patch))
  bare : filedInto host store messageId patch ≠ [] →
    ∀ keyword, wantedKeyword host.toCaseMapping patch keyword (held keyword) = false

/-- Email/set update applies a patch to a message the store holds exactly when the patch fits
what it does. -/
theorem patchHonoured_iff (server : JmapServer) (plainHost : ':' ∉ server.host.hostname)
    {principal : Principal} {accountId id : Text} (owned : principal.ownsAccount accountId = true)
    {messageId : MessageId} (read : parseUuid id = some messageId.uuid)
    {world : JmapWorld Filesystem} (held : Held server.host messageId world.store)
    {keywords : Text → Bool} {mailboxes : MailboxId → Bool}
    (shows : world.store.Displays server.host messageId keywords mailboxes)
    (present : ∃ mailbox, mailboxes mailbox = true) (patch : List (Text × JsonValue)) :
    PatchHonoured server principal accountId id messageId patch keywords mailboxes world ↔
      PatchFits server.host world.store messageId patch keywords mailboxes := by
  obtain ⟨response, after, mail, base, answered, updated, notUpdated, told, filed⟩ :=
    emailSet_held plainHost held (onDisk_of_shows shows present) owned read patch
  have shown := @shows_iff server messageId mail base _ _ _ _ _
    (fun keyword => wantedKeyword server.host.toCaseMapping patch keyword (keywords keyword))
    _ (fun mailbox => wantedMailbox patch mailbox (mailboxes mailbox)) shows present told filed
  constructor
  · intro honoured
    obtain ⟨applied, refused⟩ := honoured response after answered
    have listed : id ∈ (response.updated.getD []).map Prod.fst := by
      rw [updated]
      exact List.mem_singleton.mpr rfl
    obtain ⟨left, filedIn, bare⟩ := shown.mp (applied listed).shows
    refine ⟨?_, (applied listed).named, left, filedIn, bare⟩
    intro entry member unknown
    have missing := refused ⟨entry, member, unknown⟩
    rw [notUpdated] at missing
    cases missing
  · intro fits response' after' answered'
    rw [answered] at answered'
    cases answered'
    refine ⟨fun _ => ?_, ?_⟩
    · exact ⟨shown.mpr ⟨fits.keywords, fits.mailboxes, fits.bare⟩, fits.named,
        otherFiles_kept told filed⟩
    · rintro ⟨entry, member, unknown⟩
      exact absurd unknown (fits.known entry member)

def oddServer : JmapServer :=
  { localServer with host := { plainHost with newUuid moment := BitVec.ofNat 128 (2 * moment + 1) } }

theorem oddServer_fresh (moment : Nat) : oddServer.host.newUuid moment ≠ (⟨0⟩ : MessageId).uuid := by
  intro same
  have number : (2 * moment + 1) % 340282366920938463463374607431768211456 = 0 :=
    congrArg BitVec.toNat same
  omega

def oddWorld : JmapWorld Filesystem :=
  ⟨heldStore oddServer.host aliceUser ⟨1⟩ ⟨0⟩ 1 ∅, 0⟩

def flagPatch (path : String) : List (Text × JsonValue) :=
  [(path.toList, .object [("$flagged".toList, .bool true)])]

theorem flags_replaced : PatchHonoured oddServer (Principal.fromUsername aliceUser.text)
    "account-alice".toList (MessageId.display ⟨0⟩) ⟨0⟩ (flagPatch "keywords") (fun _ => false)
    (fun id => decide (id = ⟨1⟩)) oddWorld := by
  refine (patchHonoured_iff oddServer (by decide) (by decide) (parseUuid_display ⟨0⟩)
    (heldStore_held oddServer_fresh) (heldStore_shows (by decide)) ⟨⟨1⟩, rfl⟩
    (flagPatch "keywords")).mpr ?_
  have taken : filedInto oddServer.host oddWorld.store ⟨0⟩ (flagPatch "keywords") = [] := by
    rw [filedInto, show heardMailboxes (flagPatch "keywords") = [] from by decide, takers]
  have path : ∀ entry ∈ flagPatch "keywords", patchPath entry.1 = some .keywords := by decide
  refine ⟨?_, ?_, fun keyword => ?_, fun id => ?_, fun some => absurd taken some⟩
  · intro entry member unknown
    cases (path entry member).symm.trans unknown
  · intro entry member id asked
    rw [askedIds, path entry member] at asked
    exact absurd asked List.not_mem_nil
  · by_cases same : keyword = "$flagged".toList
    · subst same
      decide
    · have unwanted : wantedKeyword oddServer.host.toCaseMapping (flagPatch "keywords") keyword
          false = decide (keyword ∈ ["$flagged".toList]) := rfl
      have untold : toldKeyword oddServer.host.toCaseMapping [("$flagged".toList, true)] keyword =
          if "$flagged".toList = keyword then true else false := rfl
      rw [unwanted, show heardKeywords (flagPatch "keywords") = some [("$flagged".toList, true)]
        from by decide, keywordLeft, untold, if_neg (Ne.symm same), Bool.and_false,
        decide_eq_false (fun one => same (List.mem_singleton.mp one))]
  · rw [taken, decide_eq_false (@List.not_mem_nil MailboxId id), Bool.or_false]
    rfl

/-- The path under its leading solidus is not read: the update is listed, and nothing is done. -/
theorem flags_unheard : ¬PatchHonoured oddServer (Principal.fromUsername aliceUser.text)
    "account-alice".toList (MessageId.display ⟨0⟩) ⟨0⟩ (flagPatch "/keywords") (fun _ => false)
    (fun id => decide (id = ⟨1⟩)) oddWorld := by
  intro honoured
  have shows : oddWorld.store.Displays oddServer.host ⟨0⟩ (fun _ => false)
      (fun id => decide (id = ⟨1⟩)) := heldStore_shows (by decide)
  obtain ⟨response, after, mail, base, answered, updated, -, told, filed⟩ :=
    @emailSet_held oddServer oddWorld ⟨0⟩ (by decide) (heldStore_held oddServer_fresh)
      (onDisk_of_shows shows ⟨⟨1⟩, rfl⟩) (Principal.fromUsername aliceUser.text)
      "account-alice".toList _ (by decide) (parseUuid_display ⟨0⟩) (flagPatch "/keywords")
  have listed : MessageId.display ⟨0⟩ ∈ (response.updated.getD []).map Prod.fst := by
    rw [updated]
    exact List.mem_singleton.mpr rfl
  have applied := ((honoured response after answered).1 listed).shows
  have left := ((shows_iff shows ⟨⟨1⟩, rfl⟩ told filed).mp applied).1 "$flagged".toList
  revert left
  decide

end Update

end Rusmes
