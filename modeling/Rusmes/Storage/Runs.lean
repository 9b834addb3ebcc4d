import Rusmes.Storage.Folders

/-!
Runs of the filesystem backend: what each operation of the message store does to
the store, and what every run keeps.
-/

namespace Rusmes

open WireText

namespace Filesystem

inductive Operation
  | append (id : MailboxId) (message : Mail)
  | copy (ids : List MessageId) (dest : MailboxId)
  | setFlags (ids : List MessageId) (flags : MessageFlags)
  | delete (ids : List MessageId)
  | list (id : MailboxId)
  | deleteMailbox (id : MailboxId)
  | restart

def perform (host : Host) (store : Filesystem) : Operation → Filesystem
  | .append id message => (appendMessage host id message store).2
  | .copy ids dest => (copyMessages host dest ids store).2
  | .setFlags ids flags => (Filesystem.setFlags host ids flags store).2
  | .delete ids => (deleteMessages host ids store).2
  | .list id => (getMailboxMessages host id store).2
  | .deleteMailbox id => (Filesystem.deleteMailbox id store).2
  | .restart => store.restart

def performAll (host : Host) (store : Filesystem) (operations : List Operation) : Filesystem :=
  operations.foldl (perform host) store

variable {host : Host}

def admits (store : Filesystem) (user : Username) (size : Nat) : Prop :=
  (store.quotaOf user).used + UInt64.ofNat size ≤ (store.quotaOf user).limit

instance (store : Filesystem) (user : Username) (size : Nat) :
    Decidable (store.admits user size) :=
  inferInstanceAs (Decidable (_ ≤ _))

def deliveredFile (host : Host) (store : Filesystem) (message : Mail) : MailFile :=
  let counter := store.deliveryCounter + 1
  let moment := store.moment
  { name := MaildirFilename.generate host.hostname (host.pid moment) counter (host.clock moment)
    data := serializeMessageToBytes message
    delivery := ⟨counter, message.size⟩ }

def receiveFile (file : MailFile) (folder : Folder) : Folder :=
  { folder with new := placeFile file folder.new }

def appended (host : Host) (id : MailboxId) (message : Mail) (user : Username)
    (store : Filesystem) : Filesystem :=
  let quota := store.quotaOf user
  { store with
    folders := Table.adjust id (receiveFile (deliveredFile host store message)) store.folders
    messages := store.messages.insert message.messageId
      { message with message.body := message.message.body.drained }
    quotas := store.quotas.insert user { quota with used := quota.used + UInt64.ofNat message.size }
    deliveryCounter := store.deliveryCounter + 1
    moment := store.moment + 1
    history := store.history ++ [(id, UInt32.ofNat (store.deliveryCounter + 1))] }

theorem lookupMailbox_missing {id : MailboxId} {store : Filesystem}
    (missing : store.folder id = none) :
    lookupMailbox id store = (.error "Mailbox not found".toList, store) := by
  rw [lookupMailbox, Effect.read_bind, missing]
  rfl

theorem lookupMailbox_found {id : MailboxId} {store : Filesystem} {folder : Folder}
    (found : store.folder id = some folder) :
    lookupMailbox id store = (.ok folder.mailbox, store) := by
  rw [lookupMailbox, Effect.read_bind, found]
  rfl

theorem checkQuota_refused {store : Filesystem} {user : Username} {size : Nat}
    (refused : ¬store.admits user size) :
    checkQuota user size store =
      (.error "Quota exceeded: cannot append message".toList, store) := by
  rw [admits, UInt64.not_le] at refused
  rw [checkQuota, Effect.read_bind]
  exact congrFun (if_pos refused) store

theorem checkQuota_admitted {store : Filesystem} {user : Username} {size : Nat}
    (admitted : store.admits user size) : checkQuota user size store = (.ok (), store) := by
  rw [checkQuota, Effect.read_bind]
  exact congrFun (if_neg (UInt64.not_lt.mpr admitted)) store

theorem appendMessage_missing {id : MailboxId} {store : Filesystem}
    (missing : store.folder id = none) (message : Mail) :
    appendMessage host id message store = (.error "Mailbox not found".toList, store) := by
  rw [appendMessage, Effect.bind_error (lookupMailbox_missing missing)]

theorem appendMessage_refused {id : MailboxId} {store : Filesystem} {folder : Folder}
    {message : Mail} (found : store.folder id = some folder)
    (refused : ¬store.admits folder.mailbox.path.user message.size) :
    appendMessage host id message store =
      (.error "Quota exceeded: cannot append message".toList, store) := by
  rw [appendMessage, Effect.bind_ok (lookupMailbox_found found),
    Effect.bind_error (checkQuota_refused refused)]

theorem appendMessage_accepted {id : MailboxId} {store : Filesystem} {folder : Folder}
    {message : Mail} (found : store.folder id = some folder)
    (admitted : store.admits folder.mailbox.path.user message.size) :
    appendMessage host id message store =
      (.ok ⟨message.messageId, id, UInt32.ofNat (store.deliveryCounter + 1), .new, message.size⟩,
        appended host id message folder.mailbox.path.user store) := by
  rw [appendMessage, Effect.bind_ok (lookupMailbox_found found),
    Effect.bind_ok (checkQuota_admitted admitted)]
  rfl

theorem folder_appended (id : MailboxId) (message : Mail) (user : Username) (store : Filesystem)
    (other : MailboxId) :
    (appended host id message user store).folder other =
      if other = id then
        (store.folder other).map (receiveFile (deliveredFile host store message))
      else store.folder other :=
  Table.lookup_adjust id _ store.folders other

theorem appendMessage_cases (host : Host) (id : MailboxId) (message : Mail) (store : Filesystem) :
    (∃ error, (∀ folder, store.folder id = some folder →
        ¬store.admits folder.mailbox.path.user message.size) ∧
      appendMessage host id message store = (.error error, store)) ∨
    ∃ folder, store.folder id = some folder ∧
      store.admits folder.mailbox.path.user message.size ∧
      appendMessage host id message store =
        (.ok ⟨message.messageId, id, UInt32.ofNat (store.deliveryCounter + 1), .new,
          message.size⟩, appended host id message folder.mailbox.path.user store) := by
  cases found : store.folder id with
  | none => exact Or.inl ⟨_, by simp, appendMessage_missing found message⟩
  | some folder =>
      by_cases admitted : store.admits folder.mailbox.path.user message.size
      · exact Or.inr ⟨folder, rfl, admitted, appendMessage_accepted found admitted⟩
      · refine Or.inl ⟨_, ?_, appendMessage_refused found admitted⟩
        intro other same
        cases same
        exact admitted

theorem copyMessages_cons (dest : MailboxId) (id : MessageId) (ids : List MessageId)
    (store : Filesystem) :
    (copyMessages host dest (id :: ids) store).2 =
      match store.messages.lookup id with
      | none => (copyMessages host dest ids store).2
      | some message =>
          if (appendMessage host dest message store).1.isOk then
            (copyMessages host dest ids (appendMessage host dest message store).2).2
          else (appendMessage host dest message store).2 := by
  rw [copyMessages, Effect.read_bind]
  cases cached : store.messages.lookup id with
  | none => rfl
  | some message =>
      rcases ran : appendMessage host dest message store with ⟨outcome, after⟩
      dsimp only
      cases outcome with
      | error error =>
          rw [Effect.bind_error ran, ran]
          rfl
      | ok metadata =>
          rw [Effect.bind_ok ran, ran]
          rcases rest : copyMessages host dest ids after with ⟨others, final⟩
          cases others with
          | error error =>
              rw [Effect.bind_error rest]
              rfl
          | ok others =>
              rw [Effect.bind_ok rest]
              rfl

theorem copyMessages_keeps (holds : Filesystem → Prop) {dest : MailboxId}
    (keeps : ∀ store message, holds store → holds (appendMessage host dest message store).2)
    (ids : List MessageId) {store : Filesystem} (start : holds store) :
    holds (copyMessages host dest ids store).2 := by
  induction ids generalizing store with
  | nil => exact start
  | cons id ids ih =>
      rw [copyMessages_cons]
      cases store.messages.lookup id with
      | none => exact ih start
      | some message =>
          have kept := keeps store message start
          dsimp only
          split
          · exact ih kept
          · exact kept

theorem folderWalk_perm (host : Host) (moment : Nat) (folder : Folder) :
    (folderWalk host moment folder).Perm folder.files :=
  (host.readDir_perm moment folder.new).append (host.readDir_perm (moment + 1) folder.cur)

def listEntries (host : Host) (mailboxId : MailboxId) :
    UInt32 → Nat → List MailFile → List MessageMetadata
  | _, _, [] => []
  | uid, moment, file :: files =>
      ⟨(listedId host file).getD ⟨host.newUuid moment⟩, mailboxId, uid,
        MaildirFilename.decodeFlags file.name, file.data.length⟩ ::
        listEntries host mailboxId (uid + 1) (moment + 1) files

def cacheListed (host : Host) :
    Nat → List MailFile → Table MessageId Mail → Table MessageId Mail
  | _, [], messages => messages
  | moment, file :: files, messages =>
      let id := (listedId host file).getD ⟨host.newUuid moment⟩
      cacheListed host (moment + 1) files (messages.insert id (mailOf host moment id file))

theorem parseFiles_eq (mailboxId : MailboxId) (uid : UInt32) (files : List MailFile)
    (store : Filesystem) :
    parseFiles host mailboxId uid files store =
      (.ok (listEntries host mailboxId uid store.moment files),
        { store with
          messages := cacheListed host store.moment files store.messages
          moment := store.moment + files.length }) := by
  induction files generalizing uid store with
  | nil => rfl
  | cons file files ih =>
      rw [parseFiles]
      have parsed : parseMessageFromFile host mailboxId uid file store =
          (.ok ⟨(listedId host file).getD ⟨host.newUuid store.moment⟩, mailboxId, uid,
            MaildirFilename.decodeFlags file.name, file.data.length⟩,
          { store with
            messages := store.messages.insert
              ((listedId host file).getD ⟨host.newUuid store.moment⟩)
              (mailOf host store.moment ((listedId host file).getD ⟨host.newUuid store.moment⟩) file)
            moment := store.moment + 1 }) := rfl
      rw [Effect.bind_ok parsed, Effect.bind_ok (ih (uid + 1) _), Effect.pure_apply]
      simp only [listEntries, cacheListed, List.length_cons, Prod.mk.injEq, true_and]
      rw [Nat.add_right_comm, Nat.add_assoc]

theorem getMailboxMessages_eq (id : MailboxId) (store : Filesystem) :
    getMailboxMessages host id store =
      match store.folder id with
      | none => (.ok [], { store with moment := store.moment + 2 })
      | some folder =>
          parseFiles host id 1 (folderWalk host store.moment folder)
            { store with moment := store.moment + 2 } := by
  have first : tick store = (.ok store.moment, { store with moment := store.moment + 1 }) := rfl
  rw [getMailboxMessages, Effect.bind_ok first]
  cases found : store.folder id with
  | none =>
      have same : ({ store with moment := store.moment + 2 } : Filesystem).folder id = none := found
      have second : tick { store with moment := store.moment + 1 } =
          (.ok (store.moment + 1), { store with moment := store.moment + 2 }) := rfl
      rw [Effect.bind_ok second, Effect.read_bind, same]
      rfl
  | some folder =>
      have same : ({ store with moment := store.moment + 2 } : Filesystem).folder id =
          some folder := found
      have second : tick { store with moment := store.moment + 1 } =
          (.ok (store.moment + 1), { store with moment := store.moment + 2 }) := rfl
      rw [Effect.bind_ok second, Effect.read_bind, same]

theorem getMailboxMessages_found {id : MailboxId} {store : Filesystem} {folder : Folder}
    (found : store.folder id = some folder) :
    getMailboxMessages host id store =
      (.ok (listEntries host id 1 (store.moment + 2) (folderWalk host store.moment folder)),
        { store with
          messages := cacheListed host (store.moment + 2) (folderWalk host store.moment folder)
            store.messages
          moment := store.moment + 2 + (folderWalk host store.moment folder).length }) := by
  rw [getMailboxMessages_eq, found]
  exact parseFiles_eq id 1 _ _

theorem getMailboxMessages_missing {id : MailboxId} {store : Filesystem}
    (missing : store.folder id = none) :
    getMailboxMessages host id store = (.ok [], { store with moment := store.moment + 2 }) := by
  rw [getMailboxMessages_eq, missing]

theorem setFlags_eq (ids : List MessageId) (flags : MessageFlags) (store : Filesystem) :
    Filesystem.setFlags host ids flags store =
      (.ok (), { store with
        folders := Table.mapValues (fun _ => flagFolder host store.moment ids flags) store.folders
        moment := store.moment + 2 }) := rfl

theorem folder_setFlags (ids : List MessageId) (flags : MessageFlags) (store : Filesystem)
    (id : MailboxId) :
    (Filesystem.setFlags host ids flags store).2.folder id =
      (store.folder id).map (flagFolder host store.moment ids flags) :=
  Table.lookup_mapValues _ store.folders id

theorem folder_deleteMessages (ids : List MessageId) (store : Filesystem) (id : MailboxId) :
    (deleteMessages host ids store).2.folder id =
      (store.folder id).map (expungeFolder host ids) :=
  Table.lookup_mapValues _ store.folders id

theorem getMailboxMessages_disk (host : Host) (id : MailboxId) (store : Filesystem) :
    ∃ messages moment, (getMailboxMessages host id store).2 = { store with messages, moment } := by
  cases found : store.folder id with
  | none => exact ⟨_, _, by rw [getMailboxMessages_missing found]⟩
  | some folder => exact ⟨_, _, by rw [getMailboxMessages_found found]⟩

theorem folder_erase (id : MailboxId) (store : Filesystem) (other : MailboxId) :
    ({ store with folders := store.folders.erase id } : Filesystem).folder other =
      if other = id then none else store.folder other := by
  by_cases same : other = id
  · subst same
    rw [if_pos rfl]
    exact AList.lookup_erase other store.folders
  · rw [if_neg same]
    exact AList.lookup_erase_ne same

theorem deleteMailbox_cases (id : MailboxId) (store : Filesystem) :
    (store.folder id = none ∧ (deleteMailbox id store).2 = store) ∨
      ∃ folder, store.folder id = some folder ∧
        (deleteMailbox id store).2 = { store with folders := store.folders.erase id } := by
  cases found : store.folder id with
  | none =>
      refine Or.inl ⟨rfl, ?_⟩
      rw [deleteMailbox, Effect.bind_error (lookupMailbox_missing found)]
  | some folder =>
      refine Or.inr ⟨folder, rfl, ?_⟩
      rw [deleteMailbox, Effect.bind_ok (lookupMailbox_found found)]
      rfl

def Orderly (store : Filesystem) : Prop :=
  ∀ id folder, store.folder id = some folder → folder.Numbered store.deliveryCounter

theorem Orderly.wellNamed {store : Filesystem} (orderly : store.Orderly) {id : MailboxId}
    {folder : Folder} (found : store.folder id = some folder) : folder.WellNamed :=
  (orderly id folder found).wellNamed

theorem orderly_of_empty {store : Filesystem}
    (empty : ∀ id folder, store.folder id = some folder → folder.files = []) : store.Orderly := by
  intro id folder found
  have none := empty id folder found
  refine ⟨?_, ?_, ?_⟩
  · simp [none]
  · simp [none]
  · simp [none]

theorem receiveFile_numbered (host : Host) {store : Filesystem} {folder : Folder} (message : Mail)
    (numbered : folder.Numbered store.deliveryCounter) :
    (receiveFile (deliveredFile host store message) folder).new =
        folder.new ++ [deliveredFile host store message] ∧
      (receiveFile (deliveredFile host store message) folder).Numbered
        (store.deliveryCounter + 1) :=
  placeFile_numbered numbered (Nat.lt_succ_self _) rfl
    (MaildirFilename.numbered_generate _ _ _ _)

theorem appendMessage_orderly {id : MailboxId} {store : Filesystem} (message : Mail)
    (orderly : store.Orderly) : (appendMessage host id message store).2.Orderly := by
  rcases appendMessage_cases host id message store with ⟨error, _, ran⟩ | ⟨folder, found, _, ran⟩
  · rw [ran]
    exact orderly
  · rw [ran]
    intro other held present
    rw [folder_appended] at present
    split at present
    · obtain ⟨source, inside, rfl⟩ := Option.map_eq_some_iff.mp present
      exact (receiveFile_numbered host message (orderly other source inside)).2
    · exact (orderly other held present).mono (Nat.le_succ _)

theorem perform_orderly {store : Filesystem} {operation : Operation} (running : operation ≠ .restart)
    (orderly : store.Orderly) : (perform host store operation).Orderly := by
  cases operation with
  | append id message => exact appendMessage_orderly message orderly
  | copy ids dest =>
      exact copyMessages_keeps Orderly (fun _ message held => appendMessage_orderly message held) ids
        orderly
  | setFlags ids flags =>
      intro id folder present
      rw [perform, folder_setFlags] at present
      obtain ⟨source, inside, rfl⟩ := Option.map_eq_some_iff.mp present
      exact flagFolder_numbered host ids flags store.moment (orderly id source inside)
  | delete ids =>
      intro id folder present
      rw [perform, folder_deleteMessages] at present
      obtain ⟨source, inside, rfl⟩ := Option.map_eq_some_iff.mp present
      exact expungeFolder_numbered host ids (orderly id source inside)
  | list id =>
      obtain ⟨messages, moment, ran⟩ := getMailboxMessages_disk host id store
      rw [perform, ran]
      exact orderly
  | deleteMailbox id =>
      rcases deleteMailbox_cases id store with ⟨_, ran⟩ | ⟨_, _, ran⟩
      · rw [perform, ran]
        exact orderly
      · rw [perform, ran]
        intro other held present
        rw [folder_erase] at present
        split at present
        · cases present
        · exact orderly other held present
  | restart => exact absurd rfl running

def inboxId : MailboxId := ⟨1⟩

def aliceInbox : Mailbox := Mailbox.new inboxId ⟨aliceUser, ["INBOX".toList]⟩

def freshStore : Filesystem where
  folders := AList.insert inboxId ⟨aliceInbox, [], []⟩ ∅
  messages := ∅
  quotas := ∅
  subscriptions := ∅
  deliveryCounter := 0
  moment := 0
  history := []

theorem folder_freshStore {id : MailboxId} {folder : Folder}
    (found : freshStore.folder id = some folder) :
    id = inboxId ∧ folder = ⟨aliceInbox, [], []⟩ := by
  by_cases same : id = inboxId
  · subst same
    exact ⟨rfl, (Option.some.inj ((AList.lookup_insert _).symm.trans found)).symm⟩
  · have absent : freshStore.folder id = none := (AList.lookup_insert_ne same).trans rfl
    rw [absent] at found
    cases found

theorem freshStore_files {id : MailboxId} {folder : Folder}
    (found : freshStore.folder id = some folder) : folder.files = [] := by
  rw [(folder_freshStore found).2]
  rfl

end Filesystem

end Rusmes
