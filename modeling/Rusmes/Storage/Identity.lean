import Rusmes.Library.Machine
import Rusmes.Proto.Headers
import Rusmes.Storage.Runs

/-!
Message identity. The listing reads the identifier a file was written with only
when nothing stands between the colon and the identifier; for any other file it
draws a new one at every call.
-/

namespace Rusmes

open WireText

namespace Filesystem

variable {host reader : Host}

def listed (reader : Host) (store : Filesystem) (id : MailboxId) : List MessageMetadata :=
  (getMailboxMessages reader id store).1.toOption.getD []

def listedIds (reader : Host) (store : Filesystem) (id : MailboxId) : List MessageId :=
  (listed reader store id).map (·.messageId)

abbrev Ledger := List (MailboxId × MessageId)

def Ledger.ids (ledger : Ledger) (id : MailboxId) : List MessageId :=
  (ledger.filter (·.1 = id)).map Prod.snd

def record (host : Host) (state : Filesystem × Ledger) (operation : Operation) :
    Filesystem × Ledger :=
  (perform host state.1 operation,
    match operation with
    | .append id message =>
        if (appendMessage host id message state.1).1.isOk then state.2 ++ [(id, message.messageId)]
        else state.2
    | .delete ids => state.2.filter fun entry => !decide (entry.2 ∈ ids)
    | _ => state.2)

def Operation.onMessages : Operation → Prop
  | .append _ _ | .setFlags _ _ | .delete _ | .list _ => True
  | _ => False

/-- Whoever reads, and whatever new identifiers are drawn, a mailbox lists exactly the
mails appended to it and not deleted since, a second listing repeats the first, and
deleting or flagging by identifiers acts on the messages listed under them. -/
structure Stable (host : Host) (state : Filesystem × Ledger) : Prop where
  listing : ∀ (reader : Host), reader.toCaseMapping = host.toCaseMapping → ∀ id,
    (listedIds reader state.1 id).Perm (state.2.ids id)
  repeated : ∀ (reader : Host), reader.toCaseMapping = host.toCaseMapping → ∀ id,
    (listedIds reader (getMailboxMessages reader id state.1).2 id).Perm
      (listedIds reader state.1 id)
  deletes : ∀ (reader : Host), reader.toCaseMapping = host.toCaseMapping → ∀ ids id,
    (listedIds reader (deleteMessages host ids state.1).2 id).Perm
      ((listedIds reader state.1 id).filter fun listed => !decide (listed ∈ ids))
  flags : ∀ (reader : Host), reader.toCaseMapping = host.toCaseMapping → ∀ ids flags id,
    ((listed reader (Filesystem.setFlags host ids flags state.1).2 id).map fun entry =>
        (entry.messageId, entry.flags)).Perm
      ((listed reader state.1 id).map fun entry =>
        (entry.messageId, if entry.messageId ∈ ids then flags.system else entry.flags))

/-- The listing reads the mail's own identifier from the file it is written to. -/
def Readable (host : Host) (message : Mail) : Prop :=
  (MimeMessage.parseFromBytes host.toCaseMapping (serializeMessageToBytes message)).listedId
    host.toCaseMapping = some message.messageId

def AppendsReadable (host : Host) (state : Filesystem × Ledger) : Operation → Prop
  | .append id message => ∀ folder, state.1.folder id = some folder →
      state.1.admits folder.mailbox.path.user message.size → Readable host message
  | _ => True

theorem listedId_congr (same : reader.toCaseMapping = host.toCaseMapping) (file : MailFile) :
    listedId reader file = listedId host file := by
  rw [listedId, listedId, same]

theorem storedId_of_listedId {file : MailFile} {id : MessageId}
    (found : listedId host file = some id) : storedId host file = some id :=
  MimeMessage.storedId_of_listedId found

def Named (reader : Host) (name : MailFile → MessageId) (files : List MailFile) : Prop :=
  ∀ file ∈ files, ∀ moment, (listedId reader file).getD ⟨reader.newUuid moment⟩ = name file

theorem listEntries_named {name : MailFile → MessageId} {files : List MailFile}
    (named : Named reader name files) (id : MailboxId) (uid : UInt32) (moment : Nat) :
    (listEntries reader id uid moment files).map (fun entry => (entry.messageId, entry.flags)) =
      files.map fun file => (name file, MaildirFilename.decodeFlags file.name) := by
  induction files generalizing uid moment with
  | nil => rfl
  | cons file files ih =>
      have first := named file List.mem_cons_self moment
      have later := ih (fun other member => named other (List.mem_cons_of_mem _ member))
        (uid + 1) (moment + 1)
      rw [listEntries, List.map_cons, List.map_cons, later, first]

theorem listed_found {store : Filesystem} {id : MailboxId} {folder : Folder}
    (found : store.folder id = some folder) :
    listed reader store id = listEntries reader id 1 (store.moment + 2)
      (folderWalk reader store.moment folder) := by
  rw [listed, getMailboxMessages_found found]
  rfl

theorem listed_missing {store : Filesystem} {id : MailboxId} (missing : store.folder id = none) :
    listed reader store id = [] := by
  rw [listed, getMailboxMessages_missing missing]
  rfl

theorem listed_named {name : MailFile → MessageId} {store : Filesystem} {id : MailboxId}
    {folder : Folder} (found : store.folder id = some folder)
    (named : Named reader name folder.files) :
    ((listed reader store id).map fun entry => (entry.messageId, entry.flags)).Perm
      (folder.files.map fun file => (name file, MaildirFilename.decodeFlags file.name)) := by
  have walked := folderWalk_perm reader store.moment folder
  rw [listed_found found, listEntries_named fun file member => named file (walked.mem_iff.mp member)]
  exact walked.map _

theorem listedIds_named {name : MailFile → MessageId} {store : Filesystem} {id : MailboxId}
    {folder : Folder} (found : store.folder id = some folder)
    (named : Named reader name folder.files) :
    (listedIds reader store id).Perm (folder.files.map name) := by
  have pairs := (listed_named found named).map Prod.fst
  rw [List.map_map, List.map_map] at pairs
  exact pairs

theorem listedIds_unread {store : Filesystem} {id : MailboxId} {folder : Folder} {file : MailFile}
    (found : store.folder id = some folder)
    (alone : folderWalk reader store.moment folder = [file])
    (unread : listedId reader file = none) :
    listedIds reader store id = [⟨reader.newUuid (store.moment + 2)⟩] := by
  rw [listedIds, listed_found found, alone, listEntries, listEntries, unread]
  rfl

/-! Files and ledger side by side. -/

structure Tracked (host : Host) (state : Filesystem × Ledger) : Prop where
  orderly : state.1.Orderly
  missing : ∀ id, state.1.folder id = none → state.2.ids id = []
  held : ∀ id folder, state.1.folder id = some folder →
    (folder.files.map (listedId host)).Perm ((state.2.ids id).map some)

def fileId (host : Host) (file : MailFile) : MessageId := (listedId host file).getD ⟨0⟩

theorem Tracked.readable {state : Filesystem × Ledger} (tracked : Tracked host state)
    {id : MailboxId} {folder : Folder} (found : state.1.folder id = some folder)
    {file : MailFile} (member : file ∈ folder.files) :
    listedId host file = some (fileId host file) := by
  have inside := (tracked.held id folder found).mem_iff.mp (List.mem_map_of_mem member)
  obtain ⟨name, -, same⟩ := List.mem_map.mp inside
  rw [fileId, ← same, Option.getD_some]

theorem Tracked.files {state : Filesystem × Ledger} (tracked : Tracked host state)
    {id : MailboxId} {folder : Folder} (found : state.1.folder id = some folder) :
    (folder.files.map (fileId host)).Perm (state.2.ids id) := by
  have same : folder.files.map (listedId host) = (folder.files.map (fileId host)).map some := by
    rw [List.map_map]
    exact List.map_congr_left fun file member => tracked.readable found member
  have both := tracked.held id folder found
  rw [same] at both
  exact (List.map_perm_map_iff (Option.some_injective _)).mp both

theorem Tracked.named {state : Filesystem × Ledger} (tracked : Tracked host state)
    {id : MailboxId} {folder : Folder} (found : state.1.folder id = some folder)
    (same : reader.toCaseMapping = host.toCaseMapping) :
    Named reader (fileId host) folder.files := by
  intro file member moment
  rw [listedId_congr same, tracked.readable found member, Option.getD_some]

theorem Tracked.listing {state : Filesystem × Ledger} (tracked : Tracked host state)
    (same : reader.toCaseMapping = host.toCaseMapping) (id : MailboxId) :
    (listedIds reader state.1 id).Perm (state.2.ids id) := by
  cases found : state.1.folder id with
  | none =>
      rw [listedIds, listed_missing found, tracked.missing id found]
      exact List.Perm.refl _
  | some folder =>
      exact (listedIds_named found (tracked.named found same)).trans (tracked.files found)

theorem Tracked.carries {state : Filesystem × Ledger} (tracked : Tracked host state)
    {id : MailboxId} {folder : Folder} (found : state.1.folder id = some folder)
    {file : MailFile} (member : file ∈ folder.files) (ids : List MessageId) :
    carriesId host ids file = decide (fileId host file ∈ ids) := by
  rw [carriesId, storedId_of_listedId (tracked.readable found member)]
  rfl

theorem ids_filter (ledger : Ledger) (keep : MessageId → Bool) (id : MailboxId) :
    Ledger.ids (ledger.filter fun entry => keep entry.2) id = (ledger.ids id).filter keep := by
  rw [Ledger.ids, Ledger.ids, List.filter_map, List.filter_filter, List.filter_filter]
  congr 1
  apply List.filter_congr
  intro entry _
  exact Bool.and_comm _ _

theorem Tracked.delete {state : Filesystem × Ledger} (tracked : Tracked host state)
    (ids : List MessageId) : Tracked host (record host state (.delete ids)) where
  orderly := perform_orderly (by simp) tracked.orderly
  missing id missing := by
    rw [record, perform, folder_deleteMessages, Option.map_eq_none_iff] at missing
    rw [record, ids_filter state.2 (fun name => !decide (name ∈ ids)), tracked.missing id missing]
    rfl
  held id folder present := by
    rw [record, perform, folder_deleteMessages] at present
    obtain ⟨source, found, rfl⟩ := Option.map_eq_some_iff.mp present
    have kept : (source.files.filter fun file => !carriesId host ids file) =
        source.files.filter ((fun name => !decide (name ∈ ids)) ∘ fileId host) := by
      apply List.filter_congr
      intro file member
      rw [tracked.carries found member]
      rfl
    have same : (source.files.filter ((fun name => !decide (name ∈ ids)) ∘ fileId host)).map
        (listedId host) = ((source.files.map (fileId host)).filter
          fun name => !decide (name ∈ ids)).map some := by
      rw [List.filter_map, List.map_map]
      apply List.map_congr_left
      intro file member
      exact tracked.readable found (List.mem_of_mem_filter member)
    rw [record, ids_filter state.2 (fun name => !decide (name ∈ ids)), expungeFolder_files, kept,
      same]
    exact ((tracked.files found).filter _).map some

theorem Tracked.setFlags {state : Filesystem × Ledger} (tracked : Tracked host state)
    (ids : List MessageId) (flags : MessageFlags) :
    Tracked host (record host state (.setFlags ids flags)) where
  orderly := perform_orderly (by simp) tracked.orderly
  missing id missing := by
    change (Filesystem.setFlags host ids flags state.1).2.folder id = none at missing
    rw [folder_setFlags, Option.map_eq_none_iff] at missing
    exact tracked.missing id missing
  held id folder present := by
    change (Filesystem.setFlags host ids flags state.1).2.folder id = some folder at present
    rw [folder_setFlags] at present
    obtain ⟨source, found, rfl⟩ := Option.map_eq_some_iff.mp present
    have moved := (flagFolder_files host ids flags state.1.moment
      (tracked.orderly.wellNamed found)).map (listedId host)
    rw [List.map_map] at moved
    have same : source.files.map (listedId host ∘ flaggedFile host ids flags) =
        source.files.map (listedId host) := by
      apply List.map_congr_left
      intro file _
      rw [Function.comp_apply, listedId, listedId, flaggedFile_data]
    rw [same] at moved
    exact moved.trans (tracked.held id source found)

theorem Tracked.list {state : Filesystem × Ledger} (tracked : Tracked host state)
    (id : MailboxId) : Tracked host (record host state (.list id)) := by
  obtain ⟨messages, moment, ran⟩ := getMailboxMessages_disk host id state.1
  change Tracked host ((getMailboxMessages host id state.1).2, state.2)
  rw [ran]
  exact ⟨tracked.orderly, tracked.missing, tracked.held⟩

theorem Tracked.stable {state : Filesystem × Ledger} (tracked : Tracked host state) :
    Stable host state where
  listing reader same id := tracked.listing same id
  repeated reader same id := by
    obtain ⟨messages, moment, ran⟩ := getMailboxMessages_disk reader id state.1
    have later : Tracked host ((getMailboxMessages reader id state.1).2, state.2) := by
      rw [ran]
      exact ⟨tracked.orderly, tracked.missing, tracked.held⟩
    exact (later.listing same id).trans (tracked.listing same id).symm
  deletes reader same ids id := by
    have after := (tracked.delete ids).listing same id
    rw [record, ids_filter state.2 (fun name => !decide (name ∈ ids))] at after
    exact after.trans ((tracked.listing same id).symm.filter _)
  flags reader same ids flags id := by
    cases found : state.1.folder id with
    | none =>
        have missing : (Filesystem.setFlags host ids flags state.1).2.folder id = none := by
          rw [folder_setFlags, found]
          rfl
        rw [listed_missing found, listed_missing missing]
        exact List.Perm.refl _
    | some folder =>
        have present : (Filesystem.setFlags host ids flags state.1).2.folder id =
            some (flagFolder host state.1.moment ids flags folder) := by
          rw [folder_setFlags, found]
          rfl
        have before := listed_named found (tracked.named found same)
        have after := listed_named present ((tracked.setFlags ids flags).named present same)
        have moved := flagFolder_files host ids flags state.1.moment
          (tracked.orderly.wellNamed found)
        have pairs := moved.map fun file => (fileId host file, MaildirFilename.decodeFlags file.name)
        rw [List.map_map] at pairs
        have same : folder.files.map ((fun file => (fileId host file,
              MaildirFilename.decodeFlags file.name)) ∘ flaggedFile host ids flags) =
            (folder.files.map fun file => (fileId host file,
              MaildirFilename.decodeFlags file.name)).map
                fun pair => (pair.1, if pair.1 ∈ ids then flags.system else pair.2) := by
          rw [List.map_map]
          apply List.map_congr_left
          intro file member
          have name : fileId host (flaggedFile host ids flags file) = fileId host file := by
            rw [fileId, fileId, listedId, listedId, flaggedFile_data]
          simp only [Function.comp_apply, name, Prod.mk.injEq, true_and]
          rw [flaggedFile, tracked.carries found member]
          by_cases chosen : fileId host file ∈ ids
          · simp [chosen, MaildirFilename.decodeFlags_withFlags]
          · simp [chosen]
        rw [same] at pairs
        have whole := after.trans (pairs.trans (before.symm.map _))
        rw [List.map_map] at whole
        exact whole

theorem ids_append (ledger : Ledger) (id : MailboxId) (name : MessageId) (other : MailboxId) :
    Ledger.ids (ledger ++ [(id, name)]) other =
      if other = id then ledger.ids other ++ [name] else ledger.ids other := by
  simp only [Ledger.ids, List.filter_append, List.map_append]
  by_cases same : other = id
  · simp [same]
  · simp [same, Ne.symm same]

theorem files_receiveFile (host : Host) {store : Filesystem} {folder : Folder} (message : Mail)
    (numbered : folder.Numbered store.deliveryCounter) :
    (receiveFile (deliveredFile host store message) folder).files.Perm
      (deliveredFile host store message :: folder.files) := by
  rw [Folder.files, (receiveFile_numbered host message numbered).1, Folder.files,
    List.append_assoc]
  exact List.perm_middle

theorem record_append_cases (host : Host) (state : Filesystem × Ledger) (id : MailboxId)
    (message : Mail) :
    ((∀ folder, state.1.folder id = some folder →
        ¬state.1.admits folder.mailbox.path.user message.size) ∧
      record host state (.append id message) = state) ∨
    ∃ folder, state.1.folder id = some folder ∧
      state.1.admits folder.mailbox.path.user message.size ∧
      record host state (.append id message) =
        (appended host id message folder.mailbox.path.user state.1,
          state.2 ++ [(id, message.messageId)]) := by
  rcases appendMessage_cases host id message state.1 with
    ⟨error, refused, ran⟩ | ⟨folder, found, admitted, ran⟩
  · refine Or.inl ⟨refused, ?_⟩
    simp only [record, perform, ran]
    rfl
  · refine Or.inr ⟨folder, found, admitted, ?_⟩
    simp only [record, perform, ran]
    rfl

theorem Tracked.append {state : Filesystem × Ledger} (tracked : Tracked host state)
    {id : MailboxId} {message : Mail} (readable : AppendsReadable host state (.append id message)) :
    Tracked host (record host state (.append id message)) := by
  have orderly : (record host state (.append id message)).1.Orderly :=
    perform_orderly (by simp) tracked.orderly
  rcases record_append_cases host state id message with
    ⟨_, ran⟩ | ⟨folder, found, admitted, ran⟩
  · rw [ran]
    exact tracked
  · rw [ran] at orderly ⊢
    refine ⟨orderly, ?_, ?_⟩
    · intro other missing
      rw [folder_appended] at missing
      rw [ids_append]
      split at missing
      · rename_i same
        rw [same, found] at missing
        cases missing
      · rename_i different
        rw [if_neg different]
        exact tracked.missing other missing
    · intro other held present
      rw [folder_appended] at present
      rw [ids_append]
      split at present
      · rename_i same
        subst same
        obtain ⟨source, inside, rfl⟩ := Option.map_eq_some_iff.mp present
        have received := (files_receiveFile host message (tracked.orderly other source inside)).map
          (listedId host)
        have named : listedId host (deliveredFile host state.1 message) =
            some message.messageId := readable folder found admitted
        rw [if_pos rfl, List.map_append, List.map_singleton]
        rw [List.map_cons, named] at received
        refine received.trans (List.Perm.trans ?_ List.perm_append_comm)
        exact (tracked.held other source inside).cons _
      · rename_i different
        rw [if_neg different]
        exact tracked.held other held present

def drawing (host : Host) (uuid : BitVec 128) : Host := { host with newUuid := fun _ => uuid }

theorem unreadable_not_stable {state : Filesystem × Ledger} (tracked : Tracked host state)
    {id : MailboxId} {message : Mail} (hidden : ¬AppendsReadable host state (.append id message)) :
    ¬Stable host (record host state (.append id message)) := by
  intro stable
  rcases record_append_cases host state id message with
    ⟨refused, -⟩ | ⟨folder, found, admitted, ran⟩
  · apply hidden
    intro folder found admitted
    exact absurd admitted (refused folder found)
  · have unread : listedId host (deliveredFile host state.1 message) ≠ some message.messageId := by
      intro named
      exact hidden fun _ _ _ => named
    obtain ⟨other, different⟩ : ∃ other : BitVec 128, other ≠ message.messageId.uuid :=
      ⟨message.messageId.uuid + 1, by bv_omega⟩
    have draws := stable.listing (drawing host other) rfl id
    rw [ran, ids_append, if_pos rfl] at draws
    have present : (appended host id message folder.mailbox.path.user state.1).folder id =
        some (receiveFile (deliveredFile host state.1 message) folder) := by
      rw [folder_appended, if_pos rfl, found]
      rfl
    have named : Named (drawing host other) (fun file => (listedId host file).getD ⟨other⟩)
        (receiveFile (deliveredFile host state.1 message) folder).files := by
      intro file _ moment
      rfl
    have listing := listedIds_named present named
    have received := (files_receiveFile host message (tracked.orderly id folder found)).map
      fun file => (listedId host file).getD ⟨other⟩
    have old : (folder.files.map fun file => (listedId host file).getD ⟨other⟩) =
        folder.files.map (fileId host) := by
      apply List.map_congr_left
      intro file member
      rw [tracked.readable found member]
      rfl
    rw [List.map_cons, old] at received
    have both := ((received.symm.trans listing.symm).trans draws).trans
      (List.perm_append_comm.trans ((tracked.files found).symm.cons _))
    have counted := both.count_eq message.messageId
    have absent : ((listedId host (deliveredFile host state.1 message)).getD ⟨other⟩) ≠
        message.messageId := by
      cases read : listedId host (deliveredFile host state.1 message) with
      | none =>
          intro same
          exact different (congrArg MessageId.uuid same)
      | some name =>
          rw [read] at unread
          intro same
          exact unread (congrArg some same)
    rw [List.count_cons_of_ne absent, List.count_cons_self] at counted
    omega

theorem record_stable_iff {state : Filesystem × Ledger} {operation : Operation}
    (basic : operation.onMessages) (tracked : Tracked host state) :
    Stable host (record host state operation) ↔ AppendsReadable host state operation := by
  cases operation with
  | append id message =>
      constructor
      · intro stable
        by_contra hidden
        exact unreadable_not_stable tracked hidden stable
      · intro readable
        exact (tracked.append readable).stable
  | setFlags ids flags => exact iff_of_true (tracked.setFlags ids flags).stable trivial
  | delete ids => exact iff_of_true (tracked.delete ids).stable trivial
  | list id => exact iff_of_true (tracked.list id).stable trivial
  | copy | deleteMailbox | restart => exact basic.elim

theorem record_tracked {state : Filesystem × Ledger} {operation : Operation}
    (basic : operation.onMessages) (tracked : Tracked host state)
    (readable : AppendsReadable host state operation) :
    Tracked host (record host state operation) := by
  cases operation with
  | append id message => exact tracked.append readable
  | setFlags ids flags => exact tracked.setFlags ids flags
  | delete ids => exact tracked.delete ids
  | list id => exact tracked.list id
  | copy | deleteMailbox | restart => exact basic.elim

/-- Over a whole run from a store without messages, identity is stable throughout if
and only if every mail that is appended can be read back by the listing. -/
theorem identity_stable_iff_readable (host : Host) {store : Filesystem}
    (empty : ∀ id folder, store.folder id = some folder → folder.files = [])
    {operations : List Operation} (basic : ∀ operation ∈ operations, operation.onMessages) :
    (∀ done, done <+: operations → Stable host (done.foldl (record host) (store, []))) ↔
      ∀ done operation later, operations = done ++ operation :: later →
        AppendsReadable host (done.foldl (record host) (store, [])) operation := by
  have tracked : Tracked host (store, []) := by
    refine ⟨orderly_of_empty empty, fun _ _ => rfl, ?_⟩
    intro id folder found
    rw [empty id folder found]
    exact List.Perm.refl _
  apply Machine.foldl_good_iff Operation.onMessages (Tracked host)
  · intro state operation allowed kept _ stable
    exact record_tracked allowed kept ((record_stable_iff allowed kept).mp stable)
  · intro state operation allowed kept _
    exact record_stable_iff allowed kept
  · exact basic
  · exact tracked
  · exact tracked.stable

theorem identity_stable_after_smuggling :
    (∀ id folder, freshStore.folder id = some folder → folder.files = []) ∧
    ∀ done, done <+: [.append inboxId (smuggling ⟨7⟩), .delete [⟨7⟩]] →
      Stable plainHost (done.foldl (record plainHost) (freshStore, [])) := by
  have basic : ∀ operation ∈ [Operation.append inboxId (smuggling ⟨7⟩), .delete [⟨7⟩]],
      operation.onMessages := by
    simp [Operation.onMessages]
  refine ⟨fun _ _ => freshStore_files, ?_⟩
  apply (identity_stable_iff_readable plainHost (fun _ _ => freshStore_files) basic).mpr
  intro done operation later split
  match done, split with
  | [], split =>
      cases split
      intro _ _ _
      exact listedId_smuggling _ _
  | [_], split =>
      cases split
      trivial
  | _ :: _ :: _, split => simp at split

/-- An ordinary mail is listed under an identifier nobody appended, and under another
one the next time. -/
theorem ordinary_append_not_stable :
    let state := record plainHost (freshStore, []) (.append inboxId (noteFromAlice []))
    state.2.ids inboxId = [⟨0⟩] ∧ listedIds plainHost state.1 inboxId = [⟨3⟩] ∧
      listedIds plainHost (getMailboxMessages plainHost inboxId state.1).2 inboxId = [⟨6⟩] ∧
      ¬Stable plainHost state := by
  intro state
  have plain : (noteFromAlice []).PlainHeaders := by
    intro field member
    cases member
  have unread : listedId plainHost (deliveredFile plainHost freshStore (noteFromAlice [])) = none :=
    listedId_serialize plainHost.toCaseMapping plain
  have found : state.1.folder inboxId =
      some ⟨aliceInbox, [deliveredFile plainHost freshStore (noteFromAlice [])], []⟩ := rfl
  have again : (getMailboxMessages plainHost inboxId state.1).2.folder inboxId =
      some ⟨aliceInbox, [deliveredFile plainHost freshStore (noteFromAlice [])], []⟩ := by
    rw [getMailboxMessages_found found]
    exact found
  have first : listedIds plainHost state.1 inboxId = [⟨3⟩] := by
    rw [listedIds_unread found rfl unread]
    rfl
  refine ⟨rfl, first, ?_, ?_⟩
  · rw [listedIds_unread again rfl unread, getMailboxMessages_found found]
    rfl
  · intro stable
    have listing := stable.listing plainHost rfl inboxId
    rw [first] at listing
    revert listing
    decide

end Filesystem

end Rusmes
