import Rusmes.Storage.Kept

/-!
Copies. The listing caches a mail for every identifier it shows, and a copy is an
append of the cached mail. It keeps the identifier its source was stored with, and
the listing never reads it.
-/

namespace Rusmes

open WireText

namespace Filesystem

variable {host : Host}

def filesOf (store : Filesystem) (id : MailboxId) : List MailFile :=
  ((store.folder id).map Folder.files).getD []

theorem SameDisk.filesOf {store next : Filesystem} (same : SameDisk store next) (id : MailboxId) :
    next.filesOf id = store.filesOf id := by
  rw [Filesystem.filesOf, Filesystem.filesOf, same.folder]

theorem filesOf_found {store : Filesystem} {id : MailboxId} {folder : Folder}
    (found : store.folder id = some folder) : store.filesOf id = folder.files := by
  rw [filesOf, found]
  rfl

/-- The identifier under which a listing shows a file when it draws at a moment. -/
def shownId (host : Host) (moment : Nat) (file : MailFile) : MessageId :=
  (listedId host file).getD ⟨host.newUuid moment⟩

theorem listEntries_eq (id : MailboxId) (uid : UInt32) (moment start : Nat)
    (files : List MailFile) :
    listEntries host id (uid + UInt32.ofNat start) (moment + start) files =
      (files.zipIdx start).map fun entry =>
        ⟨shownId host (moment + entry.2) entry.1, id, uid + UInt32.ofNat entry.2,
          MaildirFilename.decodeFlags entry.1.name, entry.1.data.length⟩ := by
  induction files generalizing start with
  | nil => rfl
  | cons file files ih =>
      have next : uid + UInt32.ofNat start + 1 = uid + UInt32.ofNat (start + 1) := by
        rw [UInt32.add_assoc, UInt32.ofNat_add]
        rfl
      rw [listEntries, List.zipIdx_cons, List.map_cons, next, Nat.add_assoc, ih]
      rfl

theorem lookup_cacheListed (moment : Nat) (files : List MailFile)
    (messages : Table MessageId Mail) (id : MessageId) :
    (∃ entry ∈ files.zipIdx, shownId host (moment + entry.2) entry.1 = id ∧
        (cacheListed host moment files messages).lookup id =
          some (mailOf host (moment + entry.2) id entry.1)) ∨
      (∀ entry ∈ files.zipIdx, shownId host (moment + entry.2) entry.1 ≠ id) ∧
        (cacheListed host moment files messages).lookup id = messages.lookup id := by
  induction files generalizing moment messages with
  | nil => exact .inr ⟨by simp, rfl⟩
  | cons file files ih =>
      have shifted : ∀ entry : MailFile × Nat, entry ∈ files.zipIdx 1 ↔
          ∃ before ∈ files.zipIdx, entry = (before.1, before.2 + 1) := by
        intro entry
        rw [List.zipIdx_succ, List.mem_map]
        simp only [eq_comm]
      rw [List.zipIdx_cons, cacheListed]
      rcases ih (moment + 1) (messages.insert (shownId host moment file)
        (mailOf host moment (shownId host moment file) file)) with
        ⟨entry, member, shown, held⟩ | ⟨absent, held⟩
      · refine .inl ⟨(entry.1, entry.2 + 1), ?_, ?_, ?_⟩
        · exact List.mem_cons_of_mem _ ((shifted _).mpr ⟨entry, member, rfl⟩)
        · rw [← shown, Nat.add_right_comm, Nat.add_assoc]
        · rw [← Nat.add_assoc, Nat.add_right_comm]
          exact held
      · by_cases here : shownId host moment file = id
        · subst here
          refine .inl ⟨(file, 0), List.mem_cons_self, rfl, ?_⟩
          exact held.trans (AList.lookup_insert messages)
        · refine .inr ⟨?_, held.trans (AList.lookup_insert_ne (Ne.symm here))⟩
          intro entry member
          rcases List.mem_cons.mp member with rfl | later
          · exact here
          · obtain ⟨before, inside, rfl⟩ := (shifted entry).mp later
            have other := absent before inside
            rw [Nat.add_right_comm, Nat.add_assoc] at other
            exact other

theorem mailOf_parsed (host : Host) (moment : Nat) (id : MessageId) (file : MailFile) :
    (mailOf host moment id file).message =
      MimeMessage.parseFromBytes host.toCaseMapping file.data := rfl

def CopyOf (host : Host) (file : MailFile) (id : MessageId) (copy : MailFile) : Prop :=
  ∃ moment, copy.data = serializeMessageToBytes (mailOf host moment id file)

theorem CopyOf.listedId {file copy : MailFile} {id : MessageId} (made : CopyOf host file id copy) :
    listedId host copy = none := by
  obtain ⟨moment, data⟩ := made
  rw [Filesystem.listedId, data]
  exact listedId_serialize _
    (plainHeaders_of_parsed (congrArg MimeMessage.headers (mailOf_parsed host moment id file)))

theorem CopyOf.body {file copy : MailFile} {id : MessageId} (made : CopyOf host file id copy) :
    (MimeMessage.parseFromBytes host.toCaseMapping copy.data).body =
      (MimeMessage.parseFromBytes host.toCaseMapping file.data).body := by
  obtain ⟨moment, data⟩ := made
  rw [data]
  exact body_serialize _
    (plainHeaders_of_parsed (congrArg MimeMessage.headers (mailOf_parsed host moment id file)))

def idField (host : Host) (file : MailFile) : Option Text :=
  (MimeMessage.parseFromBytes host.toCaseMapping file.data).headers.getFirst host.toCaseMapping
    rusmesMessageId

theorem storedId_unnamed {file : MailFile} (unnamed : idField host file = none) :
    storedId host file = none := by
  rw [storedId, MimeMessage.storedId, show HeaderMap.getFirst _ _ _ = none from unnamed]
  rfl

theorem CopyOf.storedId_eq {file copy : MailFile} {id : MessageId} (made : CopyOf host file id copy) :
    storedId host copy = match idField host file with
      | none => some id
      | some _ => storedId host file := by
  obtain ⟨moment, data⟩ := made
  rw [storedId, data]
  exact @storedId_reserialize host.toCaseMapping _ _
    (congrArg MimeMessage.headers (mailOf_parsed host moment id file))

theorem CopyOf.storedId {file copy : MailFile} {id : MessageId} (made : CopyOf host file id copy) :
    storedId host copy = storedId host file ∨
      Filesystem.listedId host file = none ∧ storedId host file = none ∧
        storedId host copy = some id := by
  have read := made.storedId_eq
  cases field : idField host file with
  | none =>
      rw [field] at read
      refine .inr ⟨?_, storedId_unnamed field, read⟩
      rw [Filesystem.listedId, MimeMessage.listedId, show HeaderMap.getFirst _ _ _ = none from field]
      rfl
  | some text =>
      rw [field] at read
      exact .inl read

/-! All copies. -/

/-- What a copy of the identifiers did: it appended the mails of the first `done`. -/
structure CopiedUntil (host : Host) (dest : MailboxId) (mails : MessageId → Mail)
    (store : Filesystem) (folder : Folder) (done : List MessageId) (copies : List MailFile)
    (after : Filesystem) : Prop where
  orderly : after.Orderly
  received : after.folder dest = some { folder with new := folder.new ++ copies }
  others : ∀ id, id ≠ dest → after.folder id = store.folder id
  contents : copies.map MailFile.data = done.map fun id => serializeMessageToBytes (mails id)

structure Settled (store : Filesystem) (mails : MessageId → Mail) (id : MessageId) : Prop where
  cached : store.messages.lookup id = some (mails id)
  named : (mails id).messageId = id
  drained : { mails id with message.body := (mails id).message.body.drained } = mails id

theorem Settled.appended {store : Filesystem} {mails : MessageId → Mail} {id other : MessageId}
    (first : store.Settled mails id) (before : store.Settled mails other) (host : Host)
    (dest : MailboxId) (user : Username) :
    (appended host dest (mails id) user store).Settled mails other := by
  have cache : (Filesystem.appended host dest (mails id) user store).messages =
      store.messages.insert id (mails id) :=
    congrArg₂ (fun key mail => store.messages.insert key mail) first.named first.drained
  refine ⟨?_, before.named, before.drained⟩
  rw [cache]
  by_cases same : other = id
  · rw [same, AList.lookup_insert]
  · rw [AList.lookup_insert_ne same, before.cached]

theorem copyMessages_after {dest : MailboxId} {id : MessageId} {ids : List MessageId}
    {store next : Filesystem} {mail : Mail} {metadata : MessageMetadata}
    (cached : store.messages.lookup id = some mail)
    (ran : appendMessage host dest mail store = (.ok metadata, next)) :
    (copyMessages host dest (id :: ids) store).2 = (copyMessages host dest ids next).2 ∧
      (copyMessages host dest (id :: ids) store).1.isOk =
        (copyMessages host dest ids next).1.isOk := by
  rw [copyMessages, Effect.read_bind, cached]
  dsimp only
  rw [Effect.bind_ok ran]
  rcases rest : copyMessages host dest ids next with ⟨others, final⟩
  cases others with
  | error error =>
      rw [Effect.bind_error rest]
      exact ⟨rfl, rfl⟩
  | ok others =>
      rw [Effect.bind_ok rest]
      exact ⟨rfl, rfl⟩

theorem copyMessages_stopped {dest : MailboxId} {id : MessageId} {ids : List MessageId}
    {store : Filesystem} {mail : Mail} {error : Text}
    (cached : store.messages.lookup id = some mail)
    (ran : appendMessage host dest mail store = (.error error, store)) :
    copyMessages host dest (id :: ids) store = (.error error, store) := by
  rw [copyMessages, Effect.read_bind, cached]
  exact Effect.bind_error ran

theorem copyMessages_until {dest : MailboxId} {ids : List MessageId} {store : Filesystem}
    {folder : Folder} {mails : MessageId → Mail} (settled : ∀ id ∈ ids, store.Settled mails id)
    (orderly : store.Orderly) (found : store.folder dest = some folder) :
    ∃ done copies, done <+: ids ∧
      CopiedUntil host dest mails store folder done copies (copyMessages host dest ids store).2 ∧
      ((copyMessages host dest ids store).1.isOk = true ↔ done = ids) ∧
      (done = [] ↔ ∀ id rest, ids = id :: rest →
        ¬store.admits folder.mailbox.path.user (mails id).size) := by
  induction ids generalizing store folder with
  | nil =>
      refine ⟨[], [], List.nil_prefix, ⟨orderly, ?_, fun _ _ => rfl, rfl⟩,
        iff_of_true rfl rfl, ?_⟩
      · rw [List.append_nil]
        exact found
      · simp
  | cons id ids ih =>
      have first := settled id List.mem_cons_self
      rcases appendMessage_cases host dest (mails id) store with
        ⟨error, refused, ran⟩ | ⟨held, there, admitted, ran⟩
      · rw [copyMessages_stopped first.cached ran]
        refine ⟨[], [], List.nil_prefix, ⟨orderly, ?_, fun _ _ => rfl, rfl⟩,
          iff_of_false Bool.false_ne_true (List.cons_ne_nil id ids).symm, ?_⟩
        · rw [List.append_nil]
          exact found
        · refine iff_of_true rfl ?_
          rintro other rest same
          cases same
          exact refused folder found
      · rw [found, Option.some.injEq] at there
        subst there
        let next := appended host dest (mails id) folder.mailbox.path.user store
        have numbered := receiveFile_numbered host (mails id) (orderly dest folder found)
        let copy := deliveredFile host store (mails id)
        let grown : Folder := { folder with new := folder.new ++ [copy] }
        have received : next.folder dest = some grown := by
          rw [folder_appended, if_pos rfl, found]
          change some (receiveFile copy folder) = _
          rw [receiveFile, show placeFile copy folder.new = folder.new ++ [copy] from numbered.1]
        have nextOrderly : next.Orderly := by
          have kept := @appendMessage_orderly host dest store (mails id) orderly
          rw [ran] at kept
          exact kept
        have kept : ∀ other ∈ ids, next.Settled mails other := fun other member =>
          first.appended (settled other (List.mem_cons_of_mem _ member)) host dest _
        obtain ⟨done, copies, within, copied, complete, _⟩ := ih kept nextOrderly received
        have ran' : (copyMessages host dest (id :: ids) store).2 = (copyMessages host dest ids next).2 ∧
            (copyMessages host dest (id :: ids) store).1.isOk =
              (copyMessages host dest ids next).1.isOk := copyMessages_after first.cached ran
        refine ⟨id :: done, copy :: copies, ?_, ⟨?_, ?_, ?_, ?_⟩, ?_, ?_⟩
        · exact List.cons_prefix_cons.mpr ⟨rfl, within⟩
        · rw [ran'.1]
          exact copied.orderly
        · rw [ran'.1, copied.received]
          simp [grown]
        · intro other different
          rw [ran'.1, copied.others other different]
          exact (folder_appended dest _ _ store other).trans (if_neg different)
        · rw [List.map_cons, List.map_cons, copied.contents]
          rfl
        · rw [ran'.2, complete]
          simp
        · exact iff_of_false (List.cons_ne_nil id done) fun refused => refused id ids rfl admitted

def AdmitsInTurn (limit : UInt64) : UInt64 → List Nat → Prop
  | _, [] => True
  | used, size :: sizes =>
      used + UInt64.ofNat size ≤ limit ∧ AdmitsInTurn limit (used + UInt64.ofNat size) sizes

theorem copyMessages_isOk_iff {dest : MailboxId} {ids : List MessageId} {store : Filesystem}
    {folder : Folder} {mails : MessageId → Mail} (settled : ∀ id ∈ ids, store.Settled mails id)
    (found : store.folder dest = some folder) :
    (copyMessages host dest ids store).1.isOk = true ↔
      AdmitsInTurn (store.quotaOf folder.mailbox.path.user).limit
        (store.quotaOf folder.mailbox.path.user).used (ids.map fun id => (mails id).size) := by
  induction ids generalizing store folder with
  | nil => exact iff_of_true rfl trivial
  | cons id ids ih =>
      have first := settled id List.mem_cons_self
      rcases appendMessage_cases host dest (mails id) store with
        ⟨error, refused, ran⟩ | ⟨held, there, admitted, ran⟩
      · rw [copyMessages_stopped first.cached ran]
        exact iff_of_false Bool.false_ne_true fun admits => refused folder found admits.1
      · rw [found, Option.some.injEq] at there
        subst there
        have kept : ∀ other ∈ ids, (appended host dest (mails id) folder.mailbox.path.user
            store).Settled mails other := fun other member =>
          first.appended (settled other (List.mem_cons_of_mem _ member)) host dest _
        have received : (appended host dest (mails id) folder.mailbox.path.user store).folder dest =
            some (receiveFile (deliveredFile host store (mails id)) folder) := by
          rw [folder_appended, if_pos rfl, found]
          rfl
        have later := ih kept received
        have charged : (appended host dest (mails id) folder.mailbox.path.user store).quotaOf
            folder.mailbox.path.user = { store.quotaOf folder.mailbox.path.user with
              used := (store.quotaOf folder.mailbox.path.user).used +
                UInt64.ofNat (mails id).size } := by
          rw [quotaOf, appended, AList.lookup_insert]
          rfl
        rw [(copyMessages_after first.cached ran).2, later]
        change AdmitsInTurn (quotaOf _ folder.mailbox.path.user).limit
          (quotaOf _ folder.mailbox.path.user).used _ ↔ _
        rw [charged]
        exact (and_iff_right admitted).symm

/-! Copies of what a listing shows. -/

section Listed

variable {store : Filesystem} {source dest : MailboxId} {folder : Folder}

def entryId (host : Host) (store : Filesystem) (entry : MailFile × Nat) : MessageId :=
  shownId host (store.moment + 2 + entry.2) entry.1

def entriesOf (host : Host) (store : Filesystem) (id : MailboxId) : List (MailFile × Nat) :=
  (((store.folder id).map (folderWalk host store.moment)).getD []).zipIdx

theorem entriesOf_found (found : store.folder source = some folder) :
    entriesOf host store source = (folderWalk host store.moment folder).zipIdx := by
  rw [entriesOf, found]
  rfl

theorem mem_filesOf_of_entry {entry : MailFile × Nat} (member : entry ∈ entriesOf host store source) :
    entry.1 ∈ store.filesOf source := by
  cases found : store.folder source with
  | none =>
      rw [entriesOf, found] at member
      cases member
  | some folder =>
      rw [entriesOf_found found] at member
      rw [filesOf_found found, ← (folderWalk_perm host store.moment folder).mem_iff]
      exact List.fst_mem_of_mem_zipIdx member

theorem entriesOf_length (host : Host) (store : Filesystem) (id : MailboxId) :
    (entriesOf host store id).length = (store.filesOf id).length := by
  cases found : store.folder id with
  | none =>
      rw [entriesOf, found, filesOf, found]
      rfl
  | some folder =>
      rw [entriesOf_found found, filesOf_found found, List.length_zipIdx]
      exact (folderWalk_perm host store.moment folder).length_eq

def entryMetadata (host : Host) (store : Filesystem) (id : MailboxId) (entry : MailFile × Nat) :
    MessageMetadata :=
  ⟨entryId host store entry, id, 1 + UInt32.ofNat entry.2,
    MaildirFilename.decodeFlags entry.1.name, entry.1.data.length⟩

theorem listed_eq (host : Host) (store : Filesystem) (id : MailboxId) :
    listed host store id = (entriesOf host store id).map (entryMetadata host store id) := by
  cases found : store.folder id with
  | none =>
      rw [listed_missing found, entriesOf, found]
      rfl
  | some folder =>
      have shape := @listEntries_eq host id 1 (store.moment + 2) 0
        (folderWalk host store.moment folder)
      rw [entriesOf_found found]
      exact (listed_found found).trans shape

theorem getMailboxMessages_listed (host : Host) (id : MailboxId) (store : Filesystem) :
    getMailboxMessages host id store =
      (.ok (listed host store id), (getMailboxMessages host id store).2) := by
  cases found : store.folder id with
  | none =>
      rw [listed, getMailboxMessages_missing found]
      rfl
  | some folder =>
      rw [listed, getMailboxMessages_found found]
      rfl

structure FreshDraws (host : Host) (store : Filesystem) (id : MailboxId) : Prop where
  distinct : ∀ first ∈ entriesOf host store id, ∀ second ∈ entriesOf host store id,
    host.newUuid (store.moment + 2 + first.2) = host.newUuid (store.moment + 2 + second.2) →
      first.2 = second.2
  unseen : ∀ entry ∈ entriesOf host store id, ∀ file ∈ store.filesOf id,
    storedId host file ≠ some ⟨host.newUuid (store.moment + 2 + entry.2)⟩

theorem FreshDraws.same (fresh : FreshDraws host store source) {first second : MailFile × Nat}
    (firstIn : first ∈ entriesOf host store source)
    (secondIn : second ∈ entriesOf host store source)
    (same : entryId host store first = entryId host store second) :
    first = second ∨ listedId host first.1 = some (entryId host store first) ∧
      listedId host second.1 = some (entryId host store first) := by
  cases one : listedId host first.1 with
  | none =>
      have drawn : entryId host store first = ⟨host.newUuid (store.moment + 2 + first.2)⟩ := by
        rw [entryId, shownId, one]
        rfl
      cases other : listedId host second.1 with
      | none =>
          left
          have drawn' : entryId host store second =
              ⟨host.newUuid (store.moment + 2 + second.2)⟩ := by
            rw [entryId, shownId, other]
            rfl
          rw [drawn, drawn', MessageId.mk.injEq] at same
          have place := fresh.distinct first firstIn second secondIn same
          have here := List.mk_mem_zipIdx_iff_getElem?.mp firstIn
          have there := List.mk_mem_zipIdx_iff_getElem?.mp secondIn
          rw [place, there, Option.some.injEq] at here
          exact Prod.ext here.symm place
      | some id =>
          exfalso
          have read : entryId host store second = id := by
            rw [entryId, shownId, other]
            rfl
          have stored := storedId_of_listedId other
          rw [← read, ← same, drawn] at stored
          exact fresh.unseen first firstIn second.1 (mem_filesOf_of_entry secondIn) stored
  | some id =>
      have read : entryId host store first = id := by
        rw [entryId, shownId, one]
        rfl
      cases other : listedId host second.1 with
      | none =>
          exfalso
          have drawn : entryId host store second =
              ⟨host.newUuid (store.moment + 2 + second.2)⟩ := by
            rw [entryId, shownId, other]
            rfl
          have stored := storedId_of_listedId one
          rw [← read, same, drawn] at stored
          exact fresh.unseen second secondIn first.1 (mem_filesOf_of_entry firstIn) stored
      | some id' =>
          have read' : entryId host store second = id' := by
            rw [entryId, shownId, other]
            rfl
          exact .inr ⟨congrArg some read.symm, congrArg some (read'.symm.trans same.symm)⟩

/-- After copying the chosen entries of a listing, up to a refusal by the quota. -/
structure CopyMade (host : Host) (store : Filesystem) (source dest : MailboxId)
    (chosen : List (MailFile × Nat)) (copies : List MailFile) (after : Filesystem) : Prop where
  orderly : after.Orderly
  received : (after.filesOf dest).Perm (store.filesOf dest ++ copies)
  others : ∀ id, id ≠ dest → after.folder id = store.folder id
  each : List.Forall₂ (fun entry copy => ∃ origin ∈ entriesOf host store source,
    entryId host store origin = entryId host store entry ∧
      CopyOf host origin.1 (entryId host store entry) copy) chosen copies

def RefusesFirst (host : Host) (store : Filesystem) (source : MailboxId) (target : Folder)
    (chosen : List (MailFile × Nat)) : Prop :=
  ∀ first rest, chosen = first :: rest → ∀ mail,
    (getMailboxMessages host source store).2.messages.lookup (entryId host store first) = some mail →
      ¬store.admits target.mailbox.path.user mail.size

theorem cached_listed {entry : MailFile × Nat} (member : entry ∈ entriesOf host store source) :
    ∃ origin ∈ entriesOf host store source, entryId host store origin = entryId host store entry ∧
      (getMailboxMessages host source store).2.messages.lookup (entryId host store entry) = some
        (mailOf host (store.moment + 2 + origin.2) (entryId host store entry) origin.1) := by
  cases found : store.folder source with
  | none =>
      rw [entriesOf, found] at member
      cases member
  | some folder =>
      rw [entriesOf_found found] at member ⊢
      rw [getMailboxMessages_found found]
      rcases @lookup_cacheListed host (store.moment + 2)
        (folderWalk host store.moment folder) store.messages (entryId host store entry) with
        ⟨origin, among, shown, held⟩ | ⟨absent, _⟩
      · exact ⟨origin, among, shown, held⟩
      · exact absurd rfl (absent entry member)

def cachedMail (host : Host) (store : Filesystem) (id : MailboxId) (messageId : MessageId) : Mail :=
  ((getMailboxMessages host id store).2.messages.lookup messageId).getD (noteFromAlice [])

theorem cachedEntry_listed {entry : MailFile × Nat} (member : entry ∈ entriesOf host store source) :
    (getMailboxMessages host source store).2.messages.lookup (entryId host store entry) =
        some (cachedMail host store source (entryId host store entry)) ∧
      ∃ origin ∈ entriesOf host store source, entryId host store origin = entryId host store entry ∧
        cachedMail host store source (entryId host store entry) =
          mailOf host (store.moment + 2 + origin.2) (entryId host store entry) origin.1 := by
  obtain ⟨origin, among, shown, lookup⟩ := cached_listed member
  have mail : cachedMail host store source (entryId host store entry) =
      mailOf host (store.moment + 2 + origin.2) (entryId host store entry) origin.1 := by
    rw [cachedMail, lookup]
    rfl
  exact ⟨by rw [lookup, mail], origin, among, shown, mail⟩

theorem settled_listed {chosen : List (MailFile × Nat)}
    (inside : ∀ entry ∈ chosen, entry ∈ entriesOf host store source) :
    ∀ id ∈ chosen.map (entryId host store),
      (getMailboxMessages host source store).2.Settled (cachedMail host store source) id := by
  intro id member
  obtain ⟨entry, among, rfl⟩ := List.mem_map.mp member
  obtain ⟨lookup, origin, _, _, mail⟩ := cachedEntry_listed (inside entry among)
  refine ⟨lookup, ?_, ?_⟩
  · rw [mail]
    rfl
  · rw [mail]
    rfl

theorem quotaOf_listed (host : Host) (source : MailboxId) (store : Filesystem) (user : Username) :
    (getMailboxMessages host source store).2.quotaOf user = store.quotaOf user := by
  obtain ⟨messages, moment, same⟩ := getMailboxMessages_disk host source store
  rw [same]
  rfl

theorem copyListed_isOk_iff {target : Folder} {chosen : List (MailFile × Nat)}
    (inside : ∀ entry ∈ chosen, entry ∈ entriesOf host store source)
    (there : store.folder dest = some target) :
    (copyMessages host dest (chosen.map (entryId host store))
        (getMailboxMessages host source store).2).1.isOk = true ↔
      AdmitsInTurn (store.quotaOf target.mailbox.path.user).limit
        (store.quotaOf target.mailbox.path.user).used
        (chosen.map fun entry => (cachedMail host store source (entryId host store entry)).size) := by
  have same := (getMailboxMessages_sameDisk host source store).folder dest
  rw [copyMessages_isOk_iff (settled_listed inside) (same.trans there), quotaOf_listed,
    List.map_map]
  rfl

theorem refusesFirst_iff {target : Folder} {chosen : List (MailFile × Nat)}
    (inside : ∀ entry ∈ chosen, entry ∈ entriesOf host store source) :
    RefusesFirst host store source target chosen ↔
      ∀ id rest, chosen.map (entryId host store) = id :: rest →
        ¬(getMailboxMessages host source store).2.admits target.mailbox.path.user
          (cachedMail host store source id).size := by
  have quotas : ∀ size, (getMailboxMessages host source store).2.admits target.mailbox.path.user
      size ↔ store.admits target.mailbox.path.user size := by
    intro size
    rw [admits, admits, quotaOf_listed]
  constructor
  · intro stops id rest shape
    obtain ⟨entry, later, rfl, rfl, _⟩ := List.map_eq_cons_iff.mp shape
    rw [quotas]
    exact stops entry later rfl _ (cachedEntry_listed (inside entry List.mem_cons_self)).1
  · rintro stops entry rest rfl mail lookup
    have size := stops _ _ rfl
    have cached := (cachedEntry_listed (inside entry List.mem_cons_self)).1
    rw [quotas] at size
    rwa [← Option.some.inj (cached.symm.trans lookup)]

theorem CopiedUntil.made {target : Folder} {chosen : List (MailFile × Nat)}
    {copies : List MailFile} {after : Filesystem}
    (inside : ∀ entry ∈ chosen, entry ∈ entriesOf host store source)
    (there : store.folder dest = some target)
    (copied : CopiedUntil host dest (cachedMail host store source)
      (getMailboxMessages host source store).2 target (chosen.map (entryId host store)) copies
        after) :
    CopyMade host store source dest chosen copies after := by
  refine ⟨copied.orderly, ?_, ?_, ?_⟩
  · rw [filesOf_found copied.received, filesOf_found there, Folder.files, Folder.files,
      List.append_assoc, List.append_assoc]
    exact List.perm_append_comm.append_left target.new
  · intro id different
    rw [copied.others id different]
    exact (getMailboxMessages_sameDisk host source store).folder id
  · have contents := copied.contents.symm
    rw [List.map_map, ← List.forall₂_eq_eq_eq, List.forall₂_map_left_iff,
      List.forall₂_map_right_iff] at contents
    refine ((List.forall₂_and_left _ _).mpr ⟨inside, contents⟩).imp ?_
    rintro entry copy ⟨member, data⟩
    obtain ⟨_, origin, place, shown, mail⟩ := cachedEntry_listed member
    refine ⟨origin, place, shown, store.moment + 2 + origin.2, ?_⟩
    rw [← mail]
    exact data.symm

theorem copyMessages_listed {target : Folder} {chosen : List (MailFile × Nat)}
    (inside : ∀ entry ∈ chosen, entry ∈ entriesOf host store source) (orderly : store.Orderly)
    (there : store.folder dest = some target) :
    let ran := copyMessages host dest (chosen.map (entryId host store))
      (getMailboxMessages host source store).2
    ∃ done copies, done <+: chosen ∧ CopyMade host store source dest done copies ran.2 ∧
      (ran.1.isOk = true ↔ done = chosen) ∧
      (done = [] ↔ RefusesFirst host store source target chosen) := by
  intro ran
  have same := getMailboxMessages_sameDisk host source store
  obtain ⟨done, copies, within, copied, complete, refused⟩ := copyMessages_until
    (settled_listed inside) (same.orderly orderly) ((same.folder dest).trans there)
  obtain ⟨first, rfl⟩ : ∃ first, done = (chosen.take first).map (entryId host store) := by
    refine ⟨done.length, ?_⟩
    rw [List.map_take]
    exact List.prefix_iff_eq_take.mp within
  have among : ∀ entry ∈ chosen.take first, entry ∈ entriesOf host store source :=
    fun entry member => inside entry (List.mem_of_mem_take member)
  refine ⟨chosen.take first, copies, List.take_prefix first chosen, copied.made among there, ?_, ?_⟩
  · rw [complete]
    constructor
    · intro whole
      have lengths := congrArg List.length whole
      rw [List.length_map, List.length_map, List.length_take] at lengths
      exact List.take_of_length_le (by omega)
    · intro whole
      rw [whole]
  · rw [List.map_eq_nil_iff] at refused
    rw [refused, refusesFirst_iff inside]

end Listed

end Filesystem

end Rusmes
