import Rusmes.Proto.StoredId
import Rusmes.Storage.Runs
import Rusmes.Storage.Threading

/-!
Threads of a mailbox along a run of deliveries: which mails share one, and what the listing
and the look-up by identifier say of a mail delivered before. Both read the `Message-ID`
from the file again and look it up in the index of that moment.
-/

namespace Rusmes

open WireText

structure ThreadedStore where
  disk : Filesystem
  indexes : Table MailboxId ThreadIndex

namespace ThreadedStore

def index (store : ThreadedStore) (id : MailboxId) : ThreadIndex :=
  (store.indexes.lookup id).getD ∅

def appendMessage (host : Host) (digest : Text → Text) (id : MailboxId) (message : Mail)
    (store : ThreadedStore) : Except Text (MessageMetadata × Text) × ThreadedStore :=
  match Filesystem.appendMessage host id message store.disk with
  | (.error error, disk) => (.error error, { store with disk })
  | (.ok metadata, disk) =>
      let given := assignThreadId host.toCaseMapping digest (store.index id) message
      (.ok (metadata, given.1), { disk, indexes := store.indexes.insert id given.2 })

def threadOfFile (host : Host) (index : ThreadIndex) (file : MailFile) : Option Text :=
  ((MimeMessage.parseFromBytes host.toCaseMapping file.data).headers.getFirst host.toCaseMapping
    "message-id".toList).bind fun value => index.getThreadId (stripAngleBrackets value)

def listThreads (host : Host) (id : MailboxId) (store : ThreadedStore) :
    List (MailFile × Option Text) :=
  match store.disk.folder id with
  | none => []
  | some folder => (Filesystem.folderWalk host store.disk.moment folder).map fun file =>
      (file, threadOfFile host (store.index id) file)

def walkPlaces (host : Host) (disk : Filesystem) : List (MailboxId × MailFile) :=
  (host.walkMailboxes disk.moment disk.folders.keys).flatMap fun id =>
    match disk.folder id with
    | none => []
    | some folder => (Filesystem.folderWalk host disk.moment folder).map fun file => (id, file)

def scanForThreadId (host : Host) (messageId : MessageId) (store : ThreadedStore) : Option Text :=
  ((walkPlaces host store.disk).find? fun place =>
      Filesystem.storedId host place.2 = some messageId).bind fun place =>
    threadOfFile host (store.index place.1) place.2

end ThreadedStore

def SharesId (letters : CaseMapping) (first second : Mail) : Prop :=
  ∃ id, first.statedId letters = some id ∧ second.statedId letters = some id

inductive Linked (letters : CaseMapping) (first second : Mail) : Prop
  | sameId : SharesId letters first second → Linked letters first second
  | names {id} : second.statedId letters = some id → id ∈ first.references letters →
      Linked letters first second
  | sameSubject : first.normalizedSubject letters ≠ [] →
      first.normalizedSubject letters = second.normalizedSubject letters →
      Linked letters first second

inductive Connected (letters : CaseMapping) (delivered : List Mail) : Mail → Mail → Prop
  | link {first second} : first ∈ delivered → second ∈ delivered → Linked letters first second →
      Connected letters delivered first second
  | refl (mail) : Connected letters delivered mail mail
  | symm {first second} : Connected letters delivered first second →
      Connected letters delivered second first
  | trans {first middle second} : Connected letters delivered first middle →
      Connected letters delivered middle second → Connected letters delivered first second

theorem Connected.mono {letters : CaseMapping} {delivered more : List Mail}
    (within : delivered ⊆ more) {first second : Mail}
    (connected : Connected letters delivered first second) :
    Connected letters more first second := by
  induction connected with
  | link one other linked => exact .link (within one) (within other) linked
  | refl mail => exact .refl mail
  | symm _ ih => exact ih.symm
  | trans _ _ ihFirst ihSecond => exact ihFirst.trans ihSecond

theorem Connected.same {letters : CaseMapping} {delivered : List Mail} {holds : Mail → Prop}
    (keeps : ∀ first ∈ delivered, ∀ second ∈ delivered, Linked letters first second →
      (holds first ↔ holds second)) {first second : Mail}
    (connected : Connected letters delivered first second) : holds first ↔ holds second := by
  induction connected with
  | link one other linked => exact keeps _ one _ other linked
  | refl => exact Iff.rfl
  | symm _ ih => exact ih.symm
  | trans _ _ ihFirst ihSecond => exact ihFirst.trans ihSecond

structure ThreadDelivery where
  mail : Mail
  thread : Text
  file : MailFile

abbrev ThreadRun := ThreadedStore × List ThreadDelivery

def ThreadRun.mails (run : ThreadRun) : List Mail := run.2.map ThreadDelivery.mail

def deliverThreaded (host : Host) (digest : Text → Text) (id : MailboxId) (run : ThreadRun)
    (mail : Mail) : ThreadRun :=
  match run.1.appendMessage host digest id mail with
  | (.error _, store) => (store, run.2)
  | (.ok (_, thread), store) =>
      (store, run.2 ++ [⟨mail, thread, Filesystem.deliveredFile host run.1.disk mail⟩])

structure ThreadsSound (host : Host) (id : MailboxId) (run : ThreadRun) : Prop where
  /-- Threads do not merge by accident. -/
  apart : ∀ first ∈ run.2, ∀ second ∈ run.2, first.thread = second.thread →
    Connected host.toCaseMapping run.mails first.mail second.mail
  /-- The listing agrees with the delivery until the next one under its identifier. -/
  listed : ∀ before current after, run.2 = before ++ current :: after →
    (∀ later ∈ after, ¬SharesId host.toCaseMapping current.mail later.mail) →
    (current.file, some current.thread) ∈ run.1.listThreads host id
  scanned : ∀ before current after, run.2 = before ++ current :: after →
    (∀ later ∈ after, ¬SharesId host.toCaseMapping current.mail later.mail) →
    run.1.scanForThreadId host current.mail.messageId = some current.thread

def Mail.writtenId (letters : CaseMapping) (mail : Mail) : Option Text :=
  (((joinedFields letters mail.headerLines).filter fun field =>
    field.1 = "message-id".toList).map Prod.snd).getLast?

structure KeepsThreads (host : Host) (id : MailboxId) (run : ThreadRun) (mail : Mail) : Prop where
  named : (mail.statedId host.toCaseMapping).isSome
  /-- Without its brackets the written identifier has none. -/
  written : ((mail.writtenId host.toCaseMapping).map fun value =>
      stripAngleBrackets (stripAngleBrackets value)) = mail.statedId host.toCaseMapping
  unforged : mail.Unforged host.toCaseMapping
  /-- No reference is the key of a subject. -/
  references : ∀ reference ∈ mail.references host.toCaseMapping, ∀ other ∈ run.mails,
    other.subjectKey host.toCaseMapping = some reference →
      other.statedId host.toCaseMapping = some reference
  /-- The key of the subject is no identifier. -/
  subject : ∀ key, mail.subjectKey host.toCaseMapping = some key → ∀ other ∈ run.mails,
    other.statedId host.toCaseMapping = some key → other.subjectKey host.toCaseMapping = some key
  identified : ∀ other ∈ run.mails, other.messageId = mail.messageId →
    other.statedId host.toCaseMapping = mail.statedId host.toCaseMapping
  alone : ∀ elsewhere ≠ id, ∀ folder, run.1.disk.folder elsewhere = some folder →
    ∀ file ∈ folder.files, Filesystem.storedId host file ≠ some mail.messageId

/-! The index. -/

section Index

variable {letters : CaseMapping} {digest : Text → Text}

theorem subjectKey_eq_some {mail : Mail} {key : Text} : mail.subjectKey letters = some key ↔
    mail.normalizedSubject letters ≠ [] ∧ subjectKey (mail.normalizedSubject letters) = key := by
  rw [Mail.subjectKey]
  by_cases empty : mail.normalizedSubject letters = []
  · simp [empty]
  · simp [empty]

theorem Linked.ofSubjectKey {first second : Mail} {key : Text}
    (one : first.subjectKey letters = some key) (other : second.subjectKey letters = some key) :
    Linked letters first second := by
  obtain ⟨full, same⟩ := subjectKey_eq_some.mp one
  obtain ⟨-, equal⟩ := subjectKey_eq_some.mp other
  rw [← equal] at same
  exact .sameSubject full (List.append_cancel_left same)

theorem rfcMessageId_of_stated {mail : Mail} {id : Text} (stated : mail.statedId letters = some id) :
    mail.rfcMessageId letters = id := by
  rw [Mail.rfcMessageId, stated]
  rfl

def Rooted (letters : CaseMapping) (digest : Text → Text) (delivered : List Mail) (mail : Mail)
    (thread : Text) : Prop :=
  ∃ root ∈ delivered, thread = digest (root.rfcMessageId letters) ∧
    Connected letters delivered mail root

structure IndexSound (letters : CaseMapping) (digest : Text → Text) (index : ThreadIndex)
    (deliveries : List ThreadDelivery) : Prop where
  named : ∀ delivery ∈ deliveries, (delivery.mail.statedId letters).isSome
  rooted : ∀ delivery ∈ deliveries,
    Rooted letters digest (deliveries.map ThreadDelivery.mail) delivery.mail delivery.thread
  filed : ∀ key thread, index.lookup key = some thread →
    ∃ mail ∈ deliveries.map ThreadDelivery.mail,
      (mail.statedId letters = some key ∨ mail.subjectKey letters = some key) ∧
        Rooted letters digest (deliveries.map ThreadDelivery.mail) mail thread
  latest : ∀ before current after, deliveries = before ++ current :: after →
    (∀ later ∈ after, ¬SharesId letters current.mail later.mail) →
      index.lookup (current.mail.rfcMessageId letters) = some current.thread

theorem indexSound_empty : IndexSound letters digest ∅ [] := by
  refine ⟨by simp, by simp, ?_, by simp⟩
  intro key thread held
  cases held

theorem Rooted.mono {delivered more : List Mail} (within : delivered ⊆ more) {mail : Mail}
    {thread : Text} (rooted : Rooted letters digest delivered mail thread) :
    Rooted letters digest more mail thread := by
  obtain ⟨root, member, named, connected⟩ := rooted
  exact ⟨root, within member, named, connected.mono within⟩

theorem Rooted.linked {delivered : List Mail} {first second : Mail} {thread : Text}
    (rooted : Rooted letters digest delivered second thread) (one : first ∈ delivered)
    (other : second ∈ delivered) (linked : Linked letters first second) :
    Rooted letters digest delivered first thread := by
  obtain ⟨root, member, named, connected⟩ := rooted
  exact ⟨root, member, named, (Connected.link one other linked).trans connected⟩

variable {index : ThreadIndex} {deliveries : List ThreadDelivery} {mail : Mail}

theorem IndexSound.assigned (sound : IndexSound letters digest index deliveries)
    (references : ∀ reference ∈ mail.references letters,
      ∀ other ∈ deliveries.map ThreadDelivery.mail, other.subjectKey letters = some reference →
        other.statedId letters = some reference)
    (subject : ∀ key, mail.subjectKey letters = some key →
      ∀ other ∈ deliveries.map ThreadDelivery.mail, other.statedId letters = some key →
        other.subjectKey letters = some key) :
    Rooted letters digest (deliveries.map ThreadDelivery.mail ++ [mail]) mail
      (assignThreadId letters digest index mail).1 := by
  have within : deliveries.map ThreadDelivery.mail ⊆ deliveries.map ThreadDelivery.mail ++ [mail] :=
    List.subset_append_left _ _
  have itself : mail ∈ deliveries.map ThreadDelivery.mail ++ [mail] := by simp
  rcases assignThreadId_cases letters digest index mail with chain | ⟨-, found | fresh⟩
  · obtain ⟨reference, member, held⟩ := chain
    obtain ⟨other, delivered, keys, rooted⟩ := sound.filed _ _ held
    have stated : other.statedId letters = some reference :=
      keys.elim id (references reference member other delivered)
    exact (rooted.mono within).linked itself (within delivered) (.names stated member)
  · obtain ⟨key, owned, held⟩ := found
    obtain ⟨other, delivered, keys, rooted⟩ := sound.filed _ _ held
    have same : other.subjectKey letters = some key :=
      keys.elim (subject key owned other delivered) id
    exact (rooted.mono within).linked itself (within delivered) (.ofSubjectKey owned same)
  · exact ⟨mail, itself, fresh.2, .refl mail⟩

theorem IndexSound.next (sound : IndexSound letters digest index deliveries)
    (named : (mail.statedId letters).isSome)
    (rooted : Rooted letters digest (deliveries.map ThreadDelivery.mail ++ [mail]) mail
      (assignThreadId letters digest index mail).1) (file : MailFile) :
    IndexSound letters digest (assignThreadId letters digest index mail).2
      (deliveries ++ [⟨mail, (assignThreadId letters digest index mail).1, file⟩]) := by
  have within : deliveries.map ThreadDelivery.mail ⊆ deliveries.map ThreadDelivery.mail ++ [mail] :=
    List.subset_append_left _ _
  obtain ⟨id, stated⟩ := Option.isSome_iff_exists.mp named
  refine ⟨?_, ?_, ?_, ?_⟩
  · intro delivery member
    rcases List.mem_append.mp member with earlier | last
    · exact sound.named delivery earlier
    · rw [List.mem_singleton.mp last]
      exact named
  · intro delivery member
    rw [List.map_append]
    rcases List.mem_append.mp member with earlier | last
    · exact (sound.rooted delivery earlier).mono within
    · rw [List.mem_singleton.mp last]
      exact rooted
  · intro key thread held
    rw [List.map_append]
    rw [lookup_assignThreadId] at held
    split at held
    · rename_i own
      rw [← Option.some.inj held]
      refine ⟨mail, by simp, ?_, rooted⟩
      rcases own with same | subject
      · exact Or.inl (by rw [same, rfcMessageId_of_stated stated, stated])
      · exact Or.inr subject.1
    · obtain ⟨other, delivered, keys, connected⟩ := sound.filed key thread held
      exact ⟨other, within delivered, keys, connected.mono within⟩
  · intro before current after split apart
    rw [lookup_assignThreadId]
    rcases List.eq_nil_or_concat' after with none | ⟨others, last, shape⟩
    · rw [none] at split
      have same := (List.append_inj' split rfl).2
      rw [List.cons.injEq] at same
      rw [← same.1, if_pos (Or.inl rfl)]
    · rw [shape, ← List.cons_append, ← List.append_assoc] at split
      obtain ⟨rest, final⟩ := List.append_inj' split rfl
      rw [List.cons.injEq] at final
      have different : ¬SharesId letters current.mail mail := by
        have later := apart last (by simp [shape])
        rw [← final.1] at later
        exact later
      have held := sound.latest before current others rest
        fun later member => apart later (by simp [shape, member])
      have given := sound.named current (by simp [rest])
      obtain ⟨other, current_id⟩ := Option.isSome_iff_exists.mp given
      rw [if_neg]
      · exact held
      · rintro (same | subject)
        · rw [rfcMessageId_of_stated current_id, rfcMessageId_of_stated stated] at same
          exact different ⟨other, current_id, by rw [stated, same]⟩
        · rw [held] at subject
          cases subject.2

theorem IndexSound.connected (sound : IndexSound letters digest index deliveries)
    (injective : Function.Injective digest) {first second : ThreadDelivery}
    (one : first ∈ deliveries) (other : second ∈ deliveries) (same : first.thread = second.thread) :
    Connected letters (deliveries.map ThreadDelivery.mail) first.mail second.mail := by
  obtain ⟨root, member, named, connected⟩ := sound.rooted first one
  obtain ⟨top, among, called, linked⟩ := sound.rooted second other
  have stated : ∀ mail ∈ deliveries.map ThreadDelivery.mail,
      mail.statedId letters = some (mail.rfcMessageId letters) := by
    intro mail inside
    obtain ⟨delivery, held, rfl⟩ := List.mem_map.mp inside
    obtain ⟨id, found⟩ := Option.isSome_iff_exists.mp (sound.named delivery held)
    rw [rfcMessageId_of_stated found, found]
  rw [named, called] at same
  have shared : SharesId letters root top :=
    ⟨_, stated root member, by rw [stated top among, injective same]⟩
  exact (connected.trans (.link member among (.sameId shared))).trans linked.symm

end Index

/-! The files. -/

section Files

variable {host : Host} {digest : Text → Text} {id : MailboxId}

theorem getFirst_writtenId (letters : CaseMapping) (mail : Mail) :
    (MimeMessage.parseFromBytes letters (serializeMessageToBytes mail)).headers.getFirst letters
      "message-id".toList = mail.writtenId letters := by
  have lower : letters.toLowercase "message-id".toList = "message-id".toList := by
    rw [letters.lowercase_ascii]
    · decide
    · have low : "message-id".toList.all (fun character => decide (character.toNat < 128)) = true := by
        decide
      intro character member
      simpa using List.all_eq_true.mp low character member
  have different : ¬decide (rusmesMessageId = "message-id".toList) = true := by decide
  rw [headers_parseFromBytes, getFirst_ofTable (parseHeaders_clean letters _), lower,
    parseHeaders_lines, lookup_storeFields, List.filter_cons, if_neg different, Mail.writtenId]
  exact Option.or_none

theorem threadOfFile_written {mail : Mail} {file : MailFile}
    (data : file.data = serializeMessageToBytes mail)
    (named : (mail.statedId host.toCaseMapping).isSome)
    (written : ((mail.writtenId host.toCaseMapping).map fun value =>
      stripAngleBrackets (stripAngleBrackets value)) = mail.statedId host.toCaseMapping)
    (index : ThreadIndex) :
    ThreadedStore.threadOfFile host index file =
      index.lookup (mail.rfcMessageId host.toCaseMapping) := by
  obtain ⟨stated, found⟩ := Option.isSome_iff_exists.mp named
  rw [found] at written
  obtain ⟨value, read, same⟩ := Option.map_eq_some_iff.mp written
  rw [ThreadedStore.threadOfFile, data, getFirst_writtenId, read, Option.bind_some,
    ThreadIndex.getThreadId, same, rfcMessageId_of_stated found]

structure FilesSound (host : Host) (id : MailboxId) (run : ThreadRun) : Prop where
  orderly : run.1.disk.Orderly
  folder : run.2 = [] ∨ ∃ folder, run.1.disk.folder id = some folder
  files : ∀ folder, run.1.disk.folder id = some folder → ∀ file,
    file ∈ folder.files ↔ file ∈ run.2.map ThreadDelivery.file
  read : ∀ delivery ∈ run.2, ∀ index, ThreadedStore.threadOfFile host index delivery.file =
    index.lookup (delivery.mail.rfcMessageId host.toCaseMapping)
  kept : ∀ delivery ∈ run.2, Filesystem.storedId host delivery.file = some delivery.mail.messageId
  identified : ∀ first ∈ run.2, ∀ second ∈ run.2, first.mail.messageId = second.mail.messageId →
    first.mail.statedId host.toCaseMapping = second.mail.statedId host.toCaseMapping
  alone : ∀ delivery ∈ run.2, ∀ elsewhere ≠ id, ∀ folder,
    run.1.disk.folder elsewhere = some folder → ∀ file ∈ folder.files,
      Filesystem.storedId host file ≠ some delivery.mail.messageId

theorem deliverThreaded_cases (host : Host) (digest : Text → Text) (id : MailboxId)
    (run : ThreadRun) (mail : Mail) :
    deliverThreaded host digest id run mail = run ∨
    ∃ folder, run.1.disk.folder id = some folder ∧
      deliverThreaded host digest id run mail =
        (⟨Filesystem.appended host id mail folder.mailbox.path.user run.1.disk,
          run.1.indexes.insert id
            (assignThreadId host.toCaseMapping digest (run.1.index id) mail).2⟩,
          run.2 ++ [⟨mail, (assignThreadId host.toCaseMapping digest (run.1.index id) mail).1,
            Filesystem.deliveredFile host run.1.disk mail⟩]) := by
  rcases Filesystem.appendMessage_cases host id mail run.1.disk with
    ⟨error, -, ran⟩ | ⟨folder, found, -, ran⟩
  · left
    rw [deliverThreaded, ThreadedStore.appendMessage, ran]
  · right
    refine ⟨folder, found, ?_⟩
    rw [deliverThreaded, ThreadedStore.appendMessage, ran]

theorem FilesSound.next {run : ThreadRun} (sound : FilesSound host id run) {mail : Mail}
    (keeps : KeepsThreads host id run mail) {folder : Folder}
    (found : run.1.disk.folder id = some folder) (user : Username) (index : Table MailboxId ThreadIndex)
    (thread : Text) :
    FilesSound host id (⟨Filesystem.appended host id mail user run.1.disk, index⟩,
      run.2 ++ [⟨mail, thread, Filesystem.deliveredFile host run.1.disk mail⟩]) := by
  have numbered := Filesystem.receiveFile_numbered host mail (sound.orderly id folder found)
  refine ⟨?_, ?_, ?_, ?_, ?_, ?_, ?_⟩
  · intro other held present
    rw [Filesystem.folder_appended] at present
    split at present
    · obtain ⟨source, inside, rfl⟩ := Option.map_eq_some_iff.mp present
      exact (Filesystem.receiveFile_numbered host mail (sound.orderly other source inside)).2
    · exact (sound.orderly other held present).mono (Nat.le_succ _)
  · right
    refine ⟨Filesystem.receiveFile (Filesystem.deliveredFile host run.1.disk mail) folder, ?_⟩
    rw [Filesystem.folder_appended, if_pos rfl, found]
    rfl
  · intro held present file
    rw [Filesystem.folder_appended, if_pos rfl, found, Option.map_some, Option.some.injEq] at present
    have before := sound.files folder found file
    rw [Folder.files, List.mem_append] at before
    rw [← present, Folder.files, numbered.1, List.map_append, List.mem_append, List.mem_append,
      List.mem_append, ← before]
    simp only [List.map_cons, List.map_nil]
    rw [or_right_comm]
    rfl
  · intro delivery member
    rcases List.mem_append.mp member with earlier | last
    · exact sound.read delivery earlier
    · rw [List.mem_singleton.mp last]
      exact threadOfFile_written rfl keeps.named keeps.written
  · intro delivery member
    rcases List.mem_append.mp member with earlier | last
    · exact sound.kept delivery earlier
    · rw [List.mem_singleton.mp last]
      exact keeps.unforged.kept
  · have recent : ∀ delivery ∈ run.2, delivery.mail.messageId = mail.messageId →
        delivery.mail.statedId host.toCaseMapping = mail.statedId host.toCaseMapping :=
      fun delivery member => keeps.identified _ (List.mem_map_of_mem member)
    intro first one second other same
    rcases List.mem_append.mp one with earlier | last
    · rcases List.mem_append.mp other with before | final
      · exact sound.identified first earlier second before same
      · rw [List.mem_singleton.mp final] at same ⊢
        exact recent first earlier same
    · rw [List.mem_singleton.mp last] at same ⊢
      rcases List.mem_append.mp other with before | final
      · exact (recent second before same.symm).symm
      · rw [List.mem_singleton.mp final]
  · intro delivery member elsewhere different held present file inside
    rw [Filesystem.folder_appended, if_neg different] at present
    rcases List.mem_append.mp member with earlier | last
    · exact sound.alone delivery earlier elsewhere different held present file inside
    · rw [List.mem_singleton.mp last]
      exact keeps.alone elsewhere different held present file inside

theorem mem_walkPlaces {disk : Filesystem} {place : MailboxId × MailFile} :
    place ∈ ThreadedStore.walkPlaces host disk ↔
      ∃ folder, disk.folder place.1 = some folder ∧ place.2 ∈ folder.files := by
  obtain ⟨mailbox, file⟩ := place
  rw [ThreadedStore.walkPlaces, List.mem_flatMap]
  constructor
  · rintro ⟨other, -, inside⟩
    cases found : disk.folder other with
    | none =>
        rw [found] at inside
        cases inside
    | some folder =>
        rw [found] at inside
        obtain ⟨held, member, same⟩ := List.mem_map.mp inside
        rw [Prod.mk.injEq] at same
        rw [← same.1, ← same.2]
        exact ⟨folder, found, (Filesystem.folderWalk_perm host _ folder).subset member⟩
  · rintro ⟨folder, found, member⟩
    refine ⟨mailbox, ?_, ?_⟩
    · apply (host.walkMailboxes_perm _ _).symm.subset
      exact AList.mem_keys.mpr (AList.lookup_isSome.mp (Option.isSome_of_eq_some found))
    · rw [found]
      exact List.mem_map_of_mem ((Filesystem.folderWalk_perm host _ folder).symm.subset member)

theorem mem_listThreads {store : ThreadedStore} {folder : Folder}
    (found : store.disk.folder id = some folder) {file : MailFile} (member : file ∈ folder.files) :
    (file, ThreadedStore.threadOfFile host (store.index id) file) ∈ store.listThreads host id := by
  rw [ThreadedStore.listThreads, found]
  exact List.mem_map.mpr
    ⟨file, (Filesystem.folderWalk_perm host _ folder).symm.subset member, rfl⟩

theorem FilesSound.scan {run : ThreadRun} (sound : FilesSound host id run)
    (named : ∀ delivery ∈ run.2, (delivery.mail.statedId host.toCaseMapping).isSome)
    {current : ThreadDelivery} (member : current ∈ run.2) :
    run.1.scanForThreadId host current.mail.messageId =
      (run.1.index id).lookup (current.mail.rfcMessageId host.toCaseMapping) := by
  obtain ⟨folder, found⟩ := sound.folder.resolve_left (List.ne_nil_of_mem member)
  have here : (id, current.file) ∈ ThreadedStore.walkPlaces host run.1.disk :=
    mem_walkPlaces.mpr ⟨folder, found, (sound.files folder found _).mpr (List.mem_map_of_mem member)⟩
  rw [ThreadedStore.scanForThreadId]
  cases first : (ThreadedStore.walkPlaces host run.1.disk).find? fun place =>
      decide (Filesystem.storedId host place.2 = some current.mail.messageId) with
  | none =>
      have absent := List.find?_eq_none.mp first _ here
      rw [decide_eq_true_eq] at absent
      exact absurd (sound.kept current member) absent
  | some place =>
      have carries := List.find?_some first
      rw [decide_eq_true_eq] at carries
      obtain ⟨held, present, inside⟩ := mem_walkPlaces.mp (List.mem_of_find?_eq_some first)
      have own : place.1 = id := by
        by_contra elsewhere
        exact sound.alone current member place.1 elsewhere held present place.2 inside carries
      rw [own] at present
      obtain ⟨delivery, among, file⟩ := List.mem_map.mp ((sound.files held present place.2).mp inside)
      rw [← file, sound.kept delivery among, Option.some.injEq] at carries
      have same := sound.identified delivery among current member carries
      obtain ⟨stated, given⟩ := Option.isSome_iff_exists.mp (named current member)
      rw [given] at same
      rw [Option.bind_some, own, ← file, sound.read delivery among, rfcMessageId_of_stated same,
        rfcMessageId_of_stated given]

end Files

structure FreshMailbox (id : MailboxId) (store : ThreadedStore) : Prop where
  orderly : store.disk.Orderly
  empty : ∀ folder, store.disk.folder id = some folder → folder.files = []
  index : store.index id = ∅

section Run

variable (host : Host) (digest : Text → Text) (id : MailboxId)

def deliverAllThreaded (store : ThreadedStore) (mails : List Mail) : ThreadRun :=
  mails.foldl (deliverThreaded host digest id) (store, [])

structure RunSound (run : ThreadRun) : Prop where
  files : FilesSound host id run
  index : IndexSound host.toCaseMapping digest (run.1.index id) run.2

variable {host digest id}

theorem FreshMailbox.runSound {store : ThreadedStore} (fresh : FreshMailbox id store) :
    RunSound host digest id (store, []) := by
  refine ⟨⟨fresh.orderly, Or.inl rfl, ?_, by simp, by simp, by simp, by simp⟩, ?_⟩
  · intro folder found file
    rw [fresh.empty folder found]
    simp
  · dsimp only
    rw [fresh.index]
    exact indexSound_empty

theorem RunSound.deliver {run : ThreadRun} (sound : RunSound host digest id run) {mail : Mail}
    (keeps : KeepsThreads host id run mail) :
    RunSound host digest id (deliverThreaded host digest id run mail) := by
  rcases deliverThreaded_cases host digest id run mail with same | ⟨folder, found, ran⟩
  · rw [same]
    exact sound
  · rw [ran]
    refine ⟨sound.files.next keeps found _ _ _, ?_⟩
    have current : ThreadedStore.index ⟨Filesystem.appended host id mail folder.mailbox.path.user
        run.1.disk, run.1.indexes.insert id
          (assignThreadId host.toCaseMapping digest (run.1.index id) mail).2⟩ id =
        (assignThreadId host.toCaseMapping digest (run.1.index id) mail).2 := by
      rw [ThreadedStore.index, AList.lookup_insert]
      rfl
    rw [current]
    exact sound.index.next keeps.named (sound.index.assigned keeps.references keeps.subject) _

theorem RunSound.threads {run : ThreadRun} (sound : RunSound host digest id run)
    (injective : Function.Injective digest) : ThreadsSound host id run := by
  refine ⟨?_, ?_, ?_⟩
  · intro first one second other same
    exact sound.index.connected injective one other same
  · intro before current after split apart
    have member : current ∈ run.2 := by simp [split]
    obtain ⟨folder, found⟩ := sound.files.folder.resolve_left (List.ne_nil_of_mem member)
    have inside := (sound.files.files folder found _).mpr (List.mem_map_of_mem member)
    have listed := @mem_listThreads host id run.1 folder found current.file inside
    rwa [sound.files.read current member, sound.index.latest before current after split apart]
      at listed
  · intro before current after split apart
    rw [sound.files.scan sound.index.named (by simp [split]),
      sound.index.latest before current after split apart]

/-- Threads stay sound in every run in which no delivery confuses identifiers and subjects
and every identifier can be read again. -/
theorem threads_sound (injective : Function.Injective digest) {store : ThreadedStore}
    (fresh : FreshMailbox id store) (mails : List Mail)
    (keeps : ∀ before mail after, mails = before ++ mail :: after →
      KeepsThreads host id (deliverAllThreaded host digest id store before) mail) :
    ThreadsSound host id (deliverAllThreaded host digest id store mails) := by
  have sound : RunSound host digest id (deliverAllThreaded host digest id store mails) := by
    induction mails using List.reverseRecOn with
    | nil => exact fresh.runSound
    | append_singleton mails mail ih =>
        rw [deliverAllThreaded, List.foldl_append]
        refine RunSound.deliver (ih ?_) (keeps mails mail [] rfl)
        intro before other after split
        exact keeps before other (after ++ [mail]) (by simp [split])
  exact sound.threads injective

end Run

def freshThreads : ThreadedStore := ⟨Filesystem.freshStore, ∅⟩

theorem freshThreads_fresh : FreshMailbox Filesystem.inboxId freshThreads :=
  ⟨Filesystem.orderly_of_empty fun _ _ => Filesystem.freshStore_files,
    fun _ => Filesystem.freshStore_files, rfl⟩

def collidingRun : ThreadRun :=
  deliverAllThreaded plainHost id Filesystem.inboxId freshThreads
    [received 1 "Message-ID: <subj:hello>\r\n\r\n",
      received 2 "Message-ID: <b>\r\nSubject: Hello\r\n\r\n"]

theorem collidingRun_deliveries :
    (collidingRun.2.map fun delivery => (delivery.thread, delivery.mail.statedId asciiCase,
      delivery.mail.references asciiCase, delivery.mail.normalizedSubject asciiCase)) =
      [("subj:hello".toList, some "subj:hello".toList, [], []),
        ("subj:hello".toList, some "b".toList, [], "hello".toList)] := by
  decide +kernel

/-- The mails have nothing in common, and one thread. -/
theorem collidingRun_unsound :
    FreshMailbox Filesystem.inboxId freshThreads ∧
      ¬ThreadsSound plainHost Filesystem.inboxId collidingRun := by
  refine ⟨freshThreads_fresh, ?_⟩
  intro sound
  obtain ⟨first, rest, deliveries, one, more⟩ := List.map_eq_cons_iff.mp collidingRun_deliveries
  obtain ⟨second, none, others, other, nothing⟩ := List.map_eq_cons_iff.mp more
  rw [List.map_eq_nil_iff.mp nothing] at others
  rw [others] at deliveries
  simp only [Prod.mk.injEq] at one other
  have connected := sound.apart first (by simp [deliveries]) second (by simp [deliveries])
    (by rw [one.1, other.1])
  have mails : collidingRun.mails = [first.mail, second.mail] := by
    rw [ThreadRun.mails, deliveries]
    rfl
  rw [mails] at connected
  have linked : ∀ left ∈ [first.mail, second.mail], ∀ right ∈ [first.mail, second.mail],
      Linked asciiCase left right →
        (left.statedId asciiCase = some "b".toList ↔ right.statedId asciiCase = some "b".toList) := by
    intro left leftMember right rightMember link
    simp only [List.mem_cons, List.not_mem_nil, or_false] at leftMember rightMember
    rcases leftMember with rfl | rfl
    · rcases rightMember with rfl | rfl
      · exact Iff.rfl
      · cases link with
        | sameId shared =>
            obtain ⟨id, here, there⟩ := shared
            rw [here, there]
        | names stated named =>
            rw [one.2.2.1] at named
            cases named
        | sameSubject full same => exact absurd one.2.2.2 full
    · rcases rightMember with rfl | rfl
      · cases link with
        | sameId shared =>
            obtain ⟨id, here, there⟩ := shared
            rw [here, there]
        | names stated named =>
            rw [other.2.2.1] at named
            cases named
        | sameSubject full same =>
            rw [one.2.2.2] at same
            exact absurd same full
      · exact Iff.rfl
  have equal := (connected.same linked).mpr other.2.1
  rw [one.2.1] at equal
  simp at equal

theorem single_threads_sound :
    ThreadsSound plainHost Filesystem.inboxId
      (deliverAllThreaded plainHost id Filesystem.inboxId freshThreads
        [received 1 "Message-ID: <a>\r\nReferences: <z>\r\nSubject: Hello\r\n\r\n"]) := by
  refine threads_sound Function.injective_id freshThreads_fresh _ ?_
  intro before mail after split
  rcases before with _ | ⟨first, before⟩
  · rw [List.nil_append, List.cons.injEq] at split
    rw [← split.1]
    refine ⟨by decide +kernel, by decide +kernel, ?_, ?_, ?_, ?_, ?_⟩
    · apply Mail.IdKept.unforged
      rw [Mail.IdKept]
      decide +kernel
    · intro _ _ other member
      cases member
    · intro _ _ other member
      cases member
    · intro other member
      cases member
    · intro elsewhere _ folder found file member
      have empty := Filesystem.freshStore_files found
      rw [empty] at member
      cases member
  · have sizes := congrArg List.length split
    simp at sizes

end Rusmes
