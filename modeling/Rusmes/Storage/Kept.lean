import Rusmes.Storage.Identity

/-!
Which calls of the store leave the files of a mailbox alone: those that only read, and
those that write elsewhere or ask for messages that none of the files carries.
-/

namespace Rusmes

open WireText

namespace Filesystem

variable {host : Host}

def Holds (store : Filesystem) (id : MailboxId) (files : List MailFile) : Prop :=
  ∃ folder, store.folder id = some folder ∧ ∀ file ∈ files, file ∈ folder.files

def SameDisk (store next : Filesystem) : Prop :=
  next.folders = store.folders ∧ next.deliveryCounter = store.deliveryCounter

theorem SameDisk.refl (store : Filesystem) : SameDisk store store := ⟨rfl, rfl⟩

theorem SameDisk.trans {store next last : Filesystem} (first : SameDisk store next)
    (second : SameDisk next last) : SameDisk store last :=
  ⟨second.1.trans first.1, second.2.trans first.2⟩

theorem SameDisk.folder {store next : Filesystem} (same : SameDisk store next) (id : MailboxId) :
    next.folder id = store.folder id := by
  rw [Filesystem.folder, same.1]
  rfl

theorem SameDisk.orderly {store next : Filesystem} (same : SameDisk store next)
    (orderly : store.Orderly) : next.Orderly := by
  intro id folder found
  rw [Filesystem.folder, same.1] at found
  rw [same.2]
  exact orderly id folder found

theorem SameDisk.holds {store next : Filesystem} (same : SameDisk store next) {id : MailboxId}
    {files : List MailFile} (held : store.Holds id files) : next.Holds id files := by
  obtain ⟨folder, found, inside⟩ := held
  refine ⟨folder, ?_, inside⟩
  rw [Filesystem.folder, same.1]
  exact found

theorem getMessage_sameDisk (host : Host) (id : MessageId) (store : Filesystem) :
    SameDisk store (getMessage host id store).2 := by
  rw [getMessage, Effect.read_bind]
  cases store.messages.lookup id with
  | some mail => exact ⟨rfl, rfl⟩
  | none =>
      rcases ran : walk host store with ⟨outcome, after⟩
      have walked : SameDisk store after := by
        have same : after = { store with moment := store.moment + 2 } := (Prod.mk.inj ran).2.symm
        rw [same]
        exact ⟨rfl, rfl⟩
      cases outcome with
      | error error =>
          dsimp only
          rw [Effect.bind_error ran]
          exact walked
      | ok files =>
          dsimp only
          rw [Effect.bind_ok ran]
          cases files.find? fun file => storedId host file = some id with
          | none => exact walked
          | some file => exact walked

theorem getMessageFlags_sameDisk (host : Host) (id : MessageId) (store : Filesystem) :
    SameDisk store (getMessageFlags host id store).2 := ⟨rfl, rfl⟩

theorem getMailboxMessages_sameDisk (host : Host) (id : MailboxId) (store : Filesystem) :
    SameDisk store (getMailboxMessages host id store).2 := by
  obtain ⟨messages, moment, ran⟩ := getMailboxMessages_disk host id store
  rw [ran]
  exact ⟨rfl, rfl⟩

/-! Calls that write. -/

section Intact

variable {id : MailboxId} {files : List MailFile} {store : Filesystem}

def Intact (id : MailboxId) (files : List MailFile) (store : Filesystem) : Prop :=
  store.Orderly ∧ store.Holds id files

theorem Intact.sameDisk {next : Filesystem} (intact : store.Intact id files)
    (same : SameDisk store next) : next.Intact id files :=
  ⟨same.orderly intact.1, same.holds intact.2⟩

theorem Intact.append (intact : store.Intact id files) (dest : MailboxId) (message : Mail) :
    (appendMessage host dest message store).2.Intact id files := by
  refine ⟨appendMessage_orderly message intact.1, ?_⟩
  obtain ⟨folder, found, inside⟩ := intact.2
  rcases appendMessage_cases host dest message store with ⟨error, _, ran⟩ | ⟨_, _, _, ran⟩
  · rw [ran]
    exact ⟨folder, found, inside⟩
  · rw [ran]
    by_cases here : id = dest
    · refine ⟨receiveFile (deliveredFile host store message) folder, ?_, ?_⟩
      · rw [folder_appended, if_pos here, found]
        rfl
      · intro file member
        have placed := (receiveFile_numbered host message (intact.1 id folder found)).1
        have old := inside file member
        rw [Folder.files, List.mem_append] at old ⊢
        rw [placed]
        rcases old with new | cur
        · exact .inl (List.mem_append_left _ new)
        · exact .inr cur
    · exact ⟨folder, by rw [folder_appended, if_neg here, found], inside⟩

theorem Intact.copy (intact : store.Intact id files) (dest : MailboxId) (ids : List MessageId) :
    (copyMessages host dest ids store).2.Intact id files :=
  copyMessages_keeps (Intact id files) (fun _ message held => held.append dest message) ids intact

theorem Intact.setFlags (intact : store.Intact id files) {ids : List MessageId}
    (spared : ∀ file ∈ files, carriesId host ids file = false) (flags : MessageFlags) :
    (Filesystem.setFlags host ids flags store).2.Intact id files := by
  refine ⟨@perform_orderly host store (.setFlags ids flags) nofun intact.1, ?_⟩
  obtain ⟨folder, found, inside⟩ := intact.2
  refine ⟨flagFolder host store.moment ids flags folder, by rw [folder_setFlags, found]; rfl, ?_⟩
  intro file member
  have moved := flagFolder_files host ids flags store.moment (intact.1.wellNamed found)
  rw [moved.mem_iff, List.mem_map]
  refine ⟨file, inside file member, ?_⟩
  rw [flaggedFile, if_neg (by rw [spared file member]; decide)]

theorem Intact.deleteMessages (intact : store.Intact id files) {ids : List MessageId}
    (spared : ∀ file ∈ files, carriesId host ids file = false) :
    (Filesystem.deleteMessages host ids store).2.Intact id files := by
  refine ⟨@perform_orderly host store (.delete ids) nofun intact.1, ?_⟩
  obtain ⟨folder, found, inside⟩ := intact.2
  refine ⟨expungeFolder host ids folder, by rw [folder_deleteMessages, found]; rfl, ?_⟩
  intro file member
  rw [expungeFolder_files, List.mem_filter]
  exact ⟨inside file member, by rw [spared file member]; rfl⟩

theorem Intact.deleteMailbox (intact : store.Intact id files) {other : MailboxId}
    (different : other ≠ id) : (Filesystem.deleteMailbox other store).2.Intact id files := by
  refine ⟨@perform_orderly plainHost store (.deleteMailbox other) nofun intact.1, ?_⟩
  obtain ⟨folder, found, inside⟩ := intact.2
  rcases deleteMailbox_cases other store with ⟨_, ran⟩ | ⟨_, _, ran⟩
  · rw [ran]
    exact ⟨folder, found, inside⟩
  · rw [ran]
    exact ⟨folder, by rw [folder_erase, if_neg (Ne.symm different), found], inside⟩

theorem Intact.sameFiles {next : Filesystem} (intact : store.Intact id files)
    (counter : next.deliveryCounter = store.deliveryCounter)
    (same : ∀ other folder, next.folder other = some folder →
      folder.files = [] ∨ ∃ before, store.folder other = some before ∧ folder.files = before.files)
    (kept : ∀ before, store.folder id = some before →
      ∃ folder, next.folder id = some folder ∧ folder.files = before.files) :
    next.Intact id files := by
  constructor
  · intro other folder found
    rw [counter]
    rcases same other folder found with empty | ⟨before, source, files⟩
    · exact ⟨by simp [empty], by simp [empty], by simp [empty]⟩
    · have numbered := intact.1 other before source
      exact ⟨by rw [files]; exact numbered.named, by rw [files]; exact numbered.bounded,
        by rw [files]; exact numbered.distinct⟩
  · obtain ⟨before, found, inside⟩ := intact.2
    obtain ⟨folder, there, files⟩ := kept before found
    exact ⟨folder, there, by rw [files]; exact inside⟩

theorem Intact.createMailbox (intact : store.Intact id files) (path : MailboxPath) :
    (Filesystem.createMailbox host path store).2.Intact id files := by
  let made : MailboxId := ⟨host.newUuid store.moment⟩
  let taken (directory : Folder → List MailFile) := ((store.folder made).map directory).getD []
  let folder : Folder := ⟨Mailbox.new made path, taken Folder.new, taken Folder.cur⟩
  have ran : (Filesystem.createMailbox host path store).2 =
      { store with moment := store.moment + 1, folders := store.folders.insert made folder } := rfl
  have files : ∀ before, store.folder made = some before → folder.files = before.files := by
    intro before found
    simp only [folder, taken, found, Folder.files, Option.map_some, Option.getD_some]
  rw [ran]
  apply intact.sameFiles
  · rfl
  · intro other held found
    by_cases here : other = made
    · rw [here] at found ⊢
      cases (AList.lookup_insert store.folders).symm.trans found
      cases source : store.folder made with
      | none => exact .inl (by simp [folder, taken, source, Folder.files])
      | some before => exact .inr ⟨before, rfl, files before source⟩
    · exact .inr ⟨held, (AList.lookup_insert_ne here).symm.trans found, rfl⟩
  · intro before found
    by_cases here : id = made
    · rw [here] at found ⊢
      exact ⟨folder, AList.lookup_insert store.folders, files before found⟩
    · exact ⟨before, (AList.lookup_insert_ne here).trans found, rfl⟩

theorem Intact.renameMailbox (intact : store.Intact id files) (other : MailboxId)
    (path : MailboxPath) : (Filesystem.renameMailbox other path store).2.Intact id files := by
  cases target : store.folder other with
  | none =>
      rw [Filesystem.renameMailbox, Effect.bind_error (lookupMailbox_missing target)]
      exact intact
  | some renamed =>
      rw [Filesystem.renameMailbox, Effect.bind_ok (lookupMailbox_found target)]
      let change (folder : Folder) := { folder with mailbox := { folder.mailbox with path } }
      have lookup : ∀ mailbox, (Table.adjust other change store.folders).lookup mailbox =
          if mailbox = other then (store.folder mailbox).map change else store.folder mailbox :=
        Table.lookup_adjust other change store.folders
      apply intact.sameFiles
      · rfl
      · intro mailbox held found
        have there := (lookup mailbox).symm.trans found
        split at there
        · obtain ⟨before, source, rfl⟩ := Option.map_eq_some_iff.mp there
          exact .inr ⟨before, source, rfl⟩
        · exact .inr ⟨held, there, rfl⟩
      · intro before found
        by_cases here : id = other
        · exact ⟨change before, (lookup id).trans (by rw [if_pos here, found]; rfl), rfl⟩
        · exact ⟨before, (lookup id).trans (by rw [if_neg here, found]), rfl⟩

end Intact

end Filesystem

end Rusmes
