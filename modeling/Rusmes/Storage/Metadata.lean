import Rusmes.Library.Directories
import Rusmes.Storage.Runs

/-!
The mailbox metadata of the filesystem backend, in memory and on disk. Every user
has a directory with the list of the user's mailboxes and the subscribed names; a
new process reads the lists of all users and no subscriptions. A mailbox in a list
is kept as the value that is written and read back.
-/

namespace Rusmes

open WireText Directories

def MailboxId.display (id : MailboxId) : Text := (MessageId.mk id.uuid).display

structure UserFiles where
  mailboxes : Option (List Mailbox)
  subscriptions : Option Text
  deriving DecidableEq, Repr

instance : Inhabited UserFiles := ⟨⟨none, none⟩⟩

/-- What a process draws from outside; a directory is read in any order. -/
structure MetadataHost where
  basePath : List Text
  newUuid : Nat → BitVec 128
  readDir : Nat → List Text → List Text
  readDir_perm : ∀ moment names, (readDir moment names).Perm names

structure FilesystemBackend where
  mailboxes : Table MailboxId Mailbox
  subscriptions : Table Username (List Text)
  disk : DirectoryTree UserFiles
  moment : Nat

namespace FilesystemBackend

abbrev Program := Effect Text FilesystemBackend

variable (host : MetadataHost)

def usersPath : List Text := host.basePath ++ ["users".toList]

def userPath (user : Username) : List Text := resolve (usersPath host) user.text

def mailboxPath (id : MailboxId) : List Text :=
  host.basePath ++ ["mailboxes".toList, id.display]

def loadUserMailboxMetadata (disk : DirectoryTree UserFiles) (user : Username) : Table MailboxId Mailbox :=
  let mailboxes := ((disk.lookup (userPath host user)).bind UserFiles.mailboxes).getD []
  mailboxes.foldl (fun map mailbox => map.insert mailbox.id mailbox) ∅

def loadAllMailboxMetadata (moment : Nat) (disk : DirectoryTree UserFiles) : Table MailboxId Mailbox :=
  let names := host.readDir moment (children (usersPath host) disk)
  names.foldl (fun all name =>
    match Username.new name with
    | .ok user => loadUserMailboxMetadata host disk user ∪ all
    | .error _ => all) ∅

def new (moment : Nat) (disk : DirectoryTree UserFiles) : FilesystemBackend where
  mailboxes := loadAllMailboxMetadata host moment disk
  subscriptions := ∅
  disk
  moment := moment + 1

def saveUserMailboxMetadata (user : Username) (mailboxes : List Mailbox)
    (disk : DirectoryTree UserFiles) : DirectoryTree UserFiles :=
  changeFiles (userPath host user) (fun files => { files with mailboxes := some mailboxes }) disk

def mailboxesOf (user : Username) (mailboxes : Table MailboxId Mailbox) : List Mailbox :=
  (mailboxes.entries.map Sigma.snd).filter fun mailbox => mailbox.path.user = user

def persistUserMailboxes (user : Username) : Program Unit :=
  Effect.modify fun backend =>
    { backend with
      disk := saveUserMailboxMetadata host user (mailboxesOf user backend.mailboxes) backend.disk }

def createMailbox (path : MailboxPath) : Program MailboxId := do
  let backend ← Effect.read
  let id : MailboxId := ⟨host.newUuid backend.moment⟩
  let directories := ["cur", "new", "tmp"].map fun name => mailboxPath host id ++ [name.toList]
  Effect.modify fun backend =>
    { backend with
      disk := directories.foldl (fun disk place => createDirAll place disk) backend.disk
      mailboxes := backend.mailboxes.insert id (.new id path)
      moment := backend.moment + 1 }
  persistUserMailboxes host path.user
  return id

def deleteMailbox (id : MailboxId) : Program Unit := do
  let backend ← Effect.read
  match backend.mailboxes.lookup id with
  | none => Effect.fail "Mailbox not found".toList
  | some mailbox =>
      if (backend.disk.lookup (mailboxPath host id)).isNone then
        Effect.fail "No such file or directory (os error 2)".toList
      Effect.modify fun backend =>
        { backend with
          disk := removeDirAll (mailboxPath host id) backend.disk
          mailboxes := backend.mailboxes.erase id }
      persistUserMailboxes host mailbox.path.user

/-- The list that is written is that of the user the mailbox now belongs to. -/
def renameMailbox (id : MailboxId) (path : MailboxPath) : Program Unit := do
  let backend ← Effect.read
  match backend.mailboxes.lookup id with
  | none => Effect.fail "Mailbox not found".toList
  | some _ =>
      let change (mailbox : Mailbox) := { mailbox with path }
      Effect.modify fun backend =>
        { backend with mailboxes := Table.adjust id change backend.mailboxes }
      persistUserMailboxes host path.user

def listMailboxes (user : Username) : Program (List Mailbox) := do
  let backend ← Effect.read
  return mailboxesOf user backend.mailboxes

def saveSubscriptions (user : Username) (names : List Text) : Program Unit :=
  Effect.modify fun backend =>
    { backend with
      disk := changeFiles (userPath host user)
        (fun files => { files with subscriptions := some (joinWith ['\n'] names) }) backend.disk }

def subscribeMailbox (user : Username) (name : Text) : Program Unit := do
  let backend ← Effect.read
  let names := ((backend.subscriptions.lookup user).getD []).filter (· ≠ name) ++ [name]
  Effect.modify fun backend =>
    { backend with subscriptions := backend.subscriptions.insert user names }
  saveSubscriptions host user names

/-- A user who is not in memory gets an empty file and no entry. -/
def unsubscribeMailbox (user : Username) (name : Text) : Program Unit := do
  let backend ← Effect.read
  let names := ((backend.subscriptions.lookup user).getD []).filter (· ≠ name)
  let removed (names : List Text) := names.filter (· ≠ name)
  Effect.modify fun backend =>
    { backend with subscriptions := Table.adjust user removed backend.subscriptions }
  saveSubscriptions host user names

def subscriptionsFile (user : Username) (disk : DirectoryTree UserFiles) : Option Text :=
  (disk.lookup (userPath host user)).bind UserFiles.subscriptions

def listSubscriptions (user : Username) : Program (List Text) := do
  let backend ← Effect.read
  match subscriptionsFile host user backend.disk with
  | some content =>
      let names := textLines content
      Effect.modify fun backend =>
        { backend with subscriptions := backend.subscriptions.insert user names.dedup }
      return names
  | none => return (backend.subscriptions.lookup user).getD []

inductive Call
  | create (path : MailboxPath)
  | delete (id : MailboxId)
  | rename (id : MailboxId) (path : MailboxPath)
  | subscribe (user : Username) (name : Text)
  | unsubscribe (user : Username) (name : Text)
  | list (user : Username)
  | restart
  deriving DecidableEq, Repr

def restart (backend : FilesystemBackend) : FilesystemBackend :=
  new host backend.moment backend.disk

def perform (backend : FilesystemBackend) : Call → FilesystemBackend
  | .create path => (createMailbox host path backend).2
  | .delete id => (deleteMailbox host id backend).2
  | .rename id path => (renameMailbox host id path backend).2
  | .subscribe user name => (subscribeMailbox host user name backend).2
  | .unsubscribe user name => (unsubscribeMailbox host user name backend).2
  | .list user => (listSubscriptions host user backend).2
  | .restart => restart host backend

def run (backend : FilesystemBackend) (calls : List Call) : FilesystemBackend :=
  calls.foldl (perform host) backend

def empty : FilesystemBackend := ⟨∅, ∅, ∅, 0⟩

structure SeesSame (first second : FilesystemBackend) (user : Username) : Prop where
  mailboxes : ∀ id path,
    (∃ mailbox ∈ mailboxesOf user first.mailboxes, mailbox.id = id ∧ mailbox.path = path) ↔
      ∃ mailbox ∈ mailboxesOf user second.mailboxes, mailbox.id = id ∧ mailbox.path = path
  subscriptions :
    (listSubscriptions host user first).1 = (listSubscriptions host user second).1

/-- A user's name is a directory name, a new identifier is not in use and a mailbox
stays with its user. -/
def Tidy (backend : FilesystemBackend) : Call → Prop
  | .create path =>
      Single path.user.text ∧ backend.mailboxes.lookup ⟨host.newUuid backend.moment⟩ = none
  | .rename id path => ∀ mailbox, backend.mailboxes.lookup id = some mailbox →
      mailbox.path.user = path.user
  | .subscribe user _ => Single user.text
  | .unsubscribe user _ => Single user.text
  | _ => True

def TidyRun : FilesystemBackend → List Call → Prop
  | _, [] => True
  | backend, call :: calls => Tidy host backend call ∧ TidyRun (perform host backend call) calls

def writtenMailboxes (disk : DirectoryTree UserFiles) (user : Username) : List Mailbox :=
  (filesAt disk (userPath host user)).mailboxes.getD []

/-- Memory and disk agree on the mailboxes, and what is remembered of subscriptions has
its file. -/
structure Mirrors (backend : FilesystemBackend) : Prop where
  keyed : ∀ id mailbox, backend.mailboxes.lookup id = some mailbox →
    mailbox.id = id ∧ Single mailbox.path.user.text
  written : ∀ user : Username, Single user.text → ∀ mailbox,
    mailbox ∈ writtenMailboxes host backend.disk user ↔
      backend.mailboxes.lookup mailbox.id = some mailbox ∧ mailbox.path.user = user
  named : ∀ name, (backend.disk.lookup (usersPath host ++ [name])).isSome → Single name
  held : ∀ place, filesAt backend.disk place ≠ default → ∃ name, place = usersPath host ++ [name]
  cached : ∀ user, (backend.subscriptions.lookup user).isSome →
    (filesAt backend.disk (userPath host user)).subscriptions.isSome

variable {host}

theorem userPath_single {user : Username} (single : Single user.text) :
    userPath host user = usersPath host ++ [user.text] :=
  resolve_single single _

theorem mem_mailboxesOf {user : Username} {mailboxes : Table MailboxId Mailbox} {mailbox : Mailbox} :
    mailbox ∈ mailboxesOf user mailboxes ↔
      (∃ id, mailboxes.lookup id = some mailbox) ∧ mailbox.path.user = user := by
  simp only [mailboxesOf, List.mem_filter, List.mem_map, decide_eq_true_eq]
  constructor
  · rintro ⟨⟨entry, member, rfl⟩, owner⟩
    exact ⟨⟨entry.1, Table.mem_entries.mp member⟩, owner⟩
  · rintro ⟨⟨id, found⟩, owner⟩
    exact ⟨⟨⟨id, mailbox⟩, Table.mem_entries.mpr found, rfl⟩, owner⟩

/-! Reading the lists back. -/

theorem lookup_loaded (mailboxes : List Mailbox) (start : Table MailboxId Mailbox)
    {id : MailboxId} {mailbox : Mailbox}
    (found : (mailboxes.foldl (fun map mailbox => map.insert mailbox.id mailbox) start).lookup id =
      some mailbox) :
    mailbox ∈ mailboxes ∧ mailbox.id = id ∨ start.lookup id = some mailbox := by
  induction mailboxes generalizing start with
  | nil => exact Or.inr found
  | cons first mailboxes ih =>
      rcases ih _ found with ⟨member, same⟩ | earlier
      · exact Or.inl ⟨List.mem_cons_of_mem first member, same⟩
      · by_cases same : id = first.id
        · subst same
          rw [AList.lookup_insert, Option.some.injEq] at earlier
          subst earlier
          exact Or.inl ⟨List.mem_cons_self, rfl⟩
        · rw [AList.lookup_insert_ne same] at earlier
          exact Or.inr earlier

theorem mem_loaded (mailboxes : List Mailbox) (start : Table MailboxId Mailbox) {id : MailboxId}
    (present : id ∈ start ∨ ∃ mailbox ∈ mailboxes, mailbox.id = id) :
    id ∈ mailboxes.foldl (fun map mailbox => map.insert mailbox.id mailbox) start := by
  induction mailboxes generalizing start with
  | nil =>
      rcases present with earlier | ⟨mailbox, member, _⟩
      · exact earlier
      · cases member
  | cons first mailboxes ih =>
      apply ih
      rcases present with earlier | ⟨mailbox, member, same⟩
      · exact Or.inl ((AList.mem_insert _).mpr (Or.inr earlier))
      · rcases List.mem_cons.mp member with here | later
        · exact Or.inl ((AList.mem_insert _).mpr (Or.inl (by rw [← same, here])))
        · exact Or.inr ⟨mailbox, later, same⟩

theorem loadUser_eq (disk : DirectoryTree UserFiles) (user : Username) :
    loadUserMailboxMetadata host disk user =
      (writtenMailboxes host disk user).foldl (fun map mailbox => map.insert mailbox.id mailbox)
        ∅ := by
  rw [loadUserMailboxMetadata, writtenMailboxes, filesAt]
  cases disk.lookup (userPath host user) with
  | none => rfl
  | some files => rfl

section Loading

variable (disk : DirectoryTree UserFiles)

def loadName (host : MetadataHost) (disk : DirectoryTree UserFiles) (all : Table MailboxId Mailbox)
    (name : Text) : Table MailboxId Mailbox :=
  match Username.new name with
  | .ok user => loadUserMailboxMetadata host disk user ∪ all
  | .error _ => all

theorem loadAll_eq (moment : Nat) :
    loadAllMailboxMetadata host moment disk =
      (host.readDir moment (children (usersPath host) disk)).foldl (loadName host disk) ∅ := rfl

theorem lookup_loadNames (names : List Text) (start : Table MailboxId Mailbox) {id : MailboxId}
    {mailbox : Mailbox}
    (found : (names.foldl (loadName host disk) start).lookup id = some mailbox) :
    (∃ name ∈ names, ∃ user, Username.new name = .ok user ∧
      (loadUserMailboxMetadata host disk user).lookup id = some mailbox) ∨
      start.lookup id = some mailbox := by
  induction names generalizing start with
  | nil => exact Or.inr found
  | cons name names ih =>
      rcases ih _ found with ⟨later, member, source⟩ | earlier
      · exact Or.inl ⟨later, List.mem_cons_of_mem name member, source⟩
      · rw [loadName] at earlier
        cases made : Username.new name with
        | error error =>
            rw [made] at earlier
            exact Or.inr earlier
        | ok user =>
            rw [made] at earlier
            rcases AList.lookup_union_eq_some.mp earlier with here | ⟨_, before⟩
            · exact Or.inl ⟨name, List.mem_cons_self, user, made, here⟩
            · exact Or.inr before

theorem mem_loadNames (names : List Text) (start : Table MailboxId Mailbox) {id : MailboxId}
    (present : id ∈ start ∨ ∃ name ∈ names, ∃ user, Username.new name = .ok user ∧
      id ∈ loadUserMailboxMetadata host disk user) :
    id ∈ names.foldl (loadName host disk) start := by
  induction names generalizing start with
  | nil =>
      rcases present with earlier | ⟨name, member, _⟩
      · exact earlier
      · cases member
  | cons name names ih =>
      apply ih
      rcases present with earlier | ⟨other, member, user, made, held⟩
      · rw [loadName]
        cases Username.new name with
        | error error => exact Or.inl earlier
        | ok user => exact Or.inl (AList.mem_union.mpr (Or.inr earlier))
      · rcases List.mem_cons.mp member with here | later
        · rw [loadName, ← here, made]
          exact Or.inl (AList.mem_union.mpr (Or.inl held))
        · exact Or.inr ⟨other, later, user, made, held⟩

end Loading

section Restarts

variable {backend : FilesystemBackend} (mirrors : Mirrors host backend)

include mirrors

theorem Mirrors.loadUser {user : Username} (single : Single user.text) {id : MailboxId}
    {mailbox : Mailbox}
    (found : (loadUserMailboxMetadata host backend.disk user).lookup id = some mailbox) :
    backend.mailboxes.lookup id = some mailbox := by
  rw [loadUser_eq] at found
  rcases lookup_loaded _ _ found with ⟨member, same⟩ | impossible
  · rw [← same]
    exact ((mirrors.written user single mailbox).mp member).1
  · cases impossible

theorem Mirrors.mem_loadUser {id : MailboxId} {mailbox : Mailbox}
    (found : backend.mailboxes.lookup id = some mailbox) :
    id ∈ loadUserMailboxMetadata host backend.disk mailbox.path.user := by
  obtain ⟨same, single⟩ := mirrors.keyed id mailbox found
  rw [loadUser_eq]
  refine mem_loaded _ _ (Or.inr ⟨mailbox, ?_, same⟩)
  exact (mirrors.written mailbox.path.user single mailbox).mpr ⟨same.symm ▸ found, rfl⟩

theorem Mirrors.directory {id : MailboxId} {mailbox : Mailbox}
    (found : backend.mailboxes.lookup id = some mailbox) :
    mailbox.path.user.text ∈ children (usersPath host) backend.disk := by
  obtain ⟨same, single⟩ := mirrors.keyed id mailbox found
  have member := (mirrors.written mailbox.path.user single mailbox).mpr ⟨same.symm ▸ found, rfl⟩
  rw [mem_children]
  rw [writtenMailboxes, userPath_single single, filesAt] at member
  cases present : backend.disk.lookup (usersPath host ++ [mailbox.path.user.text]) with
  | none =>
      rw [present] at member
      cases member
  | some files => rfl

theorem Mirrors.loadAll (moment : Nat) (id : MailboxId) :
    (loadAllMailboxMetadata host moment backend.disk).lookup id = backend.mailboxes.lookup id := by
  have order := host.readDir_perm moment (children (usersPath host) backend.disk)
  have sound : ∀ mailbox,
      (loadAllMailboxMetadata host moment backend.disk).lookup id = some mailbox →
      backend.mailboxes.lookup id = some mailbox := by
    intro mailbox found
    rw [loadAll_eq] at found
    rcases lookup_loadNames _ _ _ found with ⟨name, member, user, made, loaded⟩ | impossible
    · have single := mirrors.named name (mem_children.mp (order.mem_iff.mp member))
      exact mirrors.loadUser (Username.new_text made ▸ single) loaded
    · cases impossible
  cases memory : backend.mailboxes.lookup id with
  | none =>
      cases loaded : (loadAllMailboxMetadata host moment backend.disk).lookup id with
      | none => rfl
      | some mailbox => rw [sound mailbox loaded] at memory; cases memory
  | some mailbox =>
      have member := order.mem_iff.mpr (mirrors.directory memory)
      have present : id ∈ loadAllMailboxMetadata host moment backend.disk :=
        mem_loadNames _ _ _ (Or.inr ⟨_, member, mailbox.path.user, Username.new_of_text _,
          mirrors.mem_loadUser memory⟩)
      obtain ⟨loaded, found⟩ := Option.isSome_iff_exists.mp (AList.lookup_isSome.mpr present)
      rw [found, ← memory, sound loaded found]

theorem Mirrors.restart : Mirrors host (restart host backend) where
  keyed id mailbox found := mirrors.keyed id mailbox (mirrors.loadAll _ id ▸ found)
  written user single mailbox := by
    have same := mirrors.loadAll backend.moment mailbox.id
    rw [FilesystemBackend.restart, new]
    dsimp only
    rw [same]
    exact mirrors.written user single mailbox
  named := mirrors.named
  held := mirrors.held
  cached user present := by cases present

theorem Mirrors.seesSame (user : Username) :
    SeesSame host (FilesystemBackend.restart host backend) backend user := by
  constructor
  · intro id path
    have same : ∀ mailbox,
        mailbox ∈ mailboxesOf user (FilesystemBackend.restart host backend).mailboxes ↔
          mailbox ∈ mailboxesOf user backend.mailboxes := by
      intro mailbox
      simp only [mem_mailboxesOf, FilesystemBackend.restart, new, mirrors.loadAll]
    simp only [same]
  · have memory : (FilesystemBackend.restart host backend).subscriptions.lookup user = none := rfl
    have disk : (FilesystemBackend.restart host backend).disk = backend.disk := rfl
    simp only [listSubscriptions, Effect.read_bind, disk, memory]
    cases written : subscriptionsFile host user backend.disk with
    | some content => rfl
    | none =>
        cases cached : backend.subscriptions.lookup user with
        | none => rfl
        | some names =>
            have there := mirrors.cached user (by rw [cached]; rfl)
            rw [filesAt] at there
            rw [subscriptionsFile] at written
            cases found : backend.disk.lookup (userPath host user) with
            | none => rw [found] at there; cases there
            | some files =>
                rw [found, Option.bind_some] at written
                rw [found, Option.getD_some, written] at there
                cases there

end Restarts

theorem users_not_under_mailbox (id : MailboxId) (name : Text) :
    ¬mailboxPath host id <+: usersPath host ++ [name] := by
  intro under
  rw [mailboxPath, usersPath, List.append_assoc, List.prefix_append_right_inj] at under
  exact absurd (List.cons_prefix_cons.mp under).1 (by decide)

theorem mailbox_not_under_users (id : MailboxId) (name : Text) (rest : List Text) :
    ¬usersPath host ++ [name] <+: mailboxPath host id ++ rest := by
  intro under
  rw [mailboxPath, usersPath, List.append_assoc, List.append_assoc,
    List.prefix_append_right_inj] at under
  exact absurd (List.cons_prefix_cons.mp under).1 (by decide)

section Steps

variable {backend : FilesystemBackend} (mirrors : Mirrors host backend)

include mirrors

theorem Mirrors.sameFiles {disk : DirectoryTree UserFiles} (moment : Nat)
    (same : ∀ place, filesAt disk place = filesAt backend.disk place)
    (fewer : ∀ name, (disk.lookup (usersPath host ++ [name])).isSome →
      (backend.disk.lookup (usersPath host ++ [name])).isSome) :
    Mirrors host { backend with disk, moment } where
  keyed := mirrors.keyed
  written user single mailbox := by
    rw [writtenMailboxes, same]
    exact mirrors.written user single mailbox
  named name present := mirrors.named name (fewer name present)
  held place solid := mirrors.held place (same place ▸ solid)
  cached user present := by
    rw [same]
    exact mirrors.cached user present

theorem Mirrors.createDirs (moment : Nat) (id : MailboxId) (names : List Text) :
    Mirrors host { backend with
      disk := (names.map fun name => mailboxPath host id ++ [name]).foldl
        (fun disk place => createDirAll place disk) backend.disk
      moment } := by
  have unchanged : ∀ disk : DirectoryTree UserFiles,
      (∀ place, filesAt ((names.map fun name => mailboxPath host id ++ [name]).foldl
        (fun disk place => createDirAll place disk) disk) place = filesAt disk place) ∧
      ∀ name, (((names.map fun name => mailboxPath host id ++ [name]).foldl
        (fun disk place => createDirAll place disk) disk).lookup (usersPath host ++ [name])).isSome →
        (disk.lookup (usersPath host ++ [name])).isSome := by
    induction names with
    | nil => exact fun disk => ⟨fun _ => rfl, fun _ present => present⟩
    | cons first names ih =>
        intro disk
        obtain ⟨files, fewer⟩ := ih (createDirAll (mailboxPath host id ++ [first]) disk)
        constructor
        · intro place
          exact (files place).trans (filesAt_createDirAll _ disk place)
        · intro name present
          have earlier := fewer name present
          rwa [lookup_createDirAll, if_neg (mailbox_not_under_users id name [first]),
            Option.or_none] at earlier
  exact mirrors.sameFiles moment (unchanged backend.disk).1 (unchanged backend.disk).2

theorem Mirrors.removeDir (id : MailboxId) :
    Mirrors host { backend with disk := removeDirAll (mailboxPath host id) backend.disk } := by
  apply mirrors.sameFiles backend.moment
  · intro place
    rw [filesAt_removeDirAll]
    by_cases under : mailboxPath host id <+: place
    · rw [if_pos under]
      by_contra solid
      obtain ⟨name, rfl⟩ := mirrors.held place (Ne.symm solid)
      exact users_not_under_mailbox id name under
    · rw [if_neg under]
  · intro name present
    rwa [lookup_removeDirAll, if_neg (users_not_under_mailbox id name)] at present

theorem Mirrors.named_changeFiles {user : Username} (single : Single user.text)
    {change : UserFiles → UserFiles} {name : Text}
    (present : ((changeFiles (userPath host user) change backend.disk).lookup
      (usersPath host ++ [name])).isSome) : Single name := by
  rcases lookup_changeFiles_isSome.mp present with earlier | onTheWay
  · exact mirrors.named name earlier
  · rw [userPath_single single, List.prefix_append_right_inj] at onTheWay
    rwa [(List.cons_prefix_cons.mp onTheWay).1]

theorem Mirrors.held_changeFiles {user : Username} (single : Single user.text)
    {change : UserFiles → UserFiles} {place : List Text}
    (solid : filesAt (changeFiles (userPath host user) change backend.disk) place ≠ default) :
    ∃ name, place = usersPath host ++ [name] := by
  rw [filesAt_changeFiles] at solid
  by_cases here : place = userPath host user
  · exact ⟨user.text, here.trans (userPath_single single)⟩
  · rw [if_neg here] at solid
    exact mirrors.held place solid

theorem Mirrors.persist {user : Username} (single : Single user.text)
    {mailboxes : Table MailboxId Mailbox}
    (keyed : ∀ id mailbox, mailboxes.lookup id = some mailbox →
      mailbox.id = id ∧ Single mailbox.path.user.text)
    (others : ∀ mailbox, mailbox.path.user ≠ user →
      (mailboxes.lookup mailbox.id = some mailbox ↔
        backend.mailboxes.lookup mailbox.id = some mailbox)) :
    Mirrors host (persistUserMailboxes host user { backend with mailboxes }).2 where
  keyed := keyed
  written other plain mailbox := by
    dsimp only [persistUserMailboxes, Effect.modify]
    rw [writtenMailboxes, saveUserMailboxMetadata, filesAt_changeFiles]
    by_cases same : other = user
    · subst same
      rw [if_pos rfl, Option.getD_some, mem_mailboxesOf]
      constructor
      · rintro ⟨⟨id, found⟩, owner⟩
        rw [(keyed id mailbox found).1]
        exact ⟨found, owner⟩
      · rintro ⟨found, owner⟩
        exact ⟨⟨mailbox.id, found⟩, owner⟩
    · have apart : userPath host other ≠ userPath host user := by
        rw [userPath_single plain, userPath_single single]
        intro path
        have text := (List.cons.inj (List.append_cancel_left path)).1
        cases other
        cases user
        cases text
        exact same rfl
      rw [if_neg apart]
      refine (mirrors.written other plain mailbox).trans ?_
      constructor
      · rintro ⟨found, owner⟩
        exact ⟨(others mailbox (owner ▸ same)).mpr found, owner⟩
      · rintro ⟨found, owner⟩
        exact ⟨(others mailbox (owner ▸ same)).mp found, owner⟩
  named name present := mirrors.named_changeFiles single present
  held place solid := mirrors.held_changeFiles single solid
  cached other present := by
    have earlier := mirrors.cached other present
    dsimp only [persistUserMailboxes, Effect.modify]
    rw [saveUserMailboxMetadata, filesAt_changeFiles]
    by_cases here : userPath host other = userPath host user
    · rw [if_pos here]
      rwa [here] at earlier
    · rwa [if_neg here]

theorem Mirrors.create {path : MailboxPath} (single : Single path.user.text)
    (fresh : backend.mailboxes.lookup ⟨host.newUuid backend.moment⟩ = none) :
    Mirrors host (createMailbox host path backend).2 := by
  let id : MailboxId := ⟨host.newUuid backend.moment⟩
  have made := mirrors.createDirs (backend.moment + 1) id ["cur".toList, "new".toList, "tmp".toList]
  refine @Mirrors.persist host _ made path.user single
    (backend.mailboxes.insert id (.new id path)) ?_ ?_
  · intro other mailbox found
    by_cases same : other = id
    · subst same
      rw [AList.lookup_insert, Option.some.injEq] at found
      subst found
      exact ⟨rfl, single⟩
    · rw [AList.lookup_insert_ne same] at found
      exact mirrors.keyed other mailbox found
  · intro mailbox foreign
    by_cases same : mailbox.id = id
    · rw [same, AList.lookup_insert, fresh]
      constructor
      · intro found
        exact absurd (by rw [← Option.some.inj found]; rfl) foreign
      · intro found
        cases found
    · rw [AList.lookup_insert_ne same]

theorem Mirrors.delete (id : MailboxId) : Mirrors host (deleteMailbox host id backend).2 := by
  rw [deleteMailbox, Effect.read_bind]
  cases found : backend.mailboxes.lookup id with
  | none => exact mirrors
  | some mailbox =>
      dsimp only
      split
      · exact mirrors
      · obtain ⟨same, single⟩ := mirrors.keyed id mailbox found
        refine @Mirrors.persist host _ (mirrors.removeDir id) mailbox.path.user single
          (backend.mailboxes.erase id) ?_ ?_
        · intro other held present
          by_cases gone : other = id
          · rw [gone, AList.lookup_erase] at present
            cases present
          · rw [AList.lookup_erase_ne gone] at present
            exact mirrors.keyed other held present
        · intro other foreign
          by_cases gone : other.id = id
          · rw [gone, AList.lookup_erase, found]
            constructor
            · intro present
              cases present
            · intro present
              exact absurd (by rw [Option.some.inj present]) foreign
          · rw [AList.lookup_erase_ne gone]

theorem Mirrors.rename {id : MailboxId} {path : MailboxPath}
    (stays : ∀ mailbox, backend.mailboxes.lookup id = some mailbox →
      mailbox.path.user = path.user) :
    Mirrors host (renameMailbox host id path backend).2 := by
  rw [renameMailbox, Effect.read_bind]
  cases found : backend.mailboxes.lookup id with
  | none => exact mirrors
  | some mailbox =>
      obtain ⟨same, single⟩ := mirrors.keyed id mailbox found
      have owner := stays mailbox found
      refine @Mirrors.persist host _ mirrors path.user (owner ▸ single)
        (Table.adjust id (fun mailbox => { mailbox with path }) backend.mailboxes) ?_ ?_
      · intro other held present
        rw [Table.lookup_adjust] at present
        by_cases here : other = id
        · subst here
          rw [if_pos rfl, found] at present
          cases present
          exact ⟨same, owner ▸ single⟩
        · rw [if_neg here] at present
          exact mirrors.keyed other held present
      · intro other foreign
        rw [Table.lookup_adjust]
        by_cases here : other.id = id
        · rw [if_pos here, here, found]
          constructor
          · intro present
            exact absurd (by rw [← Option.some.inj present]) foreign
          · intro present
            exact absurd (by rw [← Option.some.inj present, owner]) foreign
        · rw [if_neg here]

theorem Mirrors.subscriptions {user : Username} (single : Single user.text) (names : List Text)
    {subscriptions : Table Username (List Text)}
    (others : ∀ other, other ≠ user → (subscriptions.lookup other).isSome →
      (backend.subscriptions.lookup other).isSome) :
    Mirrors host (saveSubscriptions host user names { backend with subscriptions }).2 where
  keyed := mirrors.keyed
  written other plain mailbox := by
    refine Iff.trans ?_ (mirrors.written other plain mailbox)
    dsimp only [saveSubscriptions, Effect.modify]
    rw [writtenMailboxes, writtenMailboxes, filesAt_changeFiles]
    by_cases here : userPath host other = userPath host user
    · rw [if_pos here, here]
    · rw [if_neg here]
  named name present := mirrors.named_changeFiles single present
  held place solid := mirrors.held_changeFiles single solid
  cached other present := by
    dsimp only [saveSubscriptions, Effect.modify]
    rw [filesAt_changeFiles]
    by_cases here : userPath host other = userPath host user
    · rw [if_pos here]
      rfl
    · rw [if_neg here]
      have apart : other ≠ user := fun same => here (by rw [same])
      exact mirrors.cached other (others other apart present)

theorem Mirrors.list (user : Username) : Mirrors host (listSubscriptions host user backend).2 := by
  rw [listSubscriptions, Effect.read_bind]
  cases written : subscriptionsFile host user backend.disk with
  | none => exact mirrors
  | some content =>
      refine ⟨mirrors.keyed, mirrors.written, mirrors.named, mirrors.held, ?_⟩
      intro other present
      by_cases same : other = user
      · subst same
        rw [subscriptionsFile] at written
        obtain ⟨files, found, held⟩ := Option.bind_eq_some_iff.mp written
        change (filesAt backend.disk (userPath host other)).subscriptions.isSome
        rw [filesAt, found, Option.getD_some, held]
        rfl
      · apply mirrors.cached other
        rwa [← AList.lookup_insert_ne same]

theorem Mirrors.perform {call : Call} (tidy : Tidy host backend call) :
    Mirrors host (perform host backend call) := by
  cases call with
  | create path => exact mirrors.create tidy.1 tidy.2
  | delete id => exact mirrors.delete id
  | rename id path => exact mirrors.rename tidy
  | subscribe user name =>
      apply mirrors.subscriptions tidy
      intro other apart present
      rwa [AList.lookup_insert_ne apart] at present
  | unsubscribe user name =>
      apply mirrors.subscriptions tidy
      intro other apart present
      rwa [Table.lookup_adjust, if_neg apart] at present
  | list user => exact mirrors.list user
  | restart => exact mirrors.restart

end Steps

theorem mirrors_empty : Mirrors host empty where
  keyed id mailbox found := by cases found
  written user single mailbox := by
    constructor
    · intro member
      cases member
    · rintro ⟨found, _⟩
      cases found
  named name present := by cases present
  held place solid := absurd rfl solid
  cached user present := by cases present

theorem mirrors_run {backend : FilesystemBackend} (mirrors : Mirrors host backend)
    {calls : List Call} (tidy : TidyRun host backend calls) :
    Mirrors host (run host backend calls) := by
  induction calls generalizing backend with
  | nil => exact mirrors
  | cons call calls ih => exact ih (mirrors.perform tidy.1) tidy.2

theorem tidyRun_part {backend : FilesystemBackend} {reached remaining : List Call}
    (tidy : TidyRun host backend (reached ++ remaining)) : TidyRun host backend reached := by
  induction reached generalizing backend with
  | nil => trivial
  | cons call reached ih => exact ⟨tidy.1, ih tidy.2⟩

/-- In a run of tidy calls with new processes anywhere, a new process at any point sees
what the old one saw. -/
theorem restart_sees_same {calls reached : List Call} (tidy : TidyRun host empty calls)
    (part : reached <+: calls) (user : Username) :
    SeesSame host (run host empty (reached ++ [.restart])) (run host empty reached) user := by
  obtain ⟨remaining, whole⟩ := part
  have mirrors := mirrors_run mirrors_empty (tidyRun_part (whole ▸ tidy))
  rw [run, List.foldl_append]
  exact mirrors.seesSame user

def plainMetadataHost : MetadataHost where
  basePath := ["mail".toList]
  newUuid moment := BitVec.ofNat 128 moment
  readDir _ names := names
  readDir_perm _ _ := List.Perm.refl _

def bobUser : Username where
  text := "bob".toList
  nonempty := List.cons_ne_nil 'b' _
  bounded := by decide

def boxRun (owner : Username) (name : Text) : List Call :=
  [.create ⟨aliceUser, ["Box".toList]⟩, .rename ⟨0⟩ ⟨owner, [name]⟩]

theorem restart_after_rename :
    SeesSame plainMetadataHost
      (run plainMetadataHost empty (boxRun aliceUser "Chest".toList ++ [.restart]))
      (run plainMetadataHost empty (boxRun aliceUser "Chest".toList)) aliceUser := by
  have single : Single aliceUser.text := ⟨by decide, by decide, by decide, by decide⟩
  refine @restart_sees_same plainMetadataHost (boxRun aliceUser "Chest".toList) _
    ⟨⟨single, rfl⟩, ?_, trivial⟩ (List.prefix_refl _) aliceUser
  intro mailbox found
  rw [← Option.some.inj found]
  rfl

/-- A mailbox given to another user and then deleted comes back. -/
theorem deleted_comes_back :
    (deleteMailbox plainMetadataHost ⟨0⟩
      (run plainMetadataHost empty (boxRun bobUser "Box".toList))).1.toBool ∧
    ¬SeesSame plainMetadataHost
      (run plainMetadataHost empty (boxRun bobUser "Box".toList ++ [.delete ⟨0⟩] ++ [.restart]))
      (run plainMetadataHost empty (boxRun bobUser "Box".toList ++ [.delete ⟨0⟩])) aliceUser := by
  refine ⟨by decide +kernel, fun same => ?_⟩
  have seen := (same.mailboxes ⟨0⟩ ⟨aliceUser, ["Box".toList]⟩).mp
    ⟨.new ⟨0⟩ ⟨aliceUser, ["Box".toList]⟩, by decide +kernel, rfl, rfl⟩
  obtain ⟨mailbox, member, _⟩ := seen
  have none : mailboxesOf aliceUser (run plainMetadataHost empty
    (boxRun bobUser "Box".toList ++ [.delete ⟨0⟩])).mailboxes = [] := by decide +kernel
  rw [none] at member
  cases member

end FilesystemBackend

end Rusmes
