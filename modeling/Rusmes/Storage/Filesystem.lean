import Rusmes.Storage.Types

/-!
The filesystem backend. A mailbox is a folder with the files of its `new` and
`cur` directories; an operation is a program on the whole store. What the
operations draw from outside (fresh identifiers, the clock, the order in which a
directory is read) comes from the host, indexed by a moment that every draw moves
on. File operations themselves succeed.
-/

namespace Rusmes

open WireText

/-- What `append_message` reported when it wrote a file. No operation reads it. -/
structure Delivery where
  counter : Nat
  size : Nat
  deriving DecidableEq, Repr

structure MailFile where
  name : Text
  data : Octets
  delivery : Delivery
  deriving DecidableEq, Repr

structure Host extends CaseMapping where
  hostname : Text
  pid : Nat → Nat
  newUuid : Nat → BitVec 128
  clock : Nat → Nat × Nat
  readDir : Nat → List MailFile → List MailFile
  readDir_perm : ∀ moment files, (readDir moment files).Perm files
  walkMailboxes : Nat → List MailboxId → List MailboxId
  walkMailboxes_perm : ∀ moment ids, (walkMailboxes moment ids).Perm ids

def plainHost : Host where
  toCaseMapping := asciiCase
  hostname := "localhost".toList
  pid _ := 1
  newUuid moment := BitVec.ofNat 128 moment
  clock moment := (moment, 0)
  readDir _ files := files
  readDir_perm _ _ := List.Perm.refl _
  walkMailboxes _ ids := ids
  walkMailboxes_perm _ _ := List.Perm.refl _

namespace MaildirFilename

def separator : Text := ":2,".toList

def generate (hostname : Text) (pid counter : Nat) (now : Nat × Nat) : Text :=
  decimal now.1 ++ ".M".toList ++ decimal now.2 ++ 'P' :: decimal pid ++ 'Q' :: decimal counter ++
    '.' :: hostname

def encodeFlags (flags : MessageFlags) : Text :=
  let letters := [(flags.draft, 'D'), (flags.flagged, 'F'), (flags.answered, 'R'),
    (flags.seen, 'S'), (flags.deleted, 'T')]
  separator ++ (letters.filter Prod.fst).map Prod.snd

def flagPart (filename : Text) : Text :=
  match splitOnceAt separator filename with
  | none => []
  | some (_, after) => ((splitOnceAt separator after).map Prod.fst).getD after

def decodeFlags (filename : Text) : MessageFlags :=
  let letters := flagPart filename
  { MessageFlags.new with
    draft := letters.contains 'D', flagged := letters.contains 'F',
    answered := letters.contains 'R', seen := letters.contains 'S',
    deleted := letters.contains 'T' }

def baseName (filename : Text) : Text :=
  ((splitOnceAt separator filename).map Prod.fst).getD filename

def withFlags (filename : Text) (flags : MessageFlags) : Text :=
  baseName filename ++ encodeFlags flags

end MaildirFilename

/-- A file put into a directory under its name; one of that name is replaced. -/
def placeFile (file : MailFile) (directory : List MailFile) : List MailFile :=
  directory.filter (·.name ≠ file.name) ++ [file]

structure Folder where
  mailbox : Mailbox
  new : List MailFile
  cur : List MailFile
  deriving DecidableEq, Repr

def Folder.files (folder : Folder) : List MailFile := folder.new ++ folder.cur

/-- The whole store. `history` lists the deliveries ever made, which no operation
reads. -/
structure Filesystem where
  folders : Table MailboxId Folder
  messages : Table MessageId Mail
  quotas : Table Username Quota
  subscriptions : Table Username (List Text)
  deliveryCounter : Nat
  moment : Nat
  history : List (MailboxId × UInt32)

namespace Filesystem

abbrev Program := Effect Text Filesystem

def tick : Program Nat := fun store =>
  (.ok store.moment, { store with moment := store.moment + 1 })

def folder (store : Filesystem) (id : MailboxId) : Option Folder := store.folders.lookup id

def quotaOf (store : Filesystem) (user : Username) : Quota :=
  (store.quotas.lookup user).getD .initial

def lookupMailbox (id : MailboxId) : Program Mailbox := do
  let store ← Effect.read
  match store.folder id with
  | some folder => return folder.mailbox
  | none => Effect.fail "Mailbox not found".toList

def checkQuota (user : Username) (size : Nat) : Program Unit := do
  let store ← Effect.read
  let quota := store.quotaOf user
  if quota.used + UInt64.ofNat size > quota.limit then
    Effect.fail "Quota exceeded: cannot append message".toList

def nextCounter : Program Nat := fun store =>
  (.ok (store.deliveryCounter + 1), { store with deliveryCounter := store.deliveryCounter + 1 })

def deliver (host : Host) (id : MailboxId) (counter : Nat) (message : Mail) : Program Unit := do
  let moment ← tick
  let file : MailFile :=
    { name := MaildirFilename.generate host.hostname (host.pid moment) counter (host.clock moment)
      data := serializeMessageToBytes message
      delivery := ⟨counter, message.size⟩ }
  let receive (folder : Folder) : Folder := { folder with new := placeFile file folder.new }
  Effect.modify fun store =>
    { store with
      folders := Table.adjust id receive store.folders
      history := store.history ++ [(id, UInt32.ofNat counter)] }

def cacheMessage (message : Mail) : Program Unit :=
  Effect.modify fun store =>
    { store with messages := store.messages.insert message.messageId message }

def charge (user : Username) (size : Nat) : Program Unit :=
  Effect.modify fun store =>
    let quota := store.quotaOf user
    let charged := { quota with used := quota.used + UInt64.ofNat size }
    { store with quotas := store.quotas.insert user charged }

def appendMessage (host : Host) (id : MailboxId) (message : Mail) : Program MessageMetadata := do
  let mailbox ← lookupMailbox id
  checkQuota mailbox.path.user message.size
  let counter ← nextCounter
  deliver host id counter message
  cacheMessage { message with message.body := message.message.body.drained }
  charge mailbox.path.user message.size
  return ⟨message.messageId, id, UInt32.ofNat counter, .new, message.size⟩

/-! Readers of the files. -/

def storedId (host : Host) (file : MailFile) : Option MessageId :=
  (MimeMessage.parseFromBytes host.toCaseMapping file.data).storedId host.toCaseMapping

def listedId (host : Host) (file : MailFile) : Option MessageId :=
  (MimeMessage.parseFromBytes host.toCaseMapping file.data).listedId host.toCaseMapping

def mailOf (host : Host) (moment : Nat) (id : MessageId) (file : MailFile) : Mail :=
  Mail.new ⟨host.newUuid moment⟩ id none []
    (MimeMessage.parseFromBytes host.toCaseMapping file.data) none none

def folderWalk (host : Host) (moment : Nat) (folder : Folder) : List MailFile :=
  host.readDir moment folder.new ++ host.readDir (moment + 1) folder.cur

def walk (host : Host) : Program (List MailFile) := do
  let moment ← tick
  let _ ← tick
  let store ← Effect.read
  let folders := (host.walkMailboxes moment store.folders.keys).filterMap store.folder
  return folders.flatMap (folderWalk host moment)

def getMessage (host : Host) (id : MessageId) : Program (Option Mail) := do
  let store ← Effect.read
  match store.messages.lookup id with
  | some mail => return some mail
  | none =>
      let files ← walk host
      match files.find? fun file => storedId host file = some id with
      | none => return none
      | some file =>
          let moment ← tick
          let mail := mailOf host moment id file
          cacheMessage mail
          return some mail

def carriesId (host : Host) (ids : List MessageId) (file : MailFile) : Bool :=
  (storedId host file).any (· ∈ ids)

def expungeFolder (host : Host) (ids : List MessageId) (folder : Folder) : Folder :=
  { folder with
    new := folder.new.filter fun file => !carriesId host ids file
    cur := folder.cur.filter fun file => !carriesId host ids file }

def deleteMessages (host : Host) (ids : List MessageId) : Program Unit :=
  Effect.modify fun store =>
    { store with
      messages := ids.foldl (fun messages id => messages.erase id) store.messages
      folders := Table.mapValues (fun _ => expungeFolder host ids) store.folders }

/-- The file of the given name in `new` or `cur`, moved to `cur` under the name with
the new flags when it carries one of the identifiers. -/
def reflagFile (host : Host) (ids : List MessageId) (flags : MessageFlags) (inCur : Bool)
    (folder : Folder) (name : Text) : Folder :=
  let directory := if inCur then folder.cur else folder.new
  match directory.find? (·.name = name) with
  | none => folder
  | some file =>
      let target := MaildirFilename.withFlags name flags
      if ¬carriesId host ids file ∨ (inCur ∧ target = name) then folder
      else
        let remaining := directory.filter (·.name ≠ name)
        let renamed := { file with name := target }
        if inCur then { folder with cur := placeFile renamed remaining }
        else { folder with new := remaining, cur := placeFile renamed folder.cur }

/-- The scan of one folder: first the files of `new`, then those of `cur` as they
are by then. -/
def flagFolder (host : Host) (moment : Nat) (ids : List MessageId) (flags : MessageFlags)
    (folder : Folder) : Folder :=
  let fromNew := (host.readDir moment folder.new).map (·.name)
  let first := fromNew.foldl (reflagFile host ids flags false) folder
  let fromCur := (host.readDir (moment + 1) first.cur).map (·.name)
  fromCur.foldl (reflagFile host ids flags true) first

def setFlags (host : Host) (ids : List MessageId) (flags : MessageFlags) : Program Unit := do
  let moment ← tick
  let _ ← tick
  let change (_ : MailboxId) := flagFolder host moment ids flags
  Effect.modify fun store => { store with folders := Table.mapValues change store.folders }

def getMessageFlags (host : Host) (id : MessageId) : Program (Option MessageFlags) := do
  let files ← walk host
  return (files.find? fun file => storedId host file = some id).map fun file =>
    MaildirFilename.decodeFlags file.name

def parseMessageFromFile (host : Host) (mailboxId : MailboxId) (uid : UInt32) (file : MailFile) :
    Program MessageMetadata := do
  let moment ← tick
  let id := (listedId host file).getD ⟨host.newUuid moment⟩
  cacheMessage (mailOf host moment id file)
  return ⟨id, mailboxId, uid, MaildirFilename.decodeFlags file.name, file.data.length⟩

def parseFiles (host : Host) (mailboxId : MailboxId) :
    UInt32 → List MailFile → Program (List MessageMetadata)
  | _, [] => return []
  | uid, file :: files => do
      let metadata ← parseMessageFromFile host mailboxId uid file
      let others ← parseFiles host mailboxId (uid + 1) files
      return metadata :: others

def getMailboxMessages (host : Host) (id : MailboxId) : Program (List MessageMetadata) := do
  let moment ← tick
  let _ ← tick
  let store ← Effect.read
  match store.folder id with
  | none => return []
  | some folder => parseFiles host id 1 (folderWalk host moment folder)

def copyMessages (host : Host) (dest : MailboxId) :
    List MessageId → Program (List MessageMetadata)
  | [] => return []
  | id :: ids => do
      let store ← Effect.read
      match store.messages.lookup id with
      | none => copyMessages host dest ids
      | some message =>
          let metadata ← appendMessage host dest message
          let others ← copyMessages host dest ids
          return metadata :: others

def containsFolded (host : Host) (text pattern : Text) : Bool :=
  host.toLowercase pattern <:+: host.toLowercase text

def matchesHeader (host : Host) (name : String) (metadata : MessageMetadata) (pattern : Text) :
    Program Bool := do
  match ← getMessage host metadata.messageId with
  | none => return false
  | some mail =>
      match mail.message.headers.getFirst host.toCaseMapping name.toList with
      | none => return false
      | some value => return containsFolded host value pattern

mutual

def matchesCriteria (host : Host) (metadata : MessageMetadata) : SearchCriteria → Program Bool
  | .all => return true
  | .unseen => return !metadata.flags.seen
  | .seen => return metadata.flags.seen
  | .flagged => return metadata.flags.flagged
  | .unflagged => return !metadata.flags.flagged
  | .deleted => return metadata.flags.deleted
  | .undeleted => return !metadata.flags.deleted
  | .sender pattern => matchesHeader host "from" metadata pattern
  | .recipient pattern => matchesHeader host "to" metadata pattern
  | .subject pattern => matchesHeader host "subject" metadata pattern
  | .body pattern => do
      match ← getMessage host metadata.messageId with
      | none => return false
      | some mail =>
          match mail.message.extractText with
          | none => return false
          | some text => return containsFolded host text pattern
  | .and parts => matchesAll host metadata parts
  | .or parts => matchesAny host metadata parts
  | .not part => do return !(← matchesCriteria host metadata part)

def matchesAll (host : Host) (metadata : MessageMetadata) : List SearchCriteria → Program Bool
  | [] => return true
  | part :: parts => do
      if ← matchesCriteria host metadata part then matchesAll host metadata parts
      else return false

def matchesAny (host : Host) (metadata : MessageMetadata) : List SearchCriteria → Program Bool
  | [] => return false
  | part :: parts => do
      if ← matchesCriteria host metadata part then return true
      else matchesAny host metadata parts

end

def searchMessages (host : Host) (criteria : SearchCriteria) :
    List MessageMetadata → Program (List MessageId)
  | [] => return []
  | metadata :: others => do
      let found ← matchesCriteria host metadata criteria
      let rest ← searchMessages host criteria others
      return if found then metadata.messageId :: rest else rest

def search (host : Host) (id : MailboxId) (criteria : SearchCriteria) :
    Program (List MessageId) := do
  let messages ← getMailboxMessages host id
  searchMessages host criteria messages

def createMailbox (host : Host) (path : MailboxPath) : Program MailboxId := do
  let moment ← tick
  let id : MailboxId := ⟨host.newUuid moment⟩
  Effect.modify fun store =>
    let files (directory : Folder → List MailFile) := ((store.folder id).map directory).getD []
    let folder := ⟨Mailbox.new id path, files Folder.new, files Folder.cur⟩
    { store with folders := store.folders.insert id folder }
  return id

def deleteMailbox (id : MailboxId) : Program Unit := do
  let _ ← lookupMailbox id
  Effect.modify fun store => { store with folders := store.folders.erase id }

def renameMailbox (id : MailboxId) (path : MailboxPath) : Program Unit := do
  let _ ← lookupMailbox id
  let change (folder : Folder) := { folder with mailbox := { folder.mailbox with path } }
  Effect.modify fun store => { store with folders := Table.adjust id change store.folders }

def getMailbox (id : MailboxId) : Program (Option Mailbox) := do
  let store ← Effect.read
  return (store.folder id).map Folder.mailbox

def allMailboxes (host : Host) : Program (List Mailbox) := do
  let moment ← tick
  let store ← Effect.read
  let folders := (host.walkMailboxes moment store.folders.keys).filterMap store.folder
  return folders.map Folder.mailbox

def listMailboxes (host : Host) (user : Username) : Program (List Mailbox) := do
  let mailboxes ← allMailboxes host
  return mailboxes.filter fun mailbox => mailbox.path.user = user

def getUserInbox (host : Host) (user : Username) : Program (Option MailboxId) := do
  let mailboxes ← allMailboxes host
  let inbox := mailboxes.find? fun mailbox =>
    mailbox.path.user = user && mailbox.path.name = some "INBOX".toList
  return inbox.map Mailbox.id

def subscribed (store : Filesystem) (user : Username) : List Text :=
  (store.subscriptions.lookup user).getD []

def subscribeMailbox (user : Username) (name : Text) : Program Unit :=
  Effect.modify fun store =>
    let names := (store.subscribed user).filter (· ≠ name) ++ [name]
    { store with subscriptions := store.subscriptions.insert user names }

def unsubscribeMailbox (user : Username) (name : Text) : Program Unit :=
  Effect.modify fun store =>
    let names := (store.subscribed user).filter (· ≠ name)
    { store with subscriptions := store.subscriptions.insert user names }

/-- The names as they come back from the file they are joined into. -/
def listSubscriptions (user : Username) : Program (List Text) := do
  let store ← Effect.read
  return textLines (joinWith ['\n'] (store.subscribed user))

def getMailboxCounters (id : MailboxId) : Program MailboxCounters := do
  let store ← Effect.read
  let count (directory : Folder → List MailFile) :=
    UInt32.ofNat ((((store.folder id).map directory).getD []).length)
  return ⟨count Folder.files, count Folder.new, 0⟩

def messageStore (host : Host) : MessageStore Filesystem where
  appendMessage := appendMessage host
  getMessage := getMessage host
  deleteMessages := deleteMessages host
  setFlags := setFlags host
  getMessageFlags := getMessageFlags host
  search := search host
  copyMessages ids dest := copyMessages host dest ids
  getMailboxMessages := getMailboxMessages host

def mailboxStore (host : Host) : MailboxStore Filesystem where
  createMailbox := createMailbox host
  -- the trait's own version; setting the attributes does nothing in this backend
  createMailboxWithSpecialUse path _ := createMailbox host path
  deleteMailbox := deleteMailbox
  renameMailbox := renameMailbox
  getMailbox := getMailbox
  listMailboxes := listMailboxes host
  getUserInbox := getUserInbox host
  subscribeMailbox := subscribeMailbox
  unsubscribeMailbox := unsubscribeMailbox
  listSubscriptions := listSubscriptions

def metadataStore : MetadataStore Filesystem where
  getMailboxCounters := getMailboxCounters

def restart (store : Filesystem) : Filesystem :=
  { store with messages := ∅, quotas := ∅, deliveryCounter := 0 }

end Filesystem

end Rusmes
