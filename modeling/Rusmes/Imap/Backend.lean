import Rusmes.Auth.Evidence
import Rusmes.Imap.Loop
import Rusmes.Storage.Runs

/-!
The handlers over the filesystem backend.
-/

namespace Rusmes

open WireText

def filesystemContext {β : Type} (host : Host) (authBackend : AuthBackend β)
    (toUppercase : Text → Text) (newUuid : Nat → BitVec 128) : HandlerContext Filesystem β where
  toCaseMapping := host.toCaseMapping
  mailboxStore := Filesystem.mailboxStore host
  messageStore := Filesystem.messageStore host
  metadataStore := Filesystem.metadataStore
  authBackend := authBackend
  toUppercase := toUppercase
  newUuid := newUuid

def plainContext : HandlerContext Filesystem Unit :=
  filesystemContext plainHost singleUser toUppercase fun draw => ~~~BitVec.ofNat 128 draw

def storedNote (name : String) : MailFile := ⟨name.toList, [], ⟨0, 0⟩⟩

def inboxWith (cur : List MailFile) : Filesystem :=
  { Filesystem.freshStore with
    folders := AList.insert Filesystem.inboxId ⟨Filesystem.aliceInbox, [], cur⟩ ∅ }

def inboxSession : ImapSession :=
  { ImapSession.new with
    state := .selected Filesystem.inboxId
    username := some aliceUser
    mailboxEventRx := some ⟨Filesystem.inboxId, 0⟩ }

def inboxWorld (store : Filesystem) : World Filesystem Unit where
  store := store
  backend := ()
  registry := AList.insert Filesystem.inboxId [] ∅
  session := inboxSession
  draws := 0

end Rusmes
