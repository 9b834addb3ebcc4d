import Rusmes.Imap.Backend
import Rusmes.Imap.Selection
import Rusmes.Imap.Steps
import Rusmes.Storage.Kept

/-!
What a session can do to a mailbox it has examined. EXAMINE leaves no trace in the
session's state, so what protects the mailbox is only that a command picks none of
its messages.
-/

namespace Rusmes

open WireText ImapResponse

namespace Filesystem

theorem search_sameDisk {σ β : Type} (ctx : HandlerContext σ β) (host : Host) (id : MailboxId)
    (words : List Text) (store : Filesystem) :
    SameDisk store (search host id (parseSearchCriteria ctx words) store).2 := by
  have listed := getMailboxMessages_sameDisk host id store
  rw [search, Effect.bind_apply]
  rcases ran : getMailboxMessages host id store with ⟨outcome, after⟩
  rw [ran] at listed
  cases outcome with
  | error error => exact listed
  | ok messages =>
      dsimp only
      rw [searchMessages_meets ctx words messages after]
      exact listed

end Filesystem

/-! Commands. -/

section Commands

variable {β : Type} {host : Host} {authBackend : AuthBackend β} {upper : Text → Text}
  {newUuid : Nat → BitVec 128} {known : Filesystem → Username → MailboxId → Prop}
  {proven : β → Username → Prop} {chosen : Choice} {compressing : Prop} {id : MailboxId}
  {files : List MailFile}

def Choice.Spares (host : Host) (id : MailboxId) (files : List MailFile) (chosen : Choice) : Prop :=
  chosen.mailbox ≠ some id ∧
    ∀ file ∈ files, Filesystem.carriesId host chosen.messages file = false

theorem storeCall_intact {session : ImapSession} {store next : Filesystem}
    (call : StoreCall (filesystemContext host authBackend upper newUuid) known chosen session store
      next)
    (spares : chosen.Spares host id files) (intact : store.Intact id files) :
    next.Intact id files := by
  cases call with
  | listMailboxes | getUserInbox | getMailbox | getMailboxCounters | listSubscriptions
  | subscribeMailbox | unsubscribeMailbox => exact intact.sameDisk ⟨rfl, rfl⟩
  | createMailbox acts path => exact intact.createMailbox _
  | createMailboxWithSpecialUse acts path uses => exact intact.createMailbox _
  | deleteMailbox acts given picked =>
      refine intact.deleteMailbox ?_
      rintro rfl
      exact spares.1 picked
  | renameMailbox acts given path => exact intact.renameMailbox _ _
  | getMailboxMessages acts given =>
      exact intact.sameDisk (Filesystem.getMailboxMessages_sameDisk _ _ _)
  | search acts given criteria => exact intact.sameDisk (Filesystem.search_sameDisk _ _ _ _ _)
  | getMessage acts asked => exact intact.sameDisk (Filesystem.getMessage_sameDisk _ _ _)
  | appendMessage acts given mail => exact intact.append _ mail
  | copyMessages acts given ids => exact intact.copy _ ids
  | setFlags acts flags => exact intact.setFlags spares.2 flags
  | deleteMessages acts => exact intact.deleteMessages spares.2

theorem reaches_intact {world after : World Filesystem β}
    (reaches : Reaches (filesystemContext host authBackend upper newUuid) known proven chosen
      compressing world after)
    (spares : chosen.Spares host id files) (intact : world.store.Intact id files) :
    after.store.Intact id files := by
  induction reaches with
  | refl => exact intact
  | tail _ action ih =>
      cases action with
      | store call => exact storeCall_intact call spares ih
      | authenticate | login | logout | select | watch | idle | close | compress | publish
      | draw => exact ih

/-- A step of a session that has examined a mailbox: a command other than SELECT that
picks none of the mailbox's messages, or the end of IDLE. -/
inductive SparingStep (host : Host) (ctx : HandlerContext Filesystem β) (id : MailboxId)
    (world : World Filesystem β) : World Filesystem β → Prop
  | command (tag : Text) (command : ImapCommand) (other : ∀ mailbox, command ≠ .select mailbox)
      (spares : ∀ folder, world.store.folder id = some folder →
        (choice ctx command world).Spares host id folder.files) :
      SparingStep host ctx id world (handleCommand ctx tag command world).2
  | wake {idle : MailboxId} (idling : world.session.state = .idle idle) (tag : Option Text)
      (receiver : Option Receiver) :
      SparingStep host ctx id world
        { world with
          session :=
            { world.session with state := .selected idle, tag, mailboxEventRx := receiver } }

theorem sparingStep_intact {world after : World Filesystem β}
    (step : SparingStep host (filesystemContext host authBackend upper newUuid) id world after)
    (manned : Manned world) (intact : world.store.Intact id files) :
    Manned after ∧ after.store.Intact id files := by
  cases step with
  | command tag command other spares =>
      have within := @handleCommand_within _ _ (filesystemContext host authBackend upper newUuid) _ _
        _ tag (anything_known _) manned command
      obtain ⟨folder, found, inside⟩ := intact.2
      have spared := spares folder found
      refine ⟨manned.reaches (anything_known _) within, reaches_intact within ?_ intact⟩
      exact ⟨spared.1, fun file member => spared.2 file (inside file member)⟩
  | wake idling tag receiver =>
      refine ⟨manned.moves (idling ▸ ImapState.active_idle _) rfl ?_, intact⟩
      intro _ _
      obtain ⟨user, named, _⟩ := manned.user (idling ▸ ImapState.active_idle _)
      exact ⟨user, named, trivial⟩

theorem sparingRun_intact {world after : World Filesystem β}
    (run : Relation.ReflTransGen
      (SparingStep host (filesystemContext host authBackend upper newUuid) id) world after)
    (manned : Manned world) (intact : world.store.Intact id files) :
    Manned after ∧ after.store.Intact id files := by
  induction run with
  | refl => exact ⟨manned, intact⟩
  | tail _ step ih => exact sparingStep_intact step ih.1 ih.2

theorem asUser_untagged {σ : Type} {world after : World σ β} {tag : Text}
    {handle : Username → Handler σ β ImapResponse} {response : ImapResponse}
    (ran : asUser tag handle world = (.ok response, after)) (untagged : response.tag = none) :
    ∃ user, world.session.ActsFor user := by
  rw [asUser, Effect.read_bind] at ran
  by_cases authenticated : world.session.state.isAuthenticated = true
  · rw [if_pos authenticated] at ran
    cases named : world.session.username with
    | some user => exact ⟨user, authenticated, named⟩
    | none =>
        rw [named] at ran
        cases ran
        cases untagged
  · rw [if_neg authenticated] at ran
    cases ran
    cases untagged

theorem ImapSession.ActsFor.manned {σ : Type} {world : World σ β} {user : Username}
    (acts : world.session.ActsFor user) : Manned world where
  user _ := ⟨user, acts.2, trivial⟩
  mailbox _ := ⟨user, acts.2, trivial⟩

/-- After EXAMINE, every message of a mailbox keeps its place, its octets and its flags
as long as no command picks one of them or deletes the mailbox. -/
theorem examined_kept_while_spared (host : Host) (authBackend : AuthBackend β)
    (upper : Text → Text) (newUuid : Nat → BitVec 128) {world opened later : World Filesystem β}
    {tag mailbox : Text} {lines : List Text} {folder : Folder}
    (examined : handleCommand (filesystemContext host authBackend upper newUuid) tag
      (.examine mailbox) world =
        (.ok (listing lines tag "[READ-ONLY] EXAMINE completed".toList), opened))
    (found : opened.store.folder id = some folder) (orderly : opened.store.Orderly)
    (run : Relation.ReflTransGen
      (SparingStep host (filesystemContext host authBackend upper newUuid) id) opened later) :
    later.store.Holds id folder.files := by
  obtain ⟨user, acts⟩ := asUser_untagged examined rfl
  have within := @handleCommand_within _ _ (filesystemContext host authBackend upper newUuid) _ _
    _ tag (anything_known _) acts.manned (.examine mailbox)
  rw [Within, examined] at within
  have manned := acts.manned.reaches (anything_known _) within
  have intact : opened.store.Intact id folder.files :=
    ⟨orderly, folder, found, fun _ member => member⟩
  exact (sparingRun_intact run manned intact).2.2

end Commands

def loggedInWorld (store : Filesystem) : World Filesystem Unit :=
  { inboxWorld store with
    session := { ImapSession.new with state := .authenticated, username := some aliceUser } }

def storeWith (message : Mail) : Filesystem :=
  (Filesystem.appendMessage plainHost Filesystem.inboxId message Filesystem.freshStore).2

theorem storeWith_orderly (message : Mail) : (storeWith message).Orderly :=
  Filesystem.appendMessage_orderly message
    (Filesystem.orderly_of_empty fun _ _ => Filesystem.freshStore_files)

def examinedWorld (message : Mail) : World Filesystem Unit :=
  (handleCommand plainContext "a".toList (.examine "INBOX".toList)
    (loggedInWorld (storeWith message))).2

/-- A note is examined, and EXPUNGE finds nothing to remove. -/
theorem examined_kept_expunge :
    (examinedWorld (noteFromAlice [])).session.state = .selected Filesystem.inboxId ∧
      (handleCommand plainContext "b".toList .expunge (examinedWorld (noteFromAlice []))).2.store.Holds
        Filesystem.inboxId
        [Filesystem.deliveredFile plainHost Filesystem.freshStore (noteFromAlice [])] := by
  refine ⟨rfl, ?_⟩
  have examined : handleCommand plainContext "a".toList (.examine "INBOX".toList)
      (loggedInWorld (storeWith (noteFromAlice []))) = (_, examinedWorld (noteFromAlice [])) := rfl
  have found : (examinedWorld (noteFromAlice [])).store.folder Filesystem.inboxId = some
      ⟨Filesystem.aliceInbox,
        [Filesystem.deliveredFile plainHost Filesystem.freshStore (noteFromAlice [])], []⟩ := rfl
  have orderly : (examinedWorld (noteFromAlice [])).store.Orderly := storeWith_orderly _
  refine examined_kept_while_spared plainHost singleUser toUppercase _ examined found orderly ?_
  refine .single (.command "b".toList .expunge nofun ?_)
  intro folder _
  have nothing : (choice plainContext .expunge (examinedWorld (noteFromAlice []))).messages = [] := rfl
  refine ⟨nofun, ?_⟩
  intro file _
  change Filesystem.carriesId plainHost
    (choice plainContext .expunge (examinedWorld (noteFromAlice []))).messages file = false
  rw [nothing, Filesystem.carriesId]
  cases Filesystem.storedId plainHost file with
  | none => rfl
  | some stored => rfl

def smuggledFile : MailFile :=
  Filesystem.deliveredFile plainHost Filesystem.freshStore (smuggling ⟨7⟩)

theorem examined_reflagged : ∃ lines,
    handleCommand plainContext "a".toList (.examine "INBOX".toList)
        (loggedInWorld (storeWith (smuggling ⟨7⟩))) =
      (.ok (listing lines "a".toList "[READ-ONLY] EXAMINE completed".toList),
        examinedWorld (smuggling ⟨7⟩)) ∧
    (examinedWorld (smuggling ⟨7⟩)).store.Holds Filesystem.inboxId [smuggledFile] ∧
    ¬(handleCommand plainContext "b".toList
        (.uid (.store "1".toList .replace ["\\Deleted".toList]))
        (examinedWorld (smuggling ⟨7⟩))).2.store.Holds Filesystem.inboxId [smuggledFile] := by
  have found : (examinedWorld (smuggling ⟨7⟩)).store.folder Filesystem.inboxId =
      some ⟨Filesystem.aliceInbox, [smuggledFile], []⟩ := rfl
  have id : Filesystem.listedId plainHost smuggledFile = some ⟨7⟩ := listedId_smuggling _ _
  refine ⟨_, rfl, ⟨_, found, fun _ member => member⟩, ?_⟩
  let world := examinedWorld (smuggling ⟨7⟩)
  let messages := Filesystem.listEntries plainHost Filesystem.inboxId 1 (world.store.moment + 2)
    [smuggledFile]
  have selected : world.session.state = .selected Filesystem.inboxId := rfl
  have lists : plainContext.messageStore.getMailboxMessages Filesystem.inboxId world.store =
      (.ok messages, (Filesystem.getMailboxMessages plainHost Filesystem.inboxId world.store).2) :=
    Prod.ext (congrArg Prod.fst (Filesystem.getMailboxMessages_found found)) rfl
  have same := Filesystem.getMailboxMessages_sameDisk plainHost Filesystem.inboxId world.store
  generalize (Filesystem.getMailboxMessages plainHost Filesystem.inboxId world.store).2 = after
    at lists same
  have parsed : parseUidSequenceSet "1".toList messages = .ok [(1, 1)] := rfl
  have flagged := @handleUidStore_store _ _ _ _ _ _ "b".toList _ _ _ selected lists parsed .replace
    ["\\Deleted".toList]
  have ids : (UidSet.select [(1, 1)] messages).map MessageMetadata.messageId = [⟨7⟩] := by
    change [(Filesystem.listedId plainHost smuggledFile).getD
      ⟨plainHost.newUuid (world.store.moment + 2)⟩] = _
    rw [id]
    rfl
  have some : UidSet.select [(1, 1)] messages ≠ [] := by
    intro none
    rw [none] at ids
    cases ids
  rw [if_neg some, ids] at flagged
  rintro ⟨folder, there, inside⟩
  have kept : Filesystem.folder after Filesystem.inboxId = .some _ := (congrArg
    (fun folders : Table MailboxId Folder => folders.lookup Filesystem.inboxId) same.1).trans found
  have moved : folder = Filesystem.flagFolder plainHost after.moment [⟨7⟩]
      (buildMessageFlags plainContext ["\\Deleted".toList])
      ⟨Filesystem.aliceInbox, [smuggledFile], []⟩ := by
    have lookup := (congrArg (Filesystem.folder · Filesystem.inboxId) flagged).symm.trans there
    have set := @Filesystem.folder_setFlags plainHost [⟨7⟩]
      (buildMessageFlags plainContext ["\\Deleted".toList]) after Filesystem.inboxId
    rw [kept] at set
    exact Option.some.inj (lookup.symm.trans set)
  have member := inside smuggledFile List.mem_cons_self
  rw [moved] at member
  have files := (@Filesystem.flagFolder_files plainHost [⟨7⟩]
    (buildMessageFlags plainContext ["\\Deleted".toList]) after.moment
    ⟨Filesystem.aliceInbox, [smuggledFile], []⟩ (by simp [Folder.WellNamed, Folder.files])).mem_iff.mp
    member
  have carries : Filesystem.carriesId plainHost [⟨7⟩] smuggledFile = true := by
    rw [Filesystem.carriesId, Filesystem.storedId_of_listedId id]
    rfl
  have renamed := List.mem_singleton.mp files
  rw [Filesystem.flaggedFile, if_pos carries] at renamed
  have names := congrArg MailFile.name renamed
  revert names
  decide

end Rusmes
