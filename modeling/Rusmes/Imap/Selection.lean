import Rusmes.Imap.Messages
import Rusmes.Storage.Filesystem

/-!
What the commands on UIDs do once the store has listed the selected mailbox.
-/

namespace Rusmes

open WireText ImapResponse

variable {σ β Value : Type} {ctx : HandlerContext σ β} {world : World σ β} {id : MailboxId}
  {sequence tag : Text} {messages : List MessageMetadata} {listed : σ} {uids : UidSet}

def UidSet.select (uids : UidSet) (messages : List MessageMetadata) : List MessageMetadata :=
  messages.filter fun metadata => uids.contains metadata.uid

theorem chosenByUid_ok (parsed : parseUidSequenceSet sequence messages = .ok uids)
    (world : World σ β) : chosenByUid sequence messages world = (.ok (uids.select messages), world) := by
  rw [chosenByUid, parsed]
  rfl

theorem onStore_error {action : Effect Text σ Value} {world : World σ β} {error : Text} {after : σ}
    (ran : action world.store = (.error error, after)) :
    onStore action world = (.error error, { world with store := after }) := by
  rw [onStore, Effect.focus_apply, ran]

theorem handleUidStore_store (selected : world.session.state = .selected id)
    (lists : ctx.messageStore.getMailboxMessages id world.store = (.ok messages, listed))
    (parsed : parseUidSequenceSet sequence messages = .ok uids) (mode : StoreMode)
    (flags : List Text) :
    (handleUidStore ctx tag sequence mode flags world).2.store =
      if uids.select messages = [] then listed
      else (ctx.messageStore.setFlags ((uids.select messages).map MessageMetadata.messageId)
        (buildMessageFlags ctx flags) listed).2 := by
  rw [handleUidStore, inMailbox_selected selected, Effect.bind_ok (onStore_ok lists),
    Effect.bind_ok (chosenByUid_ok parsed _)]
  by_cases nothing : uids.select messages = []
  · rw [if_pos nothing, if_pos nothing]
    rfl
  · rw [if_neg nothing, if_neg nothing, applyFlags_eq]
    rcases ran : ctx.messageStore.setFlags ((uids.select messages).map MessageMetadata.messageId)
      (buildMessageFlags ctx flags) listed with ⟨outcome, after⟩
    cases outcome with
    | error error =>
        have failed := @onStore_error _ β _ _ { world with store := listed } _ _ ran
        rw [Effect.bind_error failed]
    | ok done =>
        have flagged := @onStore_ok _ β _ _ { world with store := listed } _ _ ran
        rw [Effect.bind_ok flagged]
        rfl

section Destination

variable {located : World σ β} {user : Username} {dest : Mailbox} {mailbox : Text}

theorem withDestination_found (selected : world.session.state = .selected id)
    (named : world.session.username = some user)
    (finds : findMailbox ctx user mailbox world = (.ok (some dest), located))
    (handle : MailboxId → Mailbox → Handler σ β ImapResponse) :
    withDestination ctx tag mailbox handle world = handle id dest located := by
  rw [withDestination, inMailboxAsUser, inMailbox_selected selected, Effect.read_bind, named]
  exact Effect.bind_ok finds

theorem handleUidCopy_found (selected : world.session.state = .selected id)
    (named : world.session.username = some user)
    (finds : findMailbox ctx user mailbox world = (.ok (some dest), located))
    (lists : ctx.messageStore.getMailboxMessages id located.store = (.ok messages, listed))
    (parsed : parseUidSequenceSet sequence messages = .ok uids) :
    let ids := (uids.select messages).map MessageMetadata.messageId
    handleUidCopy ctx tag sequence mailbox world =
      copyChosen ctx tag dest ids (uidTexts (messages.filter (·.messageId ∈ ids)))
        "UID COPY".toList { located with store := listed } := by
  intro ids
  rw [handleUidCopy, withDestination_found selected named finds, Effect.bind_ok (onStore_ok lists),
    Effect.bind_ok (chosenByUid_ok parsed _)]

theorem handleUidMove_found (selected : world.session.state = .selected id)
    (named : world.session.username = some user)
    (finds : findMailbox ctx user mailbox world = (.ok (some dest), located))
    (lists : ctx.messageStore.getMailboxMessages id located.store = (.ok messages, listed))
    (parsed : parseUidSequenceSet sequence messages = .ok uids) :
    let ids := (uids.select messages).map MessageMetadata.messageId
    handleUidMove ctx tag sequence mailbox world =
      moveChosen ctx tag dest ids (uidTexts (messages.filter (·.messageId ∈ ids)))
        "UID MOVE".toList { located with store := listed } := by
  intro ids
  rw [handleUidMove, withDestination_found selected named finds, Effect.bind_ok (onStore_ok lists),
    Effect.bind_ok (chosenByUid_ok parsed _)]

theorem copyChosen_run {ids : List MessageId} (some : ids ≠ []) (sources : List Text) {name : Text} :
    let ran := ctx.messageStore.copyMessages ids dest.id world.store
    (copyChosen ctx tag dest ids sources name world).1.isOk = ran.1.isOk ∧
      (copyChosen ctx tag dest ids sources name world).2.store = ran.2 := by
  intro ran
  rw [copyChosen, if_neg some]
  rcases copied : ran with ⟨outcome, after⟩
  cases outcome with
  | error error =>
      rw [Effect.bind_error (onStore_error copied)]
      exact ⟨rfl, rfl⟩
  | ok metadata =>
      rw [Effect.bind_ok (onStore_ok copied)]
      exact ⟨rfl, rfl⟩

end Destination

section Search

variable {host : Host}

def SearchCriteria.meets : SearchCriteria → MessageFlags → Bool
  | .all, _ => true
  | .unseen, flags => !flags.seen
  | .seen, flags => flags.seen
  | .flagged, flags => flags.flagged
  | .unflagged, flags => !flags.flagged
  | .deleted, flags => flags.deleted
  | .undeleted, flags => !flags.deleted
  | _, _ => false

theorem matchesCriteria_meets (ctx : HandlerContext σ β) (words : List Text)
    (metadata : MessageMetadata) (store : Filesystem) :
    Filesystem.matchesCriteria host metadata (parseSearchCriteria ctx words) store =
      (.ok ((parseSearchCriteria ctx words).meets metadata.flags), store) := by
  cases words with
  | nil => rfl
  | cons first rest =>
      rw [parseSearchCriteria]
      repeat' split
      all_goals rfl

theorem searchMessages_meets (ctx : HandlerContext σ β) (words : List Text)
    (messages : List MessageMetadata) (store : Filesystem) :
    Filesystem.searchMessages host (parseSearchCriteria ctx words) messages store =
      (.ok ((messages.filter fun metadata => (parseSearchCriteria ctx words).meets
        metadata.flags).map MessageMetadata.messageId), store) := by
  induction messages with
  | nil => rfl
  | cons metadata messages ih =>
      rw [Filesystem.searchMessages, Effect.bind_ok (matchesCriteria_meets ctx words metadata store),
        Effect.bind_ok ih, List.filter_cons]
      split
      · rfl
      · rfl

end Search

end Rusmes
