import Rusmes.Library.Effect
import Rusmes.Library.Table
import Rusmes.Proto.Mime

/-!
The data types of `rusmes-storage` and the three store interfaces the protocol
servers call. A store is any program with a state of its own; every call may fail.
-/

namespace Rusmes

open WireText

structure MailboxId where
  uuid : BitVec 128
  deriving DecidableEq, Repr

structure MailboxPath where
  user : Username
  path : List Text
  deriving DecidableEq, Repr

def MailboxPath.name (path : MailboxPath) : Option Text := path.path.getLast?

structure Mailbox where
  id : MailboxId
  path : MailboxPath
  uidValidity : UInt32
  uidNext : UInt32
  specialUse : Option Text
  deriving DecidableEq, Repr

def Mailbox.new (id : MailboxId) (path : MailboxPath) : Mailbox :=
  { id, path, uidValidity := 1, uidNext := 1, specialUse := none }

structure MessageFlags where
  seen : Bool
  answered : Bool
  flagged : Bool
  deleted : Bool
  draft : Bool
  recent : Bool
  custom : List Text
  deriving DecidableEq, Repr

def MessageFlags.new : MessageFlags :=
  { seen := false, answered := false, flagged := false, deleted := false, draft := false,
    recent := false, custom := [] }

def MessageFlags.addCustom (flags : MessageFlags) (flag : Text) : MessageFlags :=
  if flag ∈ flags.custom then flags else { flags with custom := flags.custom ++ [flag] }

structure MessageMetadata where
  messageId : MessageId
  mailboxId : MailboxId
  uid : UInt32
  flags : MessageFlags
  size : Nat
  deriving DecidableEq, Repr

inductive SearchCriteria
  | all
  | unseen
  | seen
  | flagged
  | unflagged
  | deleted
  | undeleted
  | sender (pattern : Text)
  | recipient (pattern : Text)
  | subject (pattern : Text)
  | body (pattern : Text)
  | and (parts : List SearchCriteria)
  | or (parts : List SearchCriteria)
  | not (part : SearchCriteria)

structure MailboxCounters where
  messages : UInt32
  recent : UInt32
  unseen : UInt32
  deriving DecidableEq, Repr

structure Quota where
  used : UInt64
  limit : UInt64
  deriving DecidableEq, Repr

def Quota.initial : Quota := ⟨0, 1024 * 1024 * 1024⟩

structure MessageStore (σ : Type) where
  appendMessage : MailboxId → Mail → Effect Text σ MessageMetadata
  getMessage : MessageId → Effect Text σ (Option Mail)
  deleteMessages : List MessageId → Effect Text σ Unit
  setFlags : List MessageId → MessageFlags → Effect Text σ Unit
  getMessageFlags : MessageId → Effect Text σ (Option MessageFlags)
  search : MailboxId → SearchCriteria → Effect Text σ (List MessageId)
  copyMessages : List MessageId → MailboxId → Effect Text σ (List MessageMetadata)
  getMailboxMessages : MailboxId → Effect Text σ (List MessageMetadata)

structure MailboxStore (σ : Type) where
  createMailbox : MailboxPath → Effect Text σ MailboxId
  createMailboxWithSpecialUse : MailboxPath → List Text → Effect Text σ MailboxId
  deleteMailbox : MailboxId → Effect Text σ Unit
  renameMailbox : MailboxId → MailboxPath → Effect Text σ Unit
  getMailbox : MailboxId → Effect Text σ (Option Mailbox)
  listMailboxes : Username → Effect Text σ (List Mailbox)
  getUserInbox : Username → Effect Text σ (Option MailboxId)
  subscribeMailbox : Username → Text → Effect Text σ Unit
  unsubscribeMailbox : Username → Text → Effect Text σ Unit
  listSubscriptions : Username → Effect Text σ (List Text)

structure MetadataStore (σ : Type) where
  getMailboxCounters : MailboxId → Effect Text σ MailboxCounters

end Rusmes
