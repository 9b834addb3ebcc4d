import Rusmes.Storage.Types

/-!
The state of an IMAP session and the registry through which sessions tell one
another what happened in a mailbox. A channel is the list of all events sent on
it; a receiver is a position in that list, and one that has fallen more than the
channel's capacity behind has lost the oldest events.
-/

namespace Rusmes

open WireText

inductive ImapState
  | notAuthenticated
  | authenticated
  | selected (mailboxId : MailboxId)
  | idle (mailboxId : MailboxId)
  | logout
  deriving DecidableEq, Repr

structure MailboxSnapshot where
  «exists» : UInt32
  recent : UInt32
  deriving DecidableEq, Repr

inductive MailboxEvent
  | «exists» (count : UInt32)
  | recent (count : UInt32)
  | expunge (seq : UInt32)
  | flagsChanged (uid : UInt32) (flags : List Text)
  deriving DecidableEq, Repr

def channelCapacity : Nat := 256

abbrev MailboxRegistry := Table MailboxId (List MailboxEvent)

structure Receiver where
  mailboxId : MailboxId
  position : Nat
  deriving DecidableEq, Repr

namespace MailboxRegistry

def channel (registry : MailboxRegistry) (id : MailboxId) : List MailboxEvent :=
  (registry.lookup id).getD []

def subscribe (registry : MailboxRegistry) (id : MailboxId) : MailboxRegistry × Receiver :=
  (if id ∈ registry then registry else registry.insert id [],
    ⟨id, (channel registry id).length⟩)

def publish (id : MailboxId) (event : MailboxEvent) (registry : MailboxRegistry) :
    MailboxRegistry :=
  Table.adjust id (· ++ [event]) registry

def pending (registry : MailboxRegistry) (receiver : Receiver) : List MailboxEvent :=
  let log := channel registry receiver.mailboxId
  log.drop (max receiver.position (log.length - channelCapacity))

theorem channel_publish {registry : MailboxRegistry} {id : MailboxId} (present : id ∈ registry)
    (event : MailboxEvent) : channel (publish id event registry) id = channel registry id ++ [event] := by
  obtain ⟨log, found⟩ := Option.isSome_iff_exists.mp (AList.lookup_isSome.mpr present)
  simp [channel, publish, Table.lookup_adjust, found]

theorem mem_publish {registry : MailboxRegistry} {id other : MailboxId} (event : MailboxEvent) :
    other ∈ publish id event registry ↔ other ∈ registry := by
  rw [AList.mem_keys, AList.mem_keys, publish, Table.adjust, Table.keys_mapValues]

theorem channel_publish_all {registry : MailboxRegistry} {id : MailboxId} (present : id ∈ registry)
    (events : List MailboxEvent) :
    channel (events.foldl (fun registry event => publish id event registry) registry) id =
      channel registry id ++ events := by
  induction events generalizing registry with
  | nil => simp
  | cons event events ih =>
      rw [List.foldl_cons, ih ((mem_publish event).mpr present), channel_publish present]
      simp

theorem pending_publish_all {registry : MailboxRegistry} {receiver : Receiver}
    (present : receiver.mailboxId ∈ registry)
    (within : receiver.position ≤ (channel registry receiver.mailboxId).length)
    (events : List MailboxEvent) :
    ∃ earlier, earlier ⊆ pending registry receiver ∧
      pending (events.foldl (fun registry event =>
        publish receiver.mailboxId event registry) registry) receiver =
      earlier ++ events.drop (events.length - channelCapacity) := by
  have sent := channel_publish_all present events
  simp only [pending, sent, List.drop_append, List.length_append]
  generalize channel registry receiver.mailboxId = log at within ⊢
  refine ⟨log.drop (max receiver.position (log.length + events.length - channelCapacity)), ?_, ?_⟩
  · apply List.drop_subset_drop_left
    omega
  · have kept : max receiver.position (log.length + events.length - channelCapacity) - log.length =
        events.length - channelCapacity := by
      omega
    rw [kept]

end MailboxRegistry

structure ImapSession where
  state : ImapState
  tag : Option Text
  username : Option Username
  mailboxSnapshot : Option MailboxSnapshot
  mailboxEventRx : Option Receiver
  compressPending : Bool
  deriving DecidableEq, Repr

namespace ImapSession

def new : ImapSession := ⟨.notAuthenticated, none, none, none, none, false⟩

def updateSnapshot (session : ImapSession) (count recent : UInt32) : ImapSession :=
  { session with mailboxSnapshot := some ⟨count, recent⟩ }

def formatMailboxEvent : MailboxEvent → Text
  | .exists count => "* ".toList ++ decimal count.toNat ++ " EXISTS".toList
  | .recent count => "* ".toList ++ decimal count.toNat ++ " RECENT".toList
  | .expunge seq => "* ".toList ++ decimal seq.toNat ++ " EXPUNGE".toList
  | .flagsChanged uid flags =>
      "* ".toList ++ decimal uid.toNat ++ " FETCH (UID ".toList ++ decimal uid.toNat ++
        " FLAGS (".toList ++ joinWith [' '] flags ++ "))".toList

def drainMailboxEvents (registry : MailboxRegistry) (session : ImapSession) :
    List Text × ImapSession :=
  match session.mailboxEventRx with
  | none => ([], session)
  | some receiver =>
      let caughtUp := (MailboxRegistry.channel registry receiver.mailboxId).length
      ((MailboxRegistry.pending registry receiver).map formatMailboxEvent,
        { session with mailboxEventRx := some { receiver with position := caughtUp } })

end ImapSession

end Rusmes
