import Rusmes.Library.Effect
import Rusmes.Queue.Priority

/-!
The mail queue of `queue/core.rs`: its entries, the interface of the store it saves
them to, and its operations. A moment is counted in nanoseconds since the Unix epoch;
an operation that reads the clock is given the reading. A store call that fails leaves
the operation at that point, with what was done before it done.
-/

namespace Rusmes

open WireText

structure QueueEntry where
  mail : Mail
  attempts : UInt32
  maxAttempts : UInt32
  nextRetry : Nat
  lastError : Option Text
  priority : Priority

namespace QueueEntry

def newWithPriority (mail : Mail) (priority : Priority) (now : Nat) : QueueEntry where
  mail := mail
  attempts := 0
  maxAttempts := 5
  nextRetry := now
  lastError := none
  priority := priority

def calculateNextRetry (entry : QueueEntry) (now : Nat) : QueueEntry :=
  let backoffSecs := 2 ^ min entry.attempts.toNat 10 * 60
  { entry with
    nextRetry := now + backoffSecs * 1000000000
    attempts := entry.attempts + 1 }

def shouldRetry (entry : QueueEntry) (now : Nat) : Bool :=
  entry.attempts < entry.maxAttempts && entry.nextRetry ≤ now

def isBounced (entry : QueueEntry) : Bool := entry.maxAttempts ≤ entry.attempts

def failed (entry : QueueEntry) (letters : CaseMapping) (config : PriorityConfig) (error : Text)
    (now : Nat) : QueueEntry :=
  let entry := calculateNextRetry { entry with lastError := some error } now
  let newPriority :=
    if config.inheritPriorityOnRetry then config.calculatePriority letters entry.mail entry.attempts
    else entry.priority
  { entry with priority := newPriority }

def reset (entry : QueueEntry) (now : Nat) : QueueEntry :=
  { entry with attempts := 0, nextRetry := now, lastError := none }

@[simp] theorem newWithPriority_mail (mail : Mail) (priority : Priority) (now : Nat) :
    (newWithPriority mail priority now).mail = mail := rfl

section Failed

variable (entry : QueueEntry) (letters : CaseMapping) (config : PriorityConfig) (error : Text)
  (now : Nat)

@[simp] theorem failed_mail : (entry.failed letters config error now).mail = entry.mail := rfl

@[simp] theorem failed_maxAttempts :
    (entry.failed letters config error now).maxAttempts = entry.maxAttempts := rfl

@[simp] theorem reset_mail : (entry.reset now).mail = entry.mail := rfl

def lastFailure : Bool := entry.maxAttempts ≤ entry.attempts + 1

@[simp] theorem failed_isBounced :
    (entry.failed letters config error now).isBounced = entry.lastFailure := rfl

end Failed

end QueueEntry

structure QueueStore (δ : Type) where
  saveEntry : QueueEntry → Effect Text δ Unit
  loadEntry : MailId → Effect Text δ (Option QueueEntry)
  removeEntry : MailId → Effect Text δ Unit
  loadAllEntries : Effect Text δ (List QueueEntry)
  saveToDlq : QueueEntry → Effect Text δ Unit
  listDlq : Effect Text δ (List QueueEntry)
  removeFromDlq : MailId → Effect Text δ Unit

structure MailQueue (δ : Type) where
  entries : Table MailId QueueEntry
  priorityConfig : PriorityConfig
  domainStats : Table Text UInt64
  disk : δ

namespace MailQueue

variable {δ : Type}

abbrev Program (δ Value : Type) := Effect Text (MailQueue δ) Value

def new (config : PriorityConfig) (disk : δ) : MailQueue δ := ⟨∅, config, ∅, disk⟩

def insertEntry (id : MailId) (entry : QueueEntry) : Program δ Unit :=
  Effect.modify fun queue => { queue with entries := queue.entries.insert id entry }

def removeEntry (id : MailId) : Program δ (Option QueueEntry) := fun queue =>
  (.ok (queue.entries.lookup id), { queue with entries := queue.entries.erase id })

theorem removeEntry_apply (id : MailId) (queue : MailQueue δ) :
    removeEntry id queue =
      (.ok (queue.entries.lookup id), { queue with entries := queue.entries.erase id }) := rfl

def failEntry (letters : CaseMapping) (id : MailId) (error : Text) (now : Nat) :
    Program δ (Bool × Option QueueEntry) := fun queue =>
  match queue.entries.lookup id with
  | none => (.ok (false, none), queue)
  | some entry =>
      let failed := entry.failed letters queue.priorityConfig error now
      (.ok (if failed.isBounced then (true, none) else (false, some failed)),
        { queue with entries := queue.entries.insert id failed })

section FailEntry

variable {queue : MailQueue δ} {id : MailId} (letters : CaseMapping) (error : Text) (now : Nat)

theorem failEntry_unknown (unknown : queue.entries.lookup id = none) :
    failEntry letters id error now queue = (.ok (false, none), queue) := by
  rw [failEntry, unknown]

theorem failEntry_again {entry : QueueEntry} (found : queue.entries.lookup id = some entry)
    (more : entry.lastFailure = false) :
    failEntry letters id error now queue =
      (.ok (false, some (entry.failed letters queue.priorityConfig error now)),
        { queue with
          entries := queue.entries.insert id (entry.failed letters queue.priorityConfig error now) }) := by
  rw [failEntry, found]
  simp [more]

theorem failEntry_last {entry : QueueEntry} (found : queue.entries.lookup id = some entry)
    (last : entry.lastFailure = true) :
    failEntry letters id error now queue =
      (.ok (true, none),
        { queue with
          entries := queue.entries.insert id (entry.failed letters queue.priorityConfig error now) }) := by
  rw [failEntry, found]
  simp [last]

end FailEntry

def countDomain (stats : Table Text UInt64) (recipient : MailAddress) : Table Text UInt64 :=
  stats.insert recipient.domain.asStr ((stats.lookup recipient.domain.asStr).getD 0 + 1)

def recordDomainStats (mail : Mail) : Program δ Unit :=
  Effect.modify fun queue =>
    { queue with domainStats := mail.recipients.foldl countDomain queue.domainStats }

/-! The operations. -/

section Operations

variable (store : Option (QueueStore δ))

def onStore (call : QueueStore δ → Effect Text δ Unit) : Program δ Unit :=
  match store with
  | some store => Effect.focus disk (fun queue disk => { queue with disk }) (call store)
  | none => pure ()

def listOf (call : QueueStore δ → Effect Text δ (List QueueEntry)) :
    Program δ (List QueueEntry) :=
  match store with
  | some store => Effect.focus disk (fun queue disk => { queue with disk }) (call store)
  | none => pure []

def loadFromStorage : Program δ Unit := do
  let loaded ← listOf store fun store => store.loadAllEntries
  Effect.modify fun queue =>
    { queue with
      entries := loaded.foldl (fun entries entry => entries.insert entry.mail.id entry) queue.entries }

def enqueueWithPriority (mail : Mail) (priority : Priority) (now : Nat) : Program δ Unit := do
  recordDomainStats mail
  let entry := QueueEntry.newWithPriority mail priority now
  onStore store fun store => store.saveEntry entry
  insertEntry mail.id entry

def enqueue (letters : CaseMapping) (mail : Mail) (now : Nat) : Program δ Unit := do
  let queue ← Effect.read
  enqueueWithPriority store mail (queue.priorityConfig.calculatePriority letters mail 0) now

def moveToDlq (id : MailId) : Program δ Unit := do
  match ← removeEntry id with
  | some entry =>
      -- without a store the entry is dropped here
      onStore store fun store => store.saveToDlq entry
      onStore store fun store => store.removeEntry id
  | none => return ()

def markFailed (letters : CaseMapping) (id : MailId) (error : Text) (now : Nat) :
    Program δ Unit := do
  let (shouldMoveToDlq, entryToSave) ← failEntry letters id error now
  match entryToSave with
  | some entry => onStore store fun store => store.saveEntry entry
  | none => pure ()
  if shouldMoveToDlq then moveToDlq store id

section MarkFailed

variable {store} {queue : MailQueue δ} {id : MailId} (letters : CaseMapping) (error : Text)
  (now : Nat)

theorem moveToDlq_found {entry : QueueEntry} (found : queue.entries.lookup id = some entry) :
    moveToDlq store id queue =
      (do
        onStore store fun store => store.saveToDlq entry
        onStore store fun store => store.removeEntry id)
      { queue with entries := queue.entries.erase id } := by
  rw [moveToDlq, Effect.bind_ok (removeEntry_apply id queue), found]

theorem markFailed_unknown (unknown : queue.entries.lookup id = none) :
    markFailed store letters id error now queue = (.ok (), queue) := by
  rw [markFailed, Effect.bind_ok (failEntry_unknown letters error now unknown)]
  rfl

theorem markFailed_again {entry : QueueEntry} (found : queue.entries.lookup id = some entry)
    (more : entry.lastFailure = false) :
    markFailed store letters id error now queue =
      onStore store (fun store =>
          store.saveEntry (entry.failed letters queue.priorityConfig error now))
        { queue with
          entries := queue.entries.insert id (entry.failed letters queue.priorityConfig error now) } := by
  rw [markFailed, Effect.bind_ok (failEntry_again letters error now found more)]
  exact congrFun (bind_pure _) _

theorem markFailed_last {entry : QueueEntry} (found : queue.entries.lookup id = some entry)
    (last : entry.lastFailure = true) :
    markFailed store letters id error now queue =
      (do
        onStore store fun store =>
          store.saveToDlq (entry.failed letters queue.priorityConfig error now)
        onStore store fun store => store.removeEntry id)
      { queue with
        entries := (queue.entries.insert id
          (entry.failed letters queue.priorityConfig error now)).erase id } := by
  rw [markFailed, Effect.bind_ok (failEntry_last letters error now found last)]
  exact moveToDlq_found (AList.lookup_insert _)

end MarkFailed

def markDelivered (id : MailId) : Program δ Unit := do
  onStore store fun store => store.removeEntry id
  let _ ← removeEntry id
  return ()

def getBounced (queue : MailQueue δ) : List QueueEntry :=
  (Table.values queue.entries).filter QueueEntry.isBounced

def listDlq : Program δ (List QueueEntry) := listOf store fun store => store.listDlq

def removeFromDlq (id : MailId) : Program δ Unit :=
  onStore store fun store => store.removeFromDlq id

def retryFromDlq (id : MailId) (now : Nat) : Program δ Unit := do
  let dlqEntries ← listDlq store
  match dlqEntries.find? fun entry => entry.mail.id = id with
  | some entry =>
      onStore store fun store => store.saveEntry (entry.reset now)
      insertEntry id (entry.reset now)
      onStore store fun store => store.removeFromDlq id
  | none => return ()

def remove (id : MailId) : Program δ (Option QueueEntry) := do
  onStore store fun store => store.removeEntry id
  removeEntry id

def updatePriorityConfig (config : PriorityConfig) : Program δ Unit :=
  Effect.modify fun queue => { queue with priorityConfig := config }

end Operations

end MailQueue

/-- The operations that change the queue, with the readings of the clock they make. -/
inductive QueueOp
  | loadFromStorage
  | enqueue (mail : Mail) (now : Nat)
  | enqueueWithPriority (mail : Mail) (priority : Priority) (now : Nat)
  | markFailed (id : MailId) (error : Text) (now : Nat)
  | markDelivered (id : MailId)
  | remove (id : MailId)
  | retryFromDlq (id : MailId) (now : Nat)
  | removeFromDlq (id : MailId)
  | updatePriorityConfig (config : PriorityConfig)

def QueueOp.run {δ : Type} (store : Option (QueueStore δ)) (letters : CaseMapping) :
    QueueOp → MailQueue.Program δ Unit
  | .loadFromStorage => MailQueue.loadFromStorage store
  | .enqueue mail now => MailQueue.enqueue store letters mail now
  | .enqueueWithPriority mail priority now => MailQueue.enqueueWithPriority store mail priority now
  | .markFailed id error now => MailQueue.markFailed store letters id error now
  | .markDelivered id => MailQueue.markDelivered store id
  | .remove id => do
      let _ ← MailQueue.remove store id
      return ()
  | .retryFromDlq id now => MailQueue.retryFromDlq store id now
  | .removeFromDlq id => MailQueue.removeFromDlq store id
  | .updatePriorityConfig config => MailQueue.updatePriorityConfig config

def QueueOp.enqueued : QueueOp → Option Mail
  | .enqueue mail _ | .enqueueWithPriority mail _ _ => some mail
  | _ => none

def QueueOp.released : QueueOp → Option MailId
  | .markDelivered id | .remove id | .removeFromDlq id => some id
  | _ => none

def QueueOp.failing : QueueOp → Option MailId
  | .markFailed id _ _ => some id
  | _ => none

end Rusmes
