import Rusmes.Queue.Maps

/-!
What the queue is for, as a ledger of two finite maps: the mails that wait and the
dead letters. Over a store whose calls work, the entries in memory and the store's
queue are both the waiting mails after every operation.
-/

namespace Rusmes

open WireText

structure Ledger where
  pending : Table MailId QueueEntry
  dead : Table MailId QueueEntry
  config : PriorityConfig

namespace Ledger

def put (ledger : Ledger) (mail : Mail) (priority : Priority) (now : Nat) : Ledger :=
  { ledger with
    pending := ledger.pending.insert mail.id (.newWithPriority mail priority now) }

def step (letters : CaseMapping) (ledger : Ledger) : QueueOp → Ledger
  | .loadFromStorage => ledger
  | .enqueue mail now => ledger.put mail (ledger.config.calculatePriority letters mail 0) now
  | .enqueueWithPriority mail priority now => ledger.put mail priority now
  | .markFailed id error now =>
      match ledger.pending.lookup id with
      | none => ledger
      | some entry =>
          let failed := entry.failed letters ledger.config error now
          if entry.lastFailure then
            { ledger with
              pending := ledger.pending.erase id
              dead := ledger.dead.insert id failed }
          else { ledger with pending := ledger.pending.insert id failed }
  | .markDelivered id | .remove id => { ledger with pending := ledger.pending.erase id }
  | .retryFromDlq id now =>
      match ledger.dead.lookup id with
      | none => ledger
      | some entry =>
          { ledger with
            pending := ledger.pending.insert id (entry.reset now)
            dead := ledger.dead.erase id }
  | .removeFromDlq id => { ledger with dead := ledger.dead.erase id }
  | .updatePriorityConfig config => { ledger with config }

def Waits (id : MailId) (entry : QueueEntry) : Prop :=
  entry.mail.id = id ∧ entry.attempts < entry.maxAttempts

def Rests (id : MailId) (entry : QueueEntry) : Prop :=
  entry.mail.id = id ∧ 0 < entry.maxAttempts

structure Sound (ledger : Ledger) : Prop where
  pending : Table.Every Waits ledger.pending
  dead : Table.Every Rests ledger.dead

theorem sound_new (config : PriorityConfig) : Sound ⟨∅, ∅, config⟩ :=
  ⟨Table.every_empty, Table.every_empty⟩

theorem Sound.put {ledger : Ledger} (sound : ledger.Sound) (mail : Mail) (priority : Priority)
    (now : Nat) : (ledger.put mail priority now).Sound :=
  ⟨sound.pending.insert ⟨rfl, (by decide : (0 : UInt32) < 5)⟩, sound.dead⟩

section Steps

variable {letters : CaseMapping} {ledger : Ledger} {id : MailId} {entry : QueueEntry}

theorem step_again {error : Text} {now : Nat} (found : ledger.pending.lookup id = some entry)
    (more : entry.lastFailure = false) :
    ledger.step letters (.markFailed id error now) =
      { ledger with
        pending := ledger.pending.insert id (entry.failed letters ledger.config error now) } := by
  simp [step, found, more]

theorem step_last {error : Text} {now : Nat} (found : ledger.pending.lookup id = some entry)
    (last : entry.lastFailure = true) :
    ledger.step letters (.markFailed id error now) =
      { ledger with
        pending := ledger.pending.erase id
        dead := ledger.dead.insert id (entry.failed letters ledger.config error now) } := by
  simp [step, found, last]

end Steps

end Ledger

/-- Memory and the store's queue hold the mails that wait, and the store's dead letter
queue the dead letters. -/
structure Mirrors (queue : MailQueue QueueMaps) (ledger : Ledger) : Prop where
  reliable : queue.disk.outcomes = []
  memory : ∀ id, queue.entries.lookup id = ledger.pending.lookup id
  stored : ∀ id, queue.disk.queue.lookup id = ledger.pending.lookup id
  dead : ∀ id, queue.disk.dlq.lookup id = ledger.dead.lookup id
  config : queue.priorityConfig = ledger.config

section Mirrors

variable {entries main dlq : Table MailId QueueEntry} {config : PriorityConfig}
  {stats : Table Text UInt64} {ledger : Ledger} (letters : CaseMapping)

end Mirrors

/-! Runs, with the failures of each mail since it was enqueued or retried. -/

structure Monitored where
  queue : MailQueue QueueMaps
  failures : MailId → Nat

namespace Monitored

def start (config : PriorityConfig) : Monitored := ⟨.new config ⟨∅, ∅, []⟩, fun _ => 0⟩

def recount (queue : MailQueue QueueMaps) (failures : MailId → Nat) : QueueOp → MailId → Nat
  | .enqueue mail _ | .enqueueWithPriority mail _ _ => Function.update failures mail.id 0
  | .markFailed id _ _ =>
      if (queue.entries.lookup id).isSome then Function.update failures id (failures id + 1)
      else failures
  | .retryFromDlq id _ =>
      if (queue.disk.dlq.lookup id).isSome then Function.update failures id 0 else failures
  | _ => failures

def step (letters : CaseMapping) (monitored : Monitored) (op : QueueOp) : Monitored :=
  ⟨(op.run (some mapStore) letters monitored.queue).2,
    recount monitored.queue monitored.failures op⟩

end Monitored

section Counts

variable {failures : MailId → Nat} {table : Table MailId QueueEntry}

end Counts

section Runs

variable {letters : CaseMapping} {ledger : Ledger} {queue : MailQueue QueueMaps}
  {failures : MailId → Nat}

theorem attempts_succ {entry : QueueEntry} (left : entry.attempts < entry.maxAttempts) :
    (entry.attempts + 1).toNat = entry.attempts.toNat + 1 := by
  have below := UInt32.lt_iff_toNat_lt.mp left
  have small := entry.maxAttempts.toNat_lt
  rw [UInt32.toNat_add]
  change (entry.attempts.toNat + 1) % 2 ^ 32 = entry.attempts.toNat + 1
  omega

end Runs

end Rusmes
