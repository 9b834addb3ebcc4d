import Rusmes.Queue.MailQueue

/-!
The queue store over files: the metadata of an entry in a file named after its mail, and
the mail in the message store, which gives a mail back by the identifier it was appended
under. The reading side looks the mail up under an identifier it has just drawn, so no
entry is read back.
-/

namespace Rusmes

open WireText

structure QueueEntryData where
  mailId : MailId
  attempts : UInt32
  maxAttempts : UInt32
  nextRetry : Nat
  lastError : Option Text
  priority : Priority
  deriving DecidableEq, Repr

def QueueEntry.toData (entry : QueueEntry) : QueueEntryData where
  mailId := entry.mail.id
  attempts := entry.attempts
  maxAttempts := entry.maxAttempts
  nextRetry := entry.nextRetry
  lastError := entry.lastError
  priority := entry.priority

def QueueEntry.fromData (data : QueueEntryData) (mail : Mail) : QueueEntry where
  mail := mail
  attempts := data.attempts
  maxAttempts := data.maxAttempts
  nextRetry := data.nextRetry
  lastError := data.lastError
  priority := data.priority

/-- What the file of an entry gives back: the moment is kept in whole seconds. -/
def QueueEntryData.written (data : QueueEntryData) : QueueEntryData :=
  { data with nextRetry := data.nextRetry / 1000000000 * 1000000000 }

structure QueueEntry.Matches (old new : QueueEntry) : Prop where
  mail : new.mail = old.mail
  attempts : new.attempts = old.attempts
  maxAttempts : new.maxAttempts = old.maxAttempts
  lastError : new.lastError = old.lastError
  priority : new.priority = old.priority
  nextRetry : new.nextRetry / 1000000000 = old.nextRetry / 1000000000

/-- The two directories, the mails by the identifier they were appended under, and how
many identifiers have been drawn. -/
structure QueueFiles where
  queueDir : Table MailId QueueEntryData
  dlqDir : Table MailId QueueEntryData
  messages : Table MessageId Mail
  draws : Nat

namespace QueueFiles

variable (fresh : Nat → MessageId)

def getMessage (files : QueueFiles) : Option Mail × QueueFiles :=
  (files.messages.lookup (fresh files.draws), { files with draws := files.draws + 1 })

def join : List QueueEntryData → QueueFiles → List QueueEntry × QueueFiles
  | [], files => ([], files)
  | data :: rest, files =>
      match getMessage fresh files with
      | (some mail, files) =>
          let (entries, files) := join rest files
          (QueueEntry.fromData data mail :: entries, files)
      | (none, files) => join rest files

def appendMessage (mail : Mail) (files : QueueFiles) : QueueFiles :=
  { files with messages := files.messages.insert mail.messageId mail }

end QueueFiles

def filesystemQueueStore (fresh : Nat → MessageId) : QueueStore QueueFiles where
  saveEntry entry := Effect.modify fun files =>
    { files with queueDir := files.queueDir.insert entry.mail.id entry.toData.written }.appendMessage
      entry.mail
  loadEntry id files :=
    match files.queueDir.lookup id with
    | none => (.ok none, files)
    | some data =>
        let (mail, files) := files.getMessage fresh
        (.ok (mail.map (QueueEntry.fromData data)), files)
  removeEntry id := Effect.modify fun files => { files with queueDir := files.queueDir.erase id }
  loadAllEntries files :=
    let (entries, files) := QueueFiles.join fresh (Table.values files.queueDir) files
    (.ok entries, files)
  saveToDlq entry := Effect.modify fun files =>
    { files with dlqDir := files.dlqDir.insert entry.mail.id entry.toData.written }
  listDlq files :=
    let (entries, files) := QueueFiles.join fresh (Table.values files.dlqDir) files
    (.ok entries, files)
  removeFromDlq id := Effect.modify fun files => { files with dlqDir := files.dlqDir.erase id }

namespace QueueFiles

variable {fresh : Nat → MessageId}

def Unheard (fresh : Nat → MessageId) (messages : Table MessageId Mail) : Prop :=
  ∀ draw, messages.lookup (fresh draw) = none

theorem join_nothing {files : QueueFiles} (unheard : Unheard fresh files.messages)
    (data : List QueueEntryData) :
    join fresh data files = ([], { files with draws := files.draws + data.length }) := by
  induction data generalizing files with
  | nil => rfl
  | cons first rest ih =>
      have later := @ih { files with draws := files.draws + 1 } unheard
      rw [join, getMessage, unheard files.draws]
      dsimp only
      rw [later, List.length_cons, Nat.add_assoc, Nat.add_comm 1]

theorem unheard_append {mail : Mail} {messages : Table MessageId Mail}
    (unheard : Unheard fresh messages) (other : ∀ draw, fresh draw ≠ mail.messageId) :
    Unheard fresh (messages.insert mail.messageId mail) := by
  intro draw
  rw [AList.lookup_insert_ne (other draw)]
  exact unheard draw

end QueueFiles

structure Archive where
  queue : MailQueue QueueFiles
  buried : Table MailId QueueEntry

namespace Archive

variable (letters : CaseMapping) (fresh : Nat → MessageId)

def store : Option (QueueStore QueueFiles) := some (filesystemQueueStore fresh)

def start (config : PriorityConfig) (messages : Table MessageId Mail) : Archive :=
  ⟨.new config ⟨∅, ∅, messages, 0⟩, ∅⟩

/-- An entry is a dead letter from its last failure on, until it is removed or retried. -/
def rebury (queue : MailQueue QueueFiles) (buried : Table MailId QueueEntry) :
    QueueOp → Table MailId QueueEntry
  | .markFailed id error now =>
      match queue.entries.lookup id with
      | some entry =>
          if entry.lastFailure then
            buried.insert id (entry.failed letters queue.priorityConfig error now)
          else buried
      | none => buried
  | .removeFromDlq id => buried.erase id
  | .retryFromDlq id _ =>
      match (MailQueue.listDlq (store fresh) queue).1 with
      | .ok listed =>
          if listed.any fun entry => entry.mail.id = id then buried.erase id else buried
      | .error _ => buried
  | _ => buried

def step (archive : Archive) (op : QueueOp) : Archive :=
  ⟨(op.run (store fresh) letters archive.queue).2,
    rebury letters fresh archive.queue archive.buried op⟩

def restart (archive : Archive) : Except Text Unit × MailQueue QueueFiles :=
  MailQueue.loadFromStorage (store fresh) (.new archive.queue.priorityConfig archive.queue.disk)

def Restored (archive : Archive) : Prop :=
  (archive.restart fresh).1 = .ok () ∧
    ∀ id, Option.Rel QueueEntry.Matches (archive.queue.entries.lookup id)
      ((archive.restart fresh).2.entries.lookup id)

def Listed (archive : Archive) : Prop :=
  ∃ listed, (MailQueue.listDlq (store fresh) (archive.restart fresh).2).1 = .ok listed ∧
    ∃ order, order.Perm (Table.values archive.buried) ∧
      List.Forall₂ QueueEntry.Matches order listed

/-! Nothing is ever read back. -/

/-- The identifiers that are drawn belong to no mail appended so far and to none that
waits in memory. -/
structure Sealed (queue : MailQueue QueueFiles) : Prop where
  unheard : QueueFiles.Unheard fresh queue.disk.messages
  strangers : queue.entries.Every fun _ entry => ∀ draw, fresh draw ≠ entry.mail.messageId

section Sealed

variable {letters fresh} {queue : MailQueue QueueFiles}

theorem listed_nothing (unheard : QueueFiles.Unheard fresh queue.disk.messages)
    (call : QueueStore QueueFiles → Effect Text QueueFiles (List QueueEntry))
    {data : List QueueEntryData}
    (reads : call (filesystemQueueStore fresh) queue.disk =
      (.ok (QueueFiles.join fresh data queue.disk).1, (QueueFiles.join fresh data queue.disk).2)) :
    MailQueue.listOf (store fresh) call queue =
      (.ok [], { queue with disk := { queue.disk with draws := queue.disk.draws + data.length } }) := by
  change ((call (filesystemQueueStore fresh) queue.disk).1,
    { queue with disk := (call (filesystemQueueStore fresh) queue.disk).2 }) = _
  rw [reads, QueueFiles.join_nothing unheard]

theorem sealed_draws (closed : Sealed fresh queue) (draws : Nat) :
    Sealed fresh { queue with disk := { queue.disk with draws } } :=
  ⟨closed.unheard, closed.strangers⟩

theorem loaded_nothing (unheard : QueueFiles.Unheard fresh queue.disk.messages) :
    ∃ draws, MailQueue.loadFromStorage (store fresh) queue =
      (.ok (), { queue with disk := { queue.disk with draws } }) := by
  rw [MailQueue.loadFromStorage, Effect.bind_ok
    (listed_nothing unheard (fun store => store.loadAllEntries) rfl)]
  exact ⟨_, rfl⟩

theorem retried_nothing (unheard : QueueFiles.Unheard fresh queue.disk.messages) (id : MailId)
    (now : Nat) :
    ∃ draws, MailQueue.retryFromDlq (store fresh) id now queue =
      (.ok (), { queue with disk := { queue.disk with draws } }) := by
  rw [MailQueue.retryFromDlq, MailQueue.listDlq, Effect.bind_ok
    (listed_nothing unheard (fun store => store.listDlq) rfl)]
  exact ⟨_, rfl⟩

theorem sealed_put (closed : Sealed fresh queue) {mail : Mail}
    (stranger : ∀ draw, fresh draw ≠ mail.messageId) (priority : Priority) (now : Nat) :
    Sealed fresh (MailQueue.enqueueWithPriority (store fresh) mail priority now queue).2 :=
  ⟨QueueFiles.unheard_append closed.unheard stranger, closed.strangers.insert stranger⟩

theorem sealed_markFailed (closed : Sealed fresh queue) (id : MailId) (error : Text) (now : Nat) :
    Sealed fresh (MailQueue.markFailed (store fresh) letters id error now queue).2 := by
  cases found : queue.entries.lookup id with
  | none => rwa [MailQueue.markFailed_unknown letters error now found]
  | some entry =>
      have stranger := closed.strangers id entry found
      cases last : entry.lastFailure with
      | false =>
          rw [MailQueue.markFailed_again letters error now found last]
          exact ⟨QueueFiles.unheard_append closed.unheard stranger, closed.strangers.insert stranger⟩
      | true =>
          rw [MailQueue.markFailed_last letters error now found last]
          have inserted := @Table.Every.insert _ _ _ _ _ closed.strangers id
            (entry.failed letters queue.priorityConfig error now) stranger
          exact ⟨closed.unheard, inserted.erase id⟩

theorem sealed_step {op : QueueOp} (closed : Sealed fresh queue)
    (stranger : ∀ mail, op.enqueued = some mail → ∀ draw, fresh draw ≠ mail.messageId) :
    Sealed fresh (op.run (store fresh) letters queue).2 := by
  cases op with
  | loadFromStorage =>
      obtain ⟨draws, ran⟩ := loaded_nothing closed.unheard
      rw [QueueOp.run, ran]
      exact sealed_draws closed draws
  | enqueue mail now => exact sealed_put closed (stranger mail rfl) _ now
  | enqueueWithPriority mail priority now => exact sealed_put closed (stranger mail rfl) priority now
  | markFailed id error now => exact sealed_markFailed closed id error now
  | markDelivered id => exact ⟨closed.unheard, closed.strangers.erase id⟩
  | remove id => exact ⟨closed.unheard, closed.strangers.erase id⟩
  | retryFromDlq id now =>
      obtain ⟨draws, ran⟩ := retried_nothing closed.unheard id now
      rw [QueueOp.run, ran]
      exact sealed_draws closed draws
  | removeFromDlq id => exact ⟨closed.unheard, closed.strangers⟩
  | updatePriorityConfig config => exact ⟨closed.unheard, closed.strangers⟩

theorem sealed_run {archive : Archive} (closed : Sealed fresh archive.queue) {ops : List QueueOp}
    (strangers : ∀ op ∈ ops, ∀ mail, op.enqueued = some mail →
      ∀ draw, fresh draw ≠ mail.messageId) :
    Sealed fresh (ops.foldl (step letters fresh) archive).queue := by
  induction ops generalizing archive with
  | nil => exact closed
  | cons op ops ih =>
      exact ih (sealed_step closed (strangers op List.mem_cons_self))
        fun other member => strangers other (List.mem_cons_of_mem op member)

theorem restored_iff_empty {archive : Archive} (closed : Sealed fresh archive.queue) :
    archive.Restored fresh ↔ ∀ id, archive.queue.entries.lookup id = none := by
  obtain ⟨draws, ran⟩ := @loaded_nothing fresh (.new archive.queue.priorityConfig archive.queue.disk)
    closed.unheard
  rw [Restored, restart, ran]
  constructor
  · rintro ⟨_, matching⟩ id
    have related := matching id
    cases found : archive.queue.entries.lookup id with
    | none => rfl
    | some entry =>
        rw [found] at related
        cases related
  · intro empty
    refine ⟨rfl, fun id => ?_⟩
    rw [empty id]
    exact Option.Rel.none

theorem values_eq_nil_iff {table : Table MailId QueueEntry} :
    Table.values table = [] ↔ ∀ id, table.lookup id = none := by
  rw [List.eq_nil_iff_forall_not_mem]
  constructor
  · intro none id
    cases found : table.lookup id with
    | none => rfl
    | some entry => exact absurd (Table.mem_values.mpr ⟨id, found⟩) (none entry)
  · intro empty entry member
    obtain ⟨id, found⟩ := Table.mem_values.mp member
    rw [empty id] at found
    cases found

theorem listed_iff_empty {archive : Archive} (closed : Sealed fresh archive.queue) :
    archive.Listed fresh ↔ ∀ id, archive.buried.lookup id = none := by
  obtain ⟨draws, ran⟩ := @loaded_nothing fresh (.new archive.queue.priorityConfig archive.queue.disk)
    closed.unheard
  have nothing := @listed_nothing fresh
    { MailQueue.new archive.queue.priorityConfig archive.queue.disk with
      disk := { archive.queue.disk with draws } } closed.unheard (fun store => store.listDlq) _ rfl
  have read : (MailQueue.listDlq (store fresh) (archive.restart fresh).2).1 = .ok [] := by
    rw [restart, ran]
    exact congrArg Prod.fst nothing
  rw [Listed, read, ← values_eq_nil_iff]
  constructor
  · rintro ⟨listed, same, order, perm, matching⟩
    cases same
    rw [List.forall₂_nil_right_iff] at matching
    rw [matching] at perm
    exact List.nil_perm.mp perm
  · intro empty
    exact ⟨[], rfl, [], by rw [empty], .nil⟩

/-- A fresh queue over the same files is what the old one was exactly when nothing was
pending and nothing in the dead letter queue. -/
theorem durable_iff (letters : CaseMapping) (config : PriorityConfig)
    {messages : Table MessageId Mail} (unheard : QueueFiles.Unheard fresh messages)
    {ops : List QueueOp} (strangers : ∀ op ∈ ops, ∀ mail, op.enqueued = some mail →
      ∀ draw, fresh draw ≠ mail.messageId) :
    (ops.foldl (step letters fresh) (start config messages)).Restored fresh ∧
        (ops.foldl (step letters fresh) (start config messages)).Listed fresh ↔
      (∀ id, (ops.foldl (step letters fresh) (start config messages)).queue.entries.lookup id = none) ∧
        ∀ id, (ops.foldl (step letters fresh) (start config messages)).buried.lookup id = none := by
  have closed := @sealed_run letters fresh (start config messages) ⟨unheard, Table.every_empty⟩ ops
    strangers
  rw [restored_iff_empty closed, listed_iff_empty closed]

end Sealed

end Archive

def oddId (draw : Nat) : MessageId := ⟨BitVec.ofNat 128 (2 * draw + 1)⟩

theorem oddId_ne_zero (draw : Nat) : oddId draw ≠ ⟨0⟩ := by
  intro same
  have value := congrArg (fun id => id.uuid.toNat) same
  change (2 * draw + 1) % 2 ^ 128 = 0 at value
  omega

def archivedNote (ops : List QueueOp) : Archive :=
  (.enqueueWithPriority (noteFromAlice []) .normal 0 :: ops).foldl (Archive.step asciiCase oddId)
    (.start .default ∅)

theorem delivered_restored :
    (archivedNote [.markDelivered ⟨0⟩]).Restored oddId ∧
      (archivedNote [.markDelivered ⟨0⟩]).Listed oddId := by
  refine (Archive.durable_iff asciiCase .default (fun _ => rfl) ?_).mpr ⟨fun id => ?_, fun _ => rfl⟩
  · intro op member mail enqueued draw
    rcases List.mem_cons.mp member with rfl | other
    · cases enqueued
      exact oddId_ne_zero draw
    · rw [List.mem_singleton.mp other] at enqueued
      cases enqueued
  · exact (Table.lookup_erase_insert _ _ ∅ id).trans rfl

/-- A queue that holds one mail is empty after a restart. -/
theorem waiting_not_restored : ¬(archivedNote []).Restored oddId := by
  have closed : Archive.Sealed oddId (archivedNote []).queue :=
    Archive.sealed_put ⟨fun _ => rfl, Table.every_empty⟩ oddId_ne_zero .normal 0
  rw [Archive.restored_iff_empty closed]
  intro empty
  cases empty ⟨0⟩

end Rusmes
