import Rusmes.Library.Machine
import Rusmes.Queue.Maps

/-!
Which accepted mails the queue still has. Every store call may fail, before or after its
change, and there may be no store at all. Only the last failure of a mail can lose it:
without a store the entry is dropped, and with one it has left memory when the call that
saves it to the dead letter queue fails.
-/

namespace Rusmes

open WireText

structure Attempt where
  op : QueueOp
  outcomes : List StoreOutcome

/-- The queue and the mails it answers for: those whose enqueue returned `Ok` and that
nobody has reported delivered or removed since. -/
structure Custody where
  queue : MailQueue QueueMaps
  accepted : List MailId

namespace Custody

variable (persistent : Bool) (letters : CaseMapping)

def store : Option (QueueStore QueueMaps) := if persistent then some mapStore else none

def expecting (queue : MailQueue QueueMaps) (outcomes : List StoreOutcome) : MailQueue QueueMaps :=
  { queue with disk := { queue.disk with outcomes } }

def start (config : PriorityConfig) (maps : QueueMaps) : Custody := ⟨.new config maps, []⟩

def answersFor (accepted : List MailId) (op : QueueOp) (succeeded : Bool) : List MailId :=
  match op.enqueued with
  | some mail => if succeeded then mail.id :: accepted else accepted
  | none => accepted.filter fun id => op.released ≠ some id

def step (custody : Custody) (attempt : Attempt) : Custody :=
  let ran := attempt.op.run (store persistent) letters (expecting custody.queue attempt.outcomes)
  ⟨ran.2, answersFor custody.accepted attempt.op ran.1.isOk⟩

def Present (id : MailId) (queue : MailQueue QueueMaps) : Prop :=
  (queue.entries.lookup id).isSome ∨ persistent = true ∧ (queue.disk.dlq.lookup id).isSome

def Kept (custody : Custody) : Prop := ∀ id ∈ custody.accepted, Present persistent id custody.queue

/-- Not the last failure of a mail answered for, or there is a store whose dead letter
queue has the mail before or after the call that saves it there. -/
def Harmless (custody : Custody) (attempt : Attempt) : Prop :=
  match attempt.op with
  | .markFailed id _ _ =>
      id ∈ custody.accepted → ∀ entry, custody.queue.entries.lookup id = some entry →
        entry.lastFailure = true → persistent = true ∧
          ((attempt.outcomes.head?.getD .works).writes = true ∨
            (custody.queue.disk.dlq.lookup id).isSome)
  | _ => True

/-! What the parts of an operation keep. -/

section Parts

variable {persistent} {id : MailId} {Value : Type}

theorem isSome_insert {table : Table MailId QueueEntry} (held : (table.lookup id).isSome)
    (other : MailId) (entry : QueueEntry) : ((table.insert other entry).lookup id).isSome := by
  by_cases here : id = other
  · rw [here, AList.lookup_insert]
    rfl
  · rwa [AList.lookup_insert_ne here]

theorem keeps_write {change : QueueMaps → QueueMaps}
    (kept : ∀ maps, (maps.dlq.lookup id).isSome → ((change maps).dlq.lookup id).isSome) :
    Effect.Keeps (fun maps => ((maps.dlq.lookup id).isSome : Prop)) (QueueMaps.write change) := by
  intro maps held
  rw [QueueMaps.write_apply]
  split
  · exact kept maps.rest held
  · exact held

theorem keeps_onStore {call : QueueStore QueueMaps → Effect Text QueueMaps Unit}
    (kept : Effect.Keeps (fun maps => ((maps.dlq.lookup id).isSome : Prop)) (call mapStore)) :
    Effect.Keeps (Present persistent id) (MailQueue.onStore (store persistent) call) := by
  cases persistent with
  | false => exact Effect.keeps_pure ()
  | true =>
      intro queue present
      rcases present with memory | ⟨_, dead⟩
      · exact Or.inl memory
      · exact Or.inr ⟨rfl, kept queue.disk dead⟩

theorem keeps_saveEntry (entry : QueueEntry) :
    Effect.Keeps (Present persistent id)
      (MailQueue.onStore (store persistent) fun store => store.saveEntry entry) :=
  keeps_onStore (keeps_write fun _ held => held)

theorem keeps_removeStored (other : MailId) :
    Effect.Keeps (Present persistent id)
      (MailQueue.onStore (store persistent) fun store => store.removeEntry other) :=
  keeps_onStore (keeps_write fun _ held => held)

theorem onStore_entries {call : QueueStore QueueMaps → Effect Text QueueMaps Unit}
    (queue : MailQueue QueueMaps) :
    (MailQueue.onStore (store persistent) call queue).2.entries = queue.entries := by
  cases persistent with
  | false => rfl
  | true => rfl

theorem keeps_listOf {call : QueueStore QueueMaps → Effect Text QueueMaps (List QueueEntry)}
    (reads : ∃ answer, call mapStore = QueueMaps.read answer) :
    Effect.Keeps (Present persistent id) (MailQueue.listOf (store persistent) call) := by
  cases persistent with
  | false => exact Effect.keeps_pure []
  | true =>
      obtain ⟨answer, reads⟩ := reads
      intro queue present
      have same : (call mapStore queue.disk).2.dlq = queue.disk.dlq := by
        rw [reads, QueueMaps.read_state, QueueMaps.rest]
      rcases present with memory | ⟨_, dead⟩
      · exact Or.inl memory
      · rw [← same] at dead
        exact Or.inr ⟨rfl, dead⟩

theorem keeps_insertEntry (other : MailId) (entry : QueueEntry) :
    Effect.Keeps (Present persistent id) (MailQueue.insertEntry other entry) := by
  rintro queue (memory | dead)
  · exact Or.inl (isSome_insert memory other entry)
  · exact Or.inr dead

theorem keeps_removeEntry {other : MailId} (different : id ≠ other) :
    Effect.Keeps (Present persistent id) (MailQueue.removeEntry other) := by
  rintro queue (memory | dead)
  · refine Or.inl ?_
    rw [MailQueue.removeEntry_apply]
    rwa [AList.lookup_erase_ne different]
  · exact Or.inr dead

theorem keeps_enqueue (mail : Mail) (priority : Priority) (now : Nat) :
    Effect.Keeps (Present persistent id)
      (MailQueue.enqueueWithPriority (store persistent) mail priority now) :=
  Effect.keeps_bind (Effect.keeps_modify fun _ present => present) fun _ =>
    Effect.keeps_bind (keeps_saveEntry _) fun _ => keeps_insertEntry mail.id _

theorem keeps_load : Effect.Keeps (Present persistent id)
    (MailQueue.loadFromStorage (store persistent)) := by
  refine Effect.keeps_bind (keeps_listOf ⟨fun maps => Table.values maps.queue, rfl⟩) fun loaded => Effect.keeps_modify ?_
  rintro queue (memory | dead)
  · refine Or.inl ?_
    dsimp only
    induction loaded generalizing queue with
    | nil => exact memory
    | cons entry loaded ih =>
        exact ih { queue with entries := queue.entries.insert entry.mail.id entry }
          (isSome_insert memory entry.mail.id entry)
  · exact Or.inr dead

theorem keeps_retry (other : MailId) (now : Nat) :
    Effect.Keeps (Present persistent id) (MailQueue.retryFromDlq (store persistent) other now) := by
  refine Effect.keeps_bind (keeps_listOf ⟨fun maps => Table.values maps.dlq, rfl⟩) fun listed => ?_
  cases listed.find? fun entry => entry.mail.id = other with
  | none => exact Effect.keeps_pure ()
  | some entry =>
      refine Effect.keeps_bind (keeps_saveEntry (entry.reset now)) fun _ => ?_
      intro queue present
      change Present persistent id (MailQueue.onStore (store persistent)
        (fun store => store.removeFromDlq other)
        { queue with entries := queue.entries.insert other (entry.reset now) }).2
      by_cases here : id = other
      · refine Or.inl ?_
        rw [onStore_entries, here, AList.lookup_insert]
        rfl
      · refine keeps_onStore (keeps_write fun maps held => ?_) _
          (keeps_insertEntry other (entry.reset now) queue present)
        rwa [AList.lookup_erase_ne here]

theorem keeps_clear {other : MailId} (different : id ≠ other) :
    Effect.Keeps (Present persistent id)
      (do
        MailQueue.onStore (store persistent) fun store => store.removeEntry other
        MailQueue.removeEntry other) :=
  Effect.keeps_bind (keeps_removeStored other) fun _ => keeps_removeEntry different

theorem removeStored (queue : MailQueue QueueMaps) :
    (MailQueue.onStore (some mapStore) (fun store => store.removeEntry id) queue).2.entries =
        queue.entries ∧
      (MailQueue.onStore (some mapStore) (fun store => store.removeEntry id) queue).2.disk.dlq =
        queue.disk.dlq := by
  refine ⟨rfl, ?_⟩
  change (QueueMaps.write _ queue.disk).2.dlq = queue.disk.dlq
  rw [QueueMaps.write_apply]
  split
  · rfl
  · rfl

theorem bury_state (queue : MailQueue QueueMaps) (entry : QueueEntry) :
    let buried := ((do
      MailQueue.onStore (some mapStore) fun store => store.saveToDlq entry
      MailQueue.onStore (some mapStore) fun store => store.removeEntry id) queue).2
    buried.entries = queue.entries ∧
      buried.disk.dlq = if queue.disk.nextOutcome.writes then
        queue.disk.dlq.insert entry.mail.id entry else queue.disk.dlq := by
  have first : MailQueue.onStore (some mapStore) (fun store => store.saveToDlq entry) queue =
      (QueueMaps.outcomeResult queue.disk.nextOutcome,
        { queue with
          disk := if queue.disk.nextOutcome.writes then
            { queue.disk.rest with dlq := queue.disk.dlq.insert entry.mail.id entry }
          else queue.disk.rest }) := by
    change (let ran := QueueMaps.write _ queue.disk; (ran.1, { queue with disk := ran.2 })) = _
    rw [QueueMaps.write_apply]
    rfl
  cases outcome : queue.disk.nextOutcome with
  | works =>
      rw [outcome] at first
      rw [Effect.bind_ok first]
      exact removeStored _
  | refused =>
      rw [outcome] at first
      rw [Effect.bind_error first]
      exact ⟨rfl, rfl⟩
  | lost =>
      rw [outcome] at first
      rw [Effect.bind_error first]
      exact ⟨rfl, rfl⟩

theorem bury_present {queue : MailQueue QueueMaps} {entry : QueueEntry}
    (named : entry.mail.id = id) (gone : queue.entries.lookup id = none) :
    Present persistent id
        ((do
          MailQueue.onStore (store persistent) fun store => store.saveToDlq entry
          MailQueue.onStore (store persistent) fun store => store.removeEntry id) queue).2 ↔
      persistent = true ∧
        (queue.disk.nextOutcome.writes = true ∨ (queue.disk.dlq.lookup id).isSome) := by
  cases persistent with
  | false =>
      refine iff_of_false ?_ (by simp)
      rintro (memory | dead)
      · have still : (queue.entries.lookup id).isSome := memory
        rw [gone] at still
        cases still
      · cases dead.1
  | true =>
      obtain ⟨entries, dlq⟩ := @bury_state id queue entry
      rw [Present, store, if_pos rfl, entries, gone, dlq]
      cases queue.disk.nextOutcome.writes with
      | true => simp [named]
      | false => simp

theorem keeps_bury (other : MailId) (entry : QueueEntry) :
    Effect.Keeps (Present persistent id)
      (do
        MailQueue.onStore (store persistent) fun store => store.saveToDlq entry
        MailQueue.onStore (store persistent) fun store => store.removeEntry other) :=
  Effect.keeps_bind (keeps_onStore (keeps_write fun _ held => isSome_insert held _ _)) fun _ =>
    keeps_removeStored other

theorem keeps_markFailed {other : MailId} (different : id ≠ other) (error : Text) (now : Nat) :
    Effect.Keeps (Present persistent id)
      (MailQueue.markFailed (store persistent) letters other error now) := by
  intro queue present
  cases found : queue.entries.lookup other with
  | none => rwa [MailQueue.markFailed_unknown letters error now found]
  | some entry =>
      have inserted := keeps_insertEntry other
        (entry.failed letters queue.priorityConfig error now) queue present
      cases last : entry.lastFailure with
      | false =>
          rw [MailQueue.markFailed_again letters error now found last]
          exact keeps_saveEntry _ _ inserted
      | true =>
          rw [MailQueue.markFailed_last letters error now found last]
          exact keeps_bury other _ _ (keeps_removeEntry different _ inserted)

end Parts

section Operations

variable {persistent letters} {id : MailId}

theorem run_keeps {op : QueueOp} (notReleased : op.released ≠ some id)
    (notFailing : op.failing ≠ some id) :
    Effect.Keeps (Present persistent id) (op.run (store persistent) letters) := by
  cases op with
  | loadFromStorage => exact keeps_load
  | enqueue mail now => exact Effect.keeps_read_bind fun queue => keeps_enqueue mail _ now
  | enqueueWithPriority mail priority now => exact keeps_enqueue mail priority now
  | markFailed other error now =>
      have different : id ≠ other := fun same => notFailing (congrArg some same.symm)
      exact keeps_markFailed letters different error now
  | markDelivered other =>
      have different : id ≠ other := fun same => notReleased (congrArg some same.symm)
      exact Effect.keeps_bind (keeps_removeStored other) fun _ =>
        Effect.keeps_bind (keeps_removeEntry different) fun _ => Effect.keeps_pure ()
  | remove other =>
      have different : id ≠ other := fun same => notReleased (congrArg some same.symm)
      exact Effect.keeps_bind (keeps_clear different) fun _ => Effect.keeps_pure ()
  | retryFromDlq other now => exact keeps_retry other now
  | removeFromDlq other =>
      have different : id ≠ other := fun same => notReleased (congrArg some same.symm)
      refine keeps_onStore (keeps_write fun maps held => ?_)
      rwa [AList.lookup_erase_ne different]
  | updatePriorityConfig config => exact Effect.keeps_modify fun _ present => present

theorem markFailed_present {queue : MailQueue QueueMaps}
    (named : ∀ entry, queue.entries.lookup id = some entry → entry.mail.id = id)
    (present : Present persistent id queue) (error : Text) (now : Nat) :
    Present persistent id (MailQueue.markFailed (store persistent) letters id error now queue).2 ↔
      ∀ entry, queue.entries.lookup id = some entry → entry.lastFailure = true →
        persistent = true ∧
          (queue.disk.nextOutcome.writes = true ∨ (queue.disk.dlq.lookup id).isSome) := by
  cases found : queue.entries.lookup id with
  | none =>
      rw [MailQueue.markFailed_unknown letters error now found]
      exact iff_of_true present fun entry same => by cases same
  | some entry =>
      cases last : entry.lastFailure with
      | false =>
          rw [MailQueue.markFailed_again letters error now found last]
          refine iff_of_true ?_ fun other same lastly => ?_
          · exact keeps_saveEntry _ _
              (keeps_insertEntry id (entry.failed letters queue.priorityConfig error now) queue present)
          · rw [← Option.some.inj same, last] at lastly
            cases lastly
      | true =>
          rw [MailQueue.markFailed_last letters error now found last]
          let failed := entry.failed letters queue.priorityConfig error now
          have forgotten : ((queue.entries.insert id failed).erase id).lookup id = none :=
            AList.lookup_erase _ _
          refine (@bury_present persistent id
            { queue with entries := (queue.entries.insert id failed).erase id } failed
            (named entry found) forgotten).trans ⟨fun kept _ _ _ => kept, fun decided => ?_⟩
          exact decided entry rfl last

theorem enqueue_present {mail : Mail} {priority : Priority} {now : Nat}
    {queue : MailQueue QueueMaps}
    (succeeded : (MailQueue.enqueueWithPriority (store persistent) mail priority now queue).1.isOk) :
    Present persistent mail.id
      (MailQueue.enqueueWithPriority (store persistent) mail priority now queue).2 := by
  rw [MailQueue.enqueueWithPriority, MailQueue.recordDomainStats, Effect.modify_bind] at succeeded ⊢
  rcases saved : MailQueue.onStore (store persistent)
    (fun store => store.saveEntry (.newWithPriority mail priority now))
    { queue with domainStats := mail.recipients.foldl MailQueue.countDomain queue.domainStats }
    with ⟨outcome, after⟩
  cases outcome with
  | ok done =>
      rw [Effect.bind_ok saved]
      refine Or.inl ?_
      rw [MailQueue.insertEntry, Effect.modify_apply, AList.lookup_insert]
      rfl
  | error reason =>
      rw [Effect.bind_error saved] at succeeded
      cases succeeded

theorem run_present {op : QueueOp} {mail : Mail} (enqueued : op.enqueued = some mail)
    {queue : MailQueue QueueMaps} (succeeded : (op.run (store persistent) letters queue).1.isOk) :
    Present persistent mail.id (op.run (store persistent) letters queue).2 := by
  cases op with
  | enqueue other now =>
      cases enqueued
      exact enqueue_present succeeded
  | enqueueWithPriority other priority now =>
      cases enqueued
      exact enqueue_present succeeded
  | _ => cases enqueued

end Operations

def Named (queue : MailQueue QueueMaps) : Prop :=
  queue.entries.Every fun id entry => entry.mail.id = id

section Named

variable {persistent}

theorem named_onStore (call : QueueStore QueueMaps → Effect Text QueueMaps Unit) :
    Effect.Keeps Named (MailQueue.onStore (store persistent) call) := by
  intro queue named
  rw [Named, onStore_entries]
  exact named

theorem named_listOf (call : QueueStore QueueMaps → Effect Text QueueMaps (List QueueEntry)) :
    Effect.Keeps Named (MailQueue.listOf (store persistent) call) := by
  intro queue named
  cases persistent with
  | false => exact named
  | true => exact named

theorem named_insertEntry (entry : QueueEntry) :
    Effect.Keeps Named (MailQueue.insertEntry entry.mail.id entry) :=
  fun _ named => named.insert rfl

theorem named_removeEntry (id : MailId) : Effect.Keeps Named (MailQueue.removeEntry id) :=
  fun _ named => named.erase id

theorem named_enqueue (mail : Mail) (priority : Priority) (now : Nat) :
    Effect.Keeps Named (MailQueue.enqueueWithPriority (store persistent) mail priority now) :=
  Effect.keeps_bind (Effect.keeps_modify fun _ named => named) fun _ =>
    Effect.keeps_bind (named_onStore _) fun _ =>
      named_insertEntry (.newWithPriority mail priority now)

theorem named_markFailed (id : MailId) (error : Text) (now : Nat) :
    Effect.Keeps Named (MailQueue.markFailed (store persistent) letters id error now) := by
  intro queue named
  cases found : queue.entries.lookup id with
  | none => rwa [MailQueue.markFailed_unknown letters error now found]
  | some entry =>
      have inserted : Named { queue with
          entries := queue.entries.insert id
            (entry.failed letters queue.priorityConfig error now) } :=
        named.insert (named id entry found)
      cases last : entry.lastFailure with
      | false =>
          rw [MailQueue.markFailed_again letters error now found last]
          exact named_onStore _ _ inserted
      | true =>
          rw [MailQueue.markFailed_last letters error now found last]
          exact Effect.keeps_bind (named_onStore _) (fun _ => named_onStore _) _ (inserted.erase id)

theorem named_retry (id : MailId) (now : Nat) :
    Effect.Keeps Named (MailQueue.retryFromDlq (store persistent) id now) := by
  refine Effect.keeps_bind (named_listOf _) fun listed => ?_
  cases found : listed.find? fun entry => entry.mail.id = id with
  | none => exact Effect.keeps_pure ()
  | some entry =>
      have right := List.find?_some found
      simp only [decide_eq_true_eq] at right
      subst right
      exact Effect.keeps_bind (named_onStore _) fun _ =>
        Effect.keeps_bind (named_insertEntry (entry.reset now)) fun _ => named_onStore _

theorem named_load : Effect.Keeps Named (MailQueue.loadFromStorage (store persistent)) := by
  refine Effect.keeps_bind (named_listOf _) fun loaded => Effect.keeps_modify fun queue named => ?_
  induction loaded generalizing queue with
  | nil => exact named
  | cons entry loaded ih =>
      exact ih { queue with entries := queue.entries.insert entry.mail.id entry } (named.insert rfl)

theorem run_named (op : QueueOp) : Effect.Keeps Named (op.run (store persistent) letters) := by
  cases op with
  | loadFromStorage => exact named_load
  | enqueue mail now => exact Effect.keeps_read_bind fun queue => named_enqueue mail _ now
  | enqueueWithPriority mail priority now => exact named_enqueue mail priority now
  | markFailed id error now => exact named_markFailed letters id error now
  | markDelivered id =>
      exact Effect.keeps_bind (named_onStore _) fun _ =>
        Effect.keeps_bind (named_removeEntry id) fun _ => Effect.keeps_pure ()
  | remove id =>
      exact Effect.keeps_bind
        (Effect.keeps_bind (named_onStore _) fun _ => named_removeEntry id) fun _ =>
          Effect.keeps_pure ()
  | retryFromDlq id now => exact named_retry id now
  | removeFromDlq id => exact named_onStore _
  | updatePriorityConfig config => exact Effect.keeps_modify fun _ named => named

end Named

section Runs

variable {persistent letters}

theorem mem_answersFor {accepted : List MailId} {op : QueueOp} {succeeded : Bool} {id : MailId}
    (member : id ∈ answersFor accepted op succeeded) :
    (id ∈ accepted ∧ op.released ≠ some id) ∨
      ∃ mail, op.enqueued = some mail ∧ succeeded = true ∧ id = mail.id := by
  rw [answersFor] at member
  cases enqueued : op.enqueued with
  | none =>
      rw [enqueued] at member
      simp only [List.mem_filter, decide_eq_true_eq] at member
      exact Or.inl member
  | some mail =>
      have stays : op.released ≠ some id := by
        cases op with
        | enqueue | enqueueWithPriority => nofun
        | _ => cases enqueued
      rw [enqueued] at member
      cases succeeded with
      | false => exact Or.inl ⟨member, stays⟩
      | true =>
          rcases List.mem_cons.mp member with new | old
          · exact Or.inr ⟨mail, rfl, rfl, new⟩
          · exact Or.inl ⟨old, stays⟩

theorem kept_of_not_failing {custody : Custody} {attempt : Attempt}
    (kept : custody.Kept persistent) (notFailing : attempt.op.failing = none) :
    (custody.step persistent letters attempt).Kept persistent := by
  intro id member
  rcases mem_answersFor member with ⟨old, notReleased⟩ | ⟨mail, enqueued, succeeded, rfl⟩
  · exact run_keeps notReleased (by rw [notFailing]; nofun) _ (kept id old)
  · exact run_present enqueued succeeded

theorem step_kept_iff {custody : Custody} (attempt : Attempt) (named : Named custody.queue)
    (kept : custody.Kept persistent) :
    (custody.step persistent letters attempt).Kept persistent ↔
      custody.Harmless persistent attempt := by
  obtain ⟨op, outcomes⟩ := attempt
  cases op with
  | markFailed id error now =>
      have decides := fun member : id ∈ custody.accepted =>
        @markFailed_present persistent letters id (expecting custody.queue outcomes) (named id)
          (kept id member) error now
      have same : (custody.step persistent letters ⟨.markFailed id error now, outcomes⟩).accepted =
          custody.accepted := List.filter_eq_self.mpr fun _ _ => rfl
      constructor
      · intro keptAfter member
        exact (decides member).mp (keptAfter id (by rw [same]; exact member))
      · intro harmless other member
        have old := member
        rw [same] at old
        by_cases here : other = id
        · subst here
          exact (decides old).mpr (harmless old)
        · have elsewhere : (QueueOp.markFailed id error now).failing ≠ some other :=
            fun failing => here (Option.some.inj failing).symm
          have notReleased : (QueueOp.markFailed id error now).released ≠ some other := nofun
          exact run_keeps notReleased elsewhere _ (kept other old)
  | _ => exact iff_of_true (kept_of_not_failing kept rfl) trivial

/-- From a queue that has accepted nothing yet, no step of a run loses a mail exactly when
each of its steps is harmless. -/
theorem kept_iff (persistent : Bool) (letters : CaseMapping) (config : PriorityConfig)
    (maps : QueueMaps) (attempts : List Attempt) :
    (∀ done, done <+: attempts →
        (done.foldl (step persistent letters) (start config maps)).Kept persistent) ↔
      ∀ done attempt later, attempts = done ++ attempt :: later →
        (done.foldl (step persistent letters) (start config maps)).Harmless persistent attempt := by
  refine Machine.foldl_good_iff (fun _ => True) (fun custody => Named custody.queue)
    (fun custody attempt _ named _ _ =>
      run_named letters attempt.op (expecting custody.queue attempt.outcomes) named)
    (fun custody attempt _ named kept => step_kept_iff attempt named kept)
    (fun _ _ => trivial) ?_ ?_
  · exact Table.every_empty
  · intro id member
    cases member

end Runs

end Custody

def fiveFailures (last : List StoreOutcome) : List Attempt :=
  ⟨.enqueueWithPriority (noteFromAlice []) .normal 0, []⟩ ::
    (List.replicate 4 ⟨.markFailed ⟨0⟩ [] 0, []⟩ ++ [⟨.markFailed ⟨0⟩ [] 0, last⟩])

def afterFiveFailures (persistent : Bool) (last : List StoreOutcome) : Custody :=
  (fiveFailures last).foldl (Custody.step persistent asciiCase) (.start .default ⟨∅, ∅, []⟩)

/-- Without a store the fifth failure leaves the mail nowhere, and with one so does a
refused call. -/
theorem five_failures_drop :
    ¬(afterFiveFailures false []).Kept false ∧ ¬(afterFiveFailures true [.refused]).Kept true := by
  constructor
  · intro kept
    rcases kept ⟨0⟩ (by decide +kernel) with memory | ⟨stored, _⟩
    · exact absurd memory (by decide +kernel)
    · cases stored
  · intro kept
    rcases kept ⟨0⟩ (by decide +kernel) with memory | ⟨_, dead⟩
    · exact absurd memory (by decide +kernel)
    · exact absurd dead (by decide +kernel)

end Rusmes
