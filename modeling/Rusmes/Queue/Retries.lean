import Rusmes.Queue.MailQueue

/-!
The priority of an entry over its failures. Each failure computes it anew from the rules,
so it only falls where an entry came in with more than the rules give after one failure.
-/

namespace Rusmes

open WireText

theorem PriorityConfig.calculatePriority_mono (config : PriorityConfig) (letters : CaseMapping)
    (mail : Mail) {fewer more : UInt32} (attempts : fewer ≤ more) :
    (config.calculatePriority letters mail fewer).asU8 ≤
      (config.calculatePriority letters mail more).asU8 := by
  have boosted : ∀ priority : Priority,
      (config.applyBoost priority fewer).asU8 ≤ (config.applyBoost priority more).asU8 :=
    fun priority => config.applyBoost_mono priority attempts
  rw [calculatePriority, calculatePriority]
  cases attributePriority letters mail with
  | some priority => exact boosted priority
  | none =>
      cases config.senderPriority mail with
      | some priority => exact boosted priority
      | none =>
          cases config.recipientPriority mail with
          | some priority => exact boosted priority
          | none => exact boosted config.defaultPriority

section Retries

variable {δ : Type} (store : Option (QueueStore δ)) (letters : CaseMapping)

/-- An explicit priority is given to `enqueue_with_priority`, and `enqueue` finds one. -/
def MailQueue.enqueueAs (mail : Mail) (explicit : Option Priority) (now : Nat) :
    MailQueue.Program δ Unit :=
  match explicit with
  | some priority => MailQueue.enqueueWithPriority store mail priority now
  | none => MailQueue.enqueue store letters mail now

structure Failure where
  id : MailId
  error : Text
  now : Nat

def MailQueue.afterFailures (failures : List Failure) (queue : MailQueue δ) : MailQueue δ :=
  failures.foldl (fun queue failure =>
    (MailQueue.markFailed store letters failure.id failure.error failure.now queue).2) queue

/-- No failure lowers the priority of the mail's entry, whatever failures came before. -/
def NeverLowered (mail : Mail) (queue : MailQueue δ) : Prop :=
  ∀ failures error now before after,
    (queue.afterFailures store letters failures).entries.lookup mail.id = some before →
      (MailQueue.failEntry letters mail.id error now
        (queue.afterFailures store letters failures)).2.entries.lookup mail.id = some after →
        before.priority.asU8 ≤ after.priority.asU8

structure Retried (config : PriorityConfig) (mail : Mail) (initial : Priority)
    (entry : QueueEntry) : Prop where
  sameMail : entry.mail = mail
  maxAttempts : entry.maxAttempts = 5
  left : entry.attempts < 5
  priority : entry.attempts = 0 ∧ entry.priority = initial ∨
    1 ≤ entry.attempts ∧
      entry.priority = config.calculatePriority letters mail entry.attempts

structure Retrying (config : PriorityConfig) (mail : Mail) (initial : Priority)
    (queue : MailQueue δ) : Prop where
  unchanged : queue.priorityConfig = config
  entry : ∀ entry, queue.entries.lookup mail.id = some entry →
    Retried letters config mail initial entry

end Retries

section Steps

variable {δ : Type} {store : Option (QueueStore δ)} {letters : CaseMapping}
  {config : PriorityConfig} {mail : Mail} {initial : Priority} {entry : QueueEntry}

theorem Retried.attempts_succ (retried : Retried letters config mail initial entry) :
    entry.attempts ≤ entry.attempts + 1 ∧ 1 ≤ entry.attempts + 1 := by
  have below := UInt32.lt_iff_toNat_lt.mp retried.left
  have succ : (entry.attempts + 1).toNat = entry.attempts.toNat + 1 := by
    rw [UInt32.toNat_add]
    change (entry.attempts.toNat + 1) % 2 ^ 32 = entry.attempts.toNat + 1
    have five : (5 : UInt32).toNat = 5 := rfl
    omega
  rw [UInt32.le_iff_toNat_le, UInt32.le_iff_toNat_le, succ]
  change entry.attempts.toNat ≤ entry.attempts.toNat + 1 ∧ 1 ≤ entry.attempts.toNat + 1
  omega

theorem Retried.failed (retried : Retried letters config mail initial entry)
    (inherits : config.inheritPriorityOnRetry = true) (more : entry.lastFailure = false)
    (error : Text) (now : Nat) :
    Retried letters config mail initial (entry.failed letters config error now) where
  sameMail := retried.sameMail
  maxAttempts := retried.maxAttempts
  left := by
    rw [QueueEntry.lastFailure, retried.maxAttempts, decide_eq_false_iff_not, UInt32.not_le] at more
    exact more
  priority := by
    refine Or.inr ⟨retried.attempts_succ.2, ?_⟩
    change (if config.inheritPriorityOnRetry then _ else _) = _
    rw [if_pos inherits]
    exact congrArg (fun mail => config.calculatePriority letters mail _) retried.sameMail

theorem Retrying.disk {queue : MailQueue δ} (retrying : Retrying letters config mail initial queue)
    (disk : δ) : Retrying letters config mail initial { queue with disk } :=
  ⟨retrying.unchanged, retrying.entry⟩

theorem Retrying.buried {queue : MailQueue δ}
    (retrying : Retrying letters config mail initial queue) (id : MailId) (failed : QueueEntry) :
    Retrying letters config mail initial
      { queue with entries := (queue.entries.insert id failed).erase id } where
  unchanged := retrying.unchanged
  entry := by
    intro entry found
    by_cases here : mail.id = id
    · rw [here, AList.lookup_erase] at found
      cases found
    · rw [AList.lookup_erase_ne here, AList.lookup_insert_ne here] at found
      exact retrying.entry entry found

theorem retrying_onStore (call : QueueStore δ → Effect Text δ Unit) :
    Effect.Keeps (Retrying letters config mail initial) (MailQueue.onStore store call) := by
  intro queue retrying
  cases store with
  | none => exact retrying
  | some store => exact retrying.disk _

theorem retrying_failed {queue : MailQueue δ} {id : MailId}
    (retrying : Retrying letters config mail initial queue)
    (inherits : config.inheritPriorityOnRetry = true)
    (found : queue.entries.lookup id = some entry) (more : entry.lastFailure = false)
    (error : Text) (now : Nat) : Retrying letters config mail initial
      { queue with entries := queue.entries.insert id (entry.failed letters config error now) } where
  unchanged := retrying.unchanged
  entry := by
    intro other held
    by_cases here : mail.id = id
    · rw [here, AList.lookup_insert, Option.some.injEq] at held
      rw [← here] at found
      rw [← held]
      exact (retrying.entry entry found).failed inherits more error now
    · rw [AList.lookup_insert_ne here] at held
      exact retrying.entry other held

theorem retrying_markFailed (inherits : config.inheritPriorityOnRetry = true) (failure : Failure) :
    Effect.Keeps (Retrying letters config mail initial)
      (MailQueue.markFailed store letters failure.id failure.error failure.now) := by
  intro queue retrying
  obtain rfl := retrying.unchanged
  cases found : queue.entries.lookup failure.id with
  | none => rwa [MailQueue.markFailed_unknown letters failure.error failure.now found]
  | some entry =>
      cases last : entry.lastFailure with
      | false =>
          have failed := retrying_failed retrying inherits found last failure.error failure.now
          rw [MailQueue.markFailed_again letters failure.error failure.now found last]
          exact retrying_onStore _ _ failed
      | true =>
          rw [MailQueue.markFailed_last letters failure.error failure.now found last]
          exact Effect.keeps_bind (retrying_onStore _) (fun _ => retrying_onStore _) _
            (retrying.buried failure.id _)

theorem retrying_afterFailures (inherits : config.inheritPriorityOnRetry = true)
    (failures : List Failure) {queue : MailQueue δ}
    (retrying : Retrying letters config mail initial queue) :
    Retrying letters config mail initial (queue.afterFailures store letters failures) := by
  induction failures generalizing queue with
  | nil => exact retrying
  | cons failure failures ih =>
      exact ih (retrying_markFailed inherits failure queue retrying)

theorem enqueued_eq {queue started : MailQueue δ} {now : Nat}
    (queued : MailQueue.enqueueWithPriority store mail initial now queue = (.ok (), started)) :
    started.priorityConfig = queue.priorityConfig ∧
      started.entries.lookup mail.id = some (.newWithPriority mail initial now) := by
  rw [MailQueue.enqueueWithPriority, MailQueue.recordDomainStats, Effect.modify_bind] at queued
  obtain ⟨_, middle, saved, inserted⟩ := Effect.bind_eq_ok.mp queued
  rw [MailQueue.insertEntry, Effect.modify_apply] at inserted
  rw [← (Prod.mk.inj inserted).2]
  refine ⟨?_, AList.lookup_insert _⟩
  cases store with
  | none => rw [← (Prod.mk.inj saved).2]
  | some store => rw [← (Prod.mk.inj saved).2]

theorem retrying_enqueued {queue started : MailQueue δ} {now : Nat}
    (queued : MailQueue.enqueueWithPriority store mail initial now queue = (.ok (), started)) :
    Retrying letters queue.priorityConfig mail initial started where
  unchanged := (enqueued_eq queued).1
  entry := by
    intro entry found
    obtain rfl := Option.some.inj ((enqueued_eq queued).2.symm.trans found)
    exact ⟨rfl, rfl, (by decide : (0 : UInt32) < 5), Or.inl ⟨rfl, rfl⟩⟩

theorem failEntry_lookup {queue : MailQueue δ} {id : MailId} {error : Text} {now : Nat}
    (found : queue.entries.lookup id = some entry) :
    (MailQueue.failEntry letters id error now queue).2.entries.lookup id =
      some (entry.failed letters queue.priorityConfig error now) := by
  cases last : entry.lastFailure with
  | true =>
      rw [MailQueue.failEntry_last letters error now found last]
      exact AList.lookup_insert _
  | false =>
      rw [MailQueue.failEntry_again letters error now found last]
      exact AList.lookup_insert _

theorem failed_priority (inherits : config.inheritPriorityOnRetry = true) (error : Text)
    (now : Nat) : (entry.failed letters config error now).priority =
      config.calculatePriority letters entry.mail (entry.attempts + 1) := by
  change (if config.inheritPriorityOnRetry then _ else _) = _
  rw [if_pos inherits]
  rfl

theorem neverLowered_initial_iff {queue started : MailQueue δ} {now : Nat}
    (inherits : queue.priorityConfig.inheritPriorityOnRetry = true)
    (queued : MailQueue.enqueueWithPriority store mail initial now queue = (.ok (), started)) :
    NeverLowered store letters mail started ↔
      initial.asU8 ≤ (queue.priorityConfig.calculatePriority letters mail 1).asU8 := by
  have first := enqueued_eq queued
  constructor
  · intro never
    have failed := @failEntry_lookup _ letters _ started mail.id [] 0 first.2
    rw [first.1] at failed
    have lowered := never [] [] 0 _ _ first.2 failed
    rwa [failed_priority inherits] at lowered
  · intro enough failures error now before after found failed
    have retrying := @retrying_afterFailures _ store letters _ _ _ inherits failures _
      (retrying_enqueued queued)
    have retried := retrying.entry before found
    rw [failEntry_lookup found, retrying.unchanged] at failed
    rw [← Option.some.inj failed, failed_priority inherits, retried.sameMail]
    rcases retried.priority with ⟨fresh, priority⟩ | ⟨_, priority⟩
    · rw [priority, fresh]
      exact enough
    · rw [priority]
      exact PriorityConfig.calculatePriority_mono _ _ _ retried.attempts_succ.1

end Steps

/-- Retrying lowers no priority, exactly when the mail was not given explicitly more than
the rules give it after one failure. -/
theorem neverLowered_iff {δ : Type} (store : Option (QueueStore δ)) (letters : CaseMapping)
    (mail : Mail) (explicit : Option Priority) (now : Nat) (queue started : MailQueue δ)
    (inherits : queue.priorityConfig.inheritPriorityOnRetry = true)
    (queued : MailQueue.enqueueAs store letters mail explicit now queue = (.ok (), started)) :
    NeverLowered store letters mail started ↔
      ∀ priority ∈ explicit,
        priority.asU8 ≤ (queue.priorityConfig.calculatePriority letters mail 1).asU8 := by
  cases explicit with
  | some priority =>
      rw [neverLowered_initial_iff inherits queued]
      constructor
      · intro enough other same
        rwa [← Option.some.inj same]
      · intro enough
        exact enough priority rfl
  | none =>
      rw [neverLowered_initial_iff inherits queued]
      refine iff_of_true ?_ nofun
      exact PriorityConfig.calculatePriority_mono _ _ _ (by decide)

def emptyQueue : MailQueue Unit := .new .default ()

theorem neverLowered_normal :
    NeverLowered none asciiCase (noteFromAlice [])
        (MailQueue.enqueueAs none asciiCase (noteFromAlice []) (some .normal) 0 emptyQueue).2 ↔
      ∀ priority ∈ some Priority.normal,
        priority.asU8 ≤ (emptyQueue.priorityConfig.calculatePriority asciiCase
          (noteFromAlice []) 1).asU8 :=
  neverLowered_iff none asciiCase (noteFromAlice []) (some .normal) 0 emptyQueue _ rfl rfl

/-- A mail queued with high priority is a normal one after its first failure. -/
theorem high_priority_lowered :
    ¬NeverLowered none asciiCase (noteFromAlice [])
      (MailQueue.enqueueAs none asciiCase (noteFromAlice []) (some .high) 0 emptyQueue).2 := by
  intro never
  have lowered := never [] [] 0 (.newWithPriority (noteFromAlice []) .high 0)
    ((QueueEntry.newWithPriority (noteFromAlice []) .high 0).failed asciiCase .default [] 0) rfl rfl
  exact absurd lowered (by decide)

end Rusmes
