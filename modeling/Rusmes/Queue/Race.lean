import Rusmes.Queue.Maps

/-!
A failure and a delivery of the same mail reported at the same time. Each section under
the lock and each call of the store is one step, and a scheduler picks whose step is
next. The failure saves its copy of the entry after the lock is gone, so a delivery that
runs meanwhile does not stay.
-/

namespace Rusmes

open WireText

/-- Where a `mark_failed` call stands: the step it takes next. -/
inductive FailStage
  | locking
  | saving (entry : QueueEntry) (shouldMove : Bool)
  | moving
  | burying (entry : QueueEntry)
  | clearing
  | returned

inductive DeliverStage
  | clearing
  | forgetting
  | returned

def FailStage.quiet : FailStage → Bool
  | .locking | .saving _ _ => false
  | .moving | .burying _ | .clearing | .returned => true

section Sections

variable {δ : Type} (store : Option (QueueStore δ)) (letters : CaseMapping) (id : MailId)
  (error : Text) (now : Nat)

def FailStage.afterSaving (shouldMove : Bool) : FailStage :=
  if shouldMove then .moving else .returned

def FailStage.section : FailStage → MailQueue.Program δ FailStage
  | .locking => do
      let (shouldMove, entryToSave) ← MailQueue.failEntry letters id error now
      match entryToSave with
      | some entry => return .saving entry shouldMove
      | none => return afterSaving shouldMove
  | .saving entry shouldMove => do
      MailQueue.onStore store fun store => store.saveEntry entry
      return afterSaving shouldMove
  | .moving => do
      match ← MailQueue.removeEntry id with
      | some entry => return .burying entry
      | none => return .returned
  | .burying entry => do
      MailQueue.onStore store fun store => store.saveToDlq entry
      return .clearing
  | .clearing => do
      MailQueue.onStore store fun store => store.removeEntry id
      return .returned
  | .returned => return .returned

def DeliverStage.section : DeliverStage → MailQueue.Program δ DeliverStage
  | .clearing => do
      MailQueue.onStore store fun store => store.removeEntry id
      return .forgetting
  | .forgetting => do
      let _ ← MailQueue.removeEntry id
      return .returned
  | .returned => return .returned

def FailStage.finish : Nat → FailStage → MailQueue.Program δ Unit
  | 0, _ => return ()
  | steps + 1, stage => do
      let next ← stage.section store letters id error now
      finish steps next

def DeliverStage.finish : Nat → DeliverStage → MailQueue.Program δ Unit
  | 0, _ => return ()
  | steps + 1, stage => do
      let next ← stage.section store id
      finish steps next

theorem FailStage.finish_returned (steps : Nat) :
    FailStage.finish store letters id error now steps .returned = return () := by
  induction steps with
  | zero => rfl
  | succ steps ih => rw [finish, FailStage.section, pure_bind, ih]

theorem FailStage.finish_locking :
    FailStage.finish store letters id error now 5 .locking =
      MailQueue.markFailed store letters id error now := by
  have moves : ∀ steps shouldMove, FailStage.finish store letters id error now (steps + 3)
      (afterSaving shouldMove) =
      if shouldMove then MailQueue.moveToDlq store id else return () := by
    intro steps shouldMove
    cases shouldMove with
    | false => exact finish_returned store letters id error now (steps + 3)
    | true =>
        rw [afterSaving, if_pos rfl, if_pos rfl, finish, FailStage.section, MailQueue.moveToDlq,
          bind_assoc]
        congr 1
        funext taken
        cases taken with
        | none => exact finish_returned store letters id error now (steps + 2)
        | some entry => simp [finish, FailStage.section, finish_returned]
  rw [finish, FailStage.section, MailQueue.markFailed, bind_assoc]
  congr 1
  funext outcome
  obtain ⟨shouldMove, entryToSave⟩ := outcome
  cases entryToSave with
  | none =>
      dsimp only
      rw [pure_bind, moves 1]
  | some entry =>
      dsimp only
      rw [pure_bind, finish, FailStage.section, bind_assoc]
      congr 1
      funext done
      rw [pure_bind, moves 0]

theorem DeliverStage.finish_clearing :
    DeliverStage.finish store id 2 .clearing = MailQueue.markDelivered store id := by
  simp [finish, DeliverStage.section, MailQueue.markDelivered]

end Sections

/-! Both calls on one queue whose store works. -/

structure Race where
  queue : MailQueue QueueMaps
  failing : FailStage
  delivering : DeliverStage

inductive Caller
  | failing
  | delivering
  deriving DecidableEq, Repr

namespace Race

def start (queue : MailQueue QueueMaps) : Race := ⟨queue, .locking, .clearing⟩

def Finished (race : Race) : Prop := race.failing = .returned ∧ race.delivering = .returned

def Gone (race : Race) (id : MailId) : Prop :=
  race.queue.entries.lookup id = none ∧ race.queue.disk.queue.lookup id = none

variable (letters : CaseMapping) (id : MailId) (error : Text) (now : Nat)

def step (race : Race) : Caller → Race
  | .failing =>
      match race.failing.section (some mapStore) letters id error now race.queue with
      | (.ok stage, queue) => { race with queue, failing := stage }
      | (.error _, queue) => { race with queue, failing := .returned }
  | .delivering =>
      match race.delivering.section (some mapStore) id race.queue with
      | (.ok stage, queue) => { race with queue, delivering := stage }
      | (.error _, queue) => { race with queue, delivering := .returned }

/-- The failure will not save anything, and what the delivery has done stays done. -/
structure Safe (race : Race) : Prop where
  reliable : race.queue.disk.outcomes = []
  quiet : race.failing.quiet = true ∨ race.failing = .locking ∧
    ∀ entry, race.queue.entries.lookup id = some entry → entry.lastFailure = true
  cleared : race.delivering ≠ .clearing → race.queue.disk.queue.lookup id = none
  forgotten : race.delivering = .returned → race.queue.entries.lookup id = none

/-- The delivery has cleared the store, and the failure has saved the mail since or is
about to. -/
structure Doomed (race : Race) : Prop where
  reliable : race.queue.disk.outcomes = []
  past : race.delivering ≠ .clearing
  saves : (∃ entry, race.failing = .saving entry false ∧ entry.mail.id = id) ∨
    race.failing = .returned ∧ (race.queue.disk.queue.lookup id).isSome

variable {id}

theorem Safe.gone {race : Race} (safe : race.Safe id) (finished : race.Finished) :
    race.Gone id :=
  ⟨safe.forgotten finished.2, safe.cleared (by rw [finished.2]; nofun)⟩

theorem Doomed.not_gone {race : Race} (doomed : race.Doomed id) (finished : race.Finished) :
    ¬race.Gone id := by
  rintro ⟨_, nothing⟩
  rcases doomed.saves with ⟨entry, saving, _⟩ | ⟨_, held⟩
  · rw [finished.1] at saving
    cases saving
  · rw [nothing] at held
    cases held

section Steps

variable {letters error now} {entries main dlq : Table MailId QueueEntry} {config : PriorityConfig}
  {stats : Table Text UInt64} {failing : FailStage} {delivering : DeliverStage}

theorem step_unknown (unknown : entries.lookup id = none) :
    step letters id error now
      ⟨⟨entries, config, stats, ⟨main, dlq, []⟩⟩, .locking, delivering⟩ .failing =
      ⟨⟨entries, config, stats, ⟨main, dlq, []⟩⟩, .returned, delivering⟩ := by
  rw [step, FailStage.section, Effect.bind_ok (MailQueue.failEntry_unknown letters error now unknown)]
  rfl

theorem step_again {entry : QueueEntry} (found : entries.lookup id = some entry)
    (more : entry.lastFailure = false) :
    step letters id error now
      ⟨⟨entries, config, stats, ⟨main, dlq, []⟩⟩, .locking, delivering⟩ .failing =
      ⟨⟨entries.insert id (entry.failed letters config error now), config, stats, ⟨main, dlq, []⟩⟩,
        .saving (entry.failed letters config error now) false, delivering⟩ := by
  rw [step, FailStage.section,
    Effect.bind_ok (MailQueue.failEntry_again letters error now found more)]
  rfl

theorem step_last {entry : QueueEntry} (found : entries.lookup id = some entry)
    (last : entry.lastFailure = true) :
    step letters id error now
      ⟨⟨entries, config, stats, ⟨main, dlq, []⟩⟩, .locking, delivering⟩ .failing =
      ⟨⟨entries.insert id (entry.failed letters config error now), config, stats, ⟨main, dlq, []⟩⟩,
        .moving, delivering⟩ := by
  rw [step, FailStage.section,
    Effect.bind_ok (MailQueue.failEntry_last letters error now found last)]
  rfl

theorem step_saving (entry : QueueEntry) (shouldMove : Bool) :
    step letters id error now
      ⟨⟨entries, config, stats, ⟨main, dlq, []⟩⟩, .saving entry shouldMove, delivering⟩ .failing =
      ⟨⟨entries, config, stats, ⟨main.insert entry.mail.id entry, dlq, []⟩⟩,
        .afterSaving shouldMove, delivering⟩ := rfl

theorem step_vanished (unknown : entries.lookup id = none) :
    step letters id error now
      ⟨⟨entries, config, stats, ⟨main, dlq, []⟩⟩, .moving, delivering⟩ .failing =
      ⟨⟨entries.erase id, config, stats, ⟨main, dlq, []⟩⟩, .returned, delivering⟩ := by
  rw [step, FailStage.section, Effect.bind_ok (MailQueue.removeEntry_apply id _), unknown]
  rfl

theorem step_moving {entry : QueueEntry} (found : entries.lookup id = some entry) :
    step letters id error now
      ⟨⟨entries, config, stats, ⟨main, dlq, []⟩⟩, .moving, delivering⟩ .failing =
      ⟨⟨entries.erase id, config, stats, ⟨main, dlq, []⟩⟩, .burying entry, delivering⟩ := by
  rw [step, FailStage.section, Effect.bind_ok (MailQueue.removeEntry_apply id _), found]
  rfl

theorem step_burying (entry : QueueEntry) :
    step letters id error now
      ⟨⟨entries, config, stats, ⟨main, dlq, []⟩⟩, .burying entry, delivering⟩ .failing =
      ⟨⟨entries, config, stats, ⟨main, dlq.insert entry.mail.id entry, []⟩⟩, .clearing,
        delivering⟩ := rfl

theorem step_clearing :
    step letters id error now
      ⟨⟨entries, config, stats, ⟨main, dlq, []⟩⟩, .clearing, delivering⟩ .failing =
      ⟨⟨entries, config, stats, ⟨main.erase id, dlq, []⟩⟩, .returned, delivering⟩ := rfl

theorem step_returned :
    step letters id error now
      ⟨⟨entries, config, stats, ⟨main, dlq, []⟩⟩, .returned, delivering⟩ .failing =
      ⟨⟨entries, config, stats, ⟨main, dlq, []⟩⟩, .returned, delivering⟩ := rfl

theorem step_delivered :
    step letters id error now
      ⟨⟨entries, config, stats, ⟨main, dlq, []⟩⟩, failing, .clearing⟩ .delivering =
      ⟨⟨entries, config, stats, ⟨main.erase id, dlq, []⟩⟩, failing, .forgetting⟩ := rfl

theorem step_forgetting :
    step letters id error now
      ⟨⟨entries, config, stats, ⟨main, dlq, []⟩⟩, failing, .forgetting⟩ .delivering =
      ⟨⟨entries.erase id, config, stats, ⟨main, dlq, []⟩⟩, failing, .returned⟩ := rfl

theorem step_over :
    step letters id error now
      ⟨⟨entries, config, stats, ⟨main, dlq, []⟩⟩, failing, .returned⟩ .delivering =
      ⟨⟨entries, config, stats, ⟨main, dlq, []⟩⟩, failing, .returned⟩ := rfl

end Steps

theorem safe_fail {race : Race} (safe : race.Safe id) :
    (race.step letters id error now .failing).Safe id := by
  obtain ⟨⟨entries, config, stats, ⟨main, dlq, outcomes⟩⟩, failing, delivering⟩ := race
  obtain ⟨reliable, quiet, cleared, forgotten⟩ := safe
  dsimp only at reliable quiet cleared forgotten
  subst reliable
  rcases quiet with quiet | ⟨rfl, fails⟩
  · cases failing with
    | locking => cases quiet
    | saving entry shouldMove => cases quiet
    | moving =>
        cases found : entries.lookup id with
        | none =>
            rw [step_vanished found]
            exact ⟨rfl, Or.inl rfl, cleared, fun _ => AList.lookup_erase _ entries⟩
        | some entry =>
            rw [step_moving found]
            exact ⟨rfl, Or.inl rfl, cleared, fun _ => AList.lookup_erase _ entries⟩
    | burying entry =>
        rw [step_burying]
        exact ⟨rfl, Or.inl rfl, cleared, forgotten⟩
    | clearing =>
        rw [step_clearing]
        exact ⟨rfl, Or.inl rfl, fun _ => AList.lookup_erase _ main, forgotten⟩
    | returned =>
        rw [step_returned]
        exact ⟨rfl, Or.inl rfl, cleared, forgotten⟩
  · cases found : entries.lookup id with
    | none =>
        rw [step_unknown found]
        exact ⟨rfl, Or.inl rfl, cleared, forgotten⟩
    | some entry =>
        rw [step_last found (fails entry found)]
        refine ⟨rfl, Or.inl rfl, cleared, fun past => ?_⟩
        rw [forgotten past] at found
        cases found

theorem safe_deliver {race : Race} (safe : race.Safe id) :
    (race.step letters id error now .delivering).Safe id := by
  obtain ⟨⟨entries, config, stats, ⟨main, dlq, outcomes⟩⟩, failing, delivering⟩ := race
  obtain ⟨reliable, quiet, cleared, forgotten⟩ := safe
  dsimp only at reliable quiet cleared forgotten
  subst reliable
  cases delivering with
  | clearing =>
      rw [step_delivered]
      exact ⟨rfl, quiet, fun _ => AList.lookup_erase _ main, nofun⟩
  | forgetting =>
      have nothing : (entries.erase id).lookup id = none := AList.lookup_erase _ _
      rw [step_forgetting]
      refine ⟨rfl, ?_, fun _ => cleared nofun, fun _ => nothing⟩
      rcases quiet with quiet | ⟨rfl, _⟩
      · exact Or.inl quiet
      · refine Or.inr ⟨rfl, fun entry found => ?_⟩
        rw [nothing] at found
        cases found
  | returned =>
      rw [step_over]
      exact ⟨rfl, quiet, cleared, forgotten⟩

theorem doomed_step {race : Race} (doomed : race.Doomed id) (caller : Caller) :
    (race.step letters id error now caller).Doomed id := by
  obtain ⟨⟨entries, config, stats, ⟨main, dlq, outcomes⟩⟩, failing, delivering⟩ := race
  obtain ⟨reliable, past, saves⟩ := doomed
  dsimp only at reliable past saves
  subst reliable
  cases caller with
  | failing =>
      rcases saves with ⟨entry, rfl, named⟩ | ⟨rfl, held⟩
      · rw [step_saving, named]
        exact ⟨rfl, past, Or.inr ⟨rfl, by simp⟩⟩
      · rw [step_returned]
        exact ⟨rfl, past, Or.inr ⟨rfl, held⟩⟩
  | delivering =>
      cases delivering with
      | clearing => exact absurd rfl past
      | forgetting =>
          rw [step_forgetting]
          exact ⟨rfl, nofun, saves⟩
      | returned =>
          rw [step_over]
          exact ⟨rfl, past, saves⟩

theorem safe_run {race : Race} (safe : race.Safe id) (schedule : List Caller) :
    (schedule.foldl (step letters id error now) race).Safe id := by
  induction schedule generalizing race with
  | nil => exact safe
  | cons caller schedule ih =>
      cases caller with
      | failing => exact ih (safe_fail letters error now safe)
      | delivering => exact ih (safe_deliver letters error now safe)

theorem doomed_run {race : Race} (doomed : race.Doomed id) (schedule : List Caller) :
    (schedule.foldl (step letters id error now) race).Doomed id := by
  induction schedule generalizing race with
  | nil => exact doomed
  | cons caller schedule ih => exact ih (doomed_step letters error now doomed caller)

def GoesFirst (caller : Caller) (schedule : List Caller) : Prop :=
  2 ≤ (schedule.takeWhile (· = caller)).length

instance (caller : Caller) (schedule : List Caller) : Decidable (GoesFirst caller schedule) :=
  inferInstanceAs (Decidable (2 ≤ _))

section Overlap

variable {letters error now} {entries main dlq : Table MailId QueueEntry} {config : PriorityConfig}
  {stats : Table Text UInt64} {entry : QueueEntry}

/-- A mail that fails, and not for the last time: it is gone once both calls have returned
exactly when they did not overlap. -/
theorem gone_iff_goesFirst (found : entries.lookup id = some entry)
    (more : entry.lastFailure = false) (named : entry.mail.id = id) {schedule : List Caller}
    (finished : (schedule.foldl (step letters id error now)
      (.start ⟨entries, config, stats, ⟨main, dlq, []⟩⟩)).Finished) :
    (schedule.foldl (step letters id error now)
        (.start ⟨entries, config, stats, ⟨main, dlq, []⟩⟩)).Gone id ↔
      GoesFirst .failing schedule ∨ GoesFirst .delivering schedule := by
  match schedule, finished with
  | [], finished => cases finished.1
  | .failing :: schedule, finished =>
      rw [List.foldl_cons, start, step_again found more] at finished ⊢
      match schedule, finished with
      | [], finished => cases finished.1
      | .failing :: schedule, finished =>
          rw [List.foldl_cons, step_saving] at finished ⊢
          refine iff_of_true ?_ (Or.inl (by simp [GoesFirst]))
          refine (safe_run letters error now ?_ schedule).gone finished
          exact ⟨rfl, Or.inl rfl, absurd rfl, nofun⟩
      | .delivering :: schedule, finished =>
          rw [List.foldl_cons, step_delivered] at finished ⊢
          refine iff_of_false ?_ (by simp [GoesFirst])
          refine (doomed_run letters error now ?_ schedule).not_gone finished
          exact ⟨rfl, nofun, Or.inl ⟨_, rfl, named⟩⟩
  | .delivering :: schedule, finished =>
      rw [List.foldl_cons, start, step_delivered] at finished ⊢
      match schedule, finished with
      | [], finished => cases finished.1
      | .failing :: schedule, finished =>
          rw [List.foldl_cons, step_again found more] at finished ⊢
          refine iff_of_false ?_ (by simp [GoesFirst])
          refine (doomed_run letters error now ?_ schedule).not_gone finished
          exact ⟨rfl, nofun, Or.inl ⟨_, rfl, named⟩⟩
      | .delivering :: schedule, finished =>
          have nothing : (entries.erase id).lookup id = none := AList.lookup_erase _ _
          rw [List.foldl_cons, step_forgetting] at finished ⊢
          refine iff_of_true ?_ (Or.inr (by simp [GoesFirst]))
          refine (safe_run letters error now ?_ schedule).gone finished
          refine ⟨rfl, Or.inr ⟨rfl, fun other held => ?_⟩, fun _ => AList.lookup_erase _ main,
            fun _ => nothing⟩
          rw [nothing] at held
          cases held

end Overlap

/-- A delivered mail stays gone exactly when the failure finds no entry or is the last one,
or one of the two calls is through before the other starts. -/
theorem gone_iff {queue : MailQueue QueueMaps} (reliable : queue.disk.outcomes = [])
    (named : ∀ entry, queue.entries.lookup id = some entry → entry.mail.id = id)
    {schedule : List Caller}
    (finished : (schedule.foldl (step letters id error now) (.start queue)).Finished) :
    (schedule.foldl (step letters id error now) (.start queue)).Gone id ↔
      (∀ entry, queue.entries.lookup id = some entry → entry.lastFailure = true) ∨
        GoesFirst .failing schedule ∨ GoesFirst .delivering schedule := by
  obtain ⟨entries, config, stats, ⟨main, dlq, outcomes⟩⟩ := queue
  subst reliable
  by_cases fails : ∀ entry, entries.lookup id = some entry → entry.lastFailure = true
  · have safe : (start ⟨entries, config, stats, ⟨main, dlq, []⟩⟩).Safe id :=
      ⟨rfl, Or.inr ⟨rfl, fails⟩, absurd rfl, nofun⟩
    exact iff_of_true ((safe_run letters error now safe schedule).gone finished) (Or.inl fails)
  · obtain ⟨entry, waits⟩ := not_forall.mp fails
    obtain ⟨found, more⟩ := Classical.not_imp.mp waits
    rw [gone_iff_goesFirst found (Bool.eq_false_iff.mpr more) (named entry found) finished]
    exact (or_iff_right fails).symm

end Race

def waitingQueue : MailQueue QueueMaps :=
  (MailQueue.enqueueWithPriority (some mapStore) (noteFromAlice []) .normal 0
    (.new .default ⟨∅, ∅, []⟩)).2

def bothReported (schedule : List Caller) : Race :=
  schedule.foldl (Race.step asciiCase ⟨0⟩ [] 0) (.start waitingQueue)

theorem waitingQueue_named : ∀ entry, waitingQueue.entries.lookup ⟨0⟩ = some entry →
    entry.mail.id = ⟨0⟩ := by
  intro entry found
  cases found
  rfl

theorem delivered_stays_gone :
    (bothReported [.failing, .failing, .delivering, .delivering]).Gone ⟨0⟩ :=
  (Race.gone_iff asciiCase [] 0 rfl waitingQueue_named ⟨rfl, rfl⟩).mpr
    (Or.inr (Or.inl (by decide)))

/-- The failure takes the lock, the delivery clears the store, the failure saves. -/
theorem delivered_comes_back :
    (bothReported [.failing, .delivering, .failing, .delivering]).Finished ∧
      ¬(bothReported [.failing, .delivering, .failing, .delivering]).Gone ⟨0⟩ :=
  ⟨⟨rfl, rfl⟩, fun gone => Option.some_ne_none _ gone.2⟩

end Rusmes
