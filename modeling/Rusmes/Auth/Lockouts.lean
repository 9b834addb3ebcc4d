import Mathlib.Data.List.Induction
import Mathlib.Algebra.Group.Nat.Defs
import Rusmes.Auth.Security

/-!
Lockouts along a run of failed attempts of one user. As long as no sum or product leaves its
machine word, each lockout lasts at least as long as the one before.
-/

namespace Rusmes

open WireText

namespace Security

def previousCount (previous : Option LockoutInfo) : Nat :=
  (previous.map fun lockout => lockout.lockoutCount.toNat).getD 0

def growth (config : BruteForceConfig) (number : Nat) : Nat :=
  if config.progressiveLockout then 2 ^ (number - 1) else 1

/-- No step of `lock_user` or of a later look at the lockout overflows. -/
structure ExactLock (config : BruteForceConfig) (previous : Option LockoutInfo)
    (lockedAt : UInt64) : Prop where
  count : (lockoutCount previous).toNat = previousCount previous + 1
  power : config.progressiveLockout = true →
    (powerOfTwo (saturatingPred (lockoutCount previous))).toNat = 2 ^ previousCount previous
  product : (lockoutDuration config (lockoutCount previous)).toNat =
    config.lockoutDurationSecs.toNat * growth config (previousCount previous + 1)
  unlock : (lockedAt + lockoutDuration config (lockoutCount previous)).toNat =
    lockedAt.toNat + (lockoutDuration config (lockoutCount previous)).toNat

structure ExactRecord {Key : Type} [DecidableEq Key] (config : BruteForceConfig)
    (book : AttemptBook Key) (key : Key) (cutoff now lockedAt : UInt64) : Prop where
  length : (UInt32.ofNat (book.kept key cutoff now).length).toNat =
    (book.kept key cutoff now).length
  lock : book.locks config key cutoff now = true →
    ExactLock config (book.locked.lookup key) lockedAt

abbrev FailedCall := Option IpAddr × FailureClock

structure ExactCall (protector : BruteForceProtector) (username : Text) (call : FailedCall) :
    Prop where
  cutoff : (protector.cutoff call.2.now).toNat + protector.config.attemptWindowSecs.toNat =
    call.2.now.toNat
  user : ExactRecord protector.config protector.users username (protector.cutoff call.2.now)
    call.2.now call.2.userLock
  ip : ∀ address, call.1 = some address → ExactRecord protector.config protector.ips address
    (protector.cutoff call.2.now) call.2.now call.2.ipLock

structure LockFits (config : BruteForceConfig) (previous : Option LockoutInfo)
    (lockedAt : UInt64) : Prop where
  count : previousCount previous + 1 < 2 ^ 32
  time : lockedAt.toNat +
    config.lockoutDurationSecs.toNat * growth config (previousCount previous + 1) < 2 ^ 64

structure CallFits (protector : BruteForceProtector) (username : Text) (call : FailedCall) :
    Prop where
  window : protector.config.attemptWindowSecs.toNat ≤ call.2.now.toNat
  user : protector.users.locks protector.config username (protector.cutoff call.2.now) call.2.now =
    true → LockFits protector.config (protector.users.locked.lookup username) call.2.userLock
  ip : ∀ address, call.1 = some address →
    protector.ips.locks protector.config address (protector.cutoff call.2.now) call.2.now = true →
      LockFits protector.config (protector.ips.locked.lookup address) call.2.ipLock

def recordAll (config : BruteForceConfig) (username : Text) (calls : List FailedCall) :
    BruteForceProtector :=
  calls.foldl (fun protector call => protector.recordFailedAttempt username call.1 call.2)
    (.new config)

structure LockoutsGrow (config : BruteForceConfig) (username : Text) (calls : List FailedCall) :
    Prop where
  exact : ∀ before call after, calls = before ++ call :: after →
    ExactCall (recordAll config username before) username call
  /-- A call never leaves a lockout that is shorter than the one before. -/
  longer : config.progressiveLockout = true → ∀ before call after,
    calls = before ++ call :: after → ∀ old new,
      (recordAll config username before).users.locked.lookup username = some old →
      (recordAll config username (before ++ [call])).users.locked.lookup username = some new →
        old.durationSecs ≤ new.durationSecs
  stays : ∀ before after, calls = before ++ after → ∀ lockout,
    (recordAll config username before).users.locked.lookup username = some lockout →
      ∀ now : UInt64, now.toNat < lockout.lockedAt.toNat + config.lockoutDurationSecs.toNat →
        (recordAll config username before).isUserLocked username now = true

/-! One book. -/

section Book

variable {Key : Type} [DecidableEq Key] {config : BruteForceConfig} {book : AttemptBook Key}

/-- What a book holds while nothing has overflown. -/
structure BookFits (config : BruteForceConfig) (book : AttemptBook Key) : Prop where
  attempts : ∀ key, (book.attemptsOf key).length ≤ config.maxAttempts.toNat - 1
  count : ∀ key lockout, book.locked.lookup key = some lockout → 1 ≤ lockout.lockoutCount.toNat
  duration : ∀ key lockout, book.locked.lookup key = some lockout →
    lockout.durationSecs.toNat =
      config.lockoutDurationSecs.toNat * growth config lockout.lockoutCount.toNat
  time : ∀ key lockout, book.locked.lookup key = some lockout →
    lockout.lockedAt.toNat + lockout.durationSecs.toNat < 2 ^ 64

theorem bookFits_empty (config : BruteForceConfig) :
    BookFits config (AttemptBook.empty : AttemptBook Key) := by
  have none : ∀ key : Key, (AttemptBook.empty : AttemptBook Key).locked.lookup key = none :=
    fun _ => rfl
  refine ⟨?_, ?_, ?_, ?_⟩
  · intro key
    exact Nat.zero_le _
  all_goals
    intro key lockout held
    rw [none key] at held
    cases held

theorem one_le_growth (config : BruteForceConfig) (number : Nat) : 1 ≤ growth config number := by
  rw [growth]
  split
  · exact Nat.one_le_two_pow
  · exact Nat.le_refl 1

theorem LockFits.exact {previous : Option LockoutInfo} {lockedAt : UInt64}
    (positive : 1 ≤ config.lockoutDurationSecs.toNat) (fits : LockFits config previous lockedAt) :
    ExactLock config previous lockedAt := by
  have count : (lockoutCount previous).toNat = previousCount previous + 1 := by
    have room := fits.count
    cases previous with
    | none => rfl
    | some lockout =>
        simp only [previousCount, Option.map_some, Option.getD_some] at room
        simp only [lockoutCount, previousCount, Option.map_some, Option.getD_some,
          UInt32.toNat_add]
        exact Nat.mod_eq_of_lt room
  have number : (saturatingPred (lockoutCount previous)).toNat = previousCount previous := by
    have some : lockoutCount previous ≠ 0 := by
      intro zero
      rw [zero] at count
      simp at count
    rw [saturatingPred, if_neg some, UInt32.toNat_sub_of_le]
    · rw [count]
      rfl
    · rw [UInt32.le_iff_toNat_le, count]
      exact Nat.succ_pos _
  have power : config.progressiveLockout = true →
      (powerOfTwo (saturatingPred (lockoutCount previous))).toNat = 2 ^ previousCount previous := by
    intro progressive
    have time := fits.time
    rw [growth, if_pos progressive, Nat.add_sub_cancel] at time
    have small := Nat.le_mul_of_pos_left (2 ^ previousCount previous) positive
    rw [powerOfTwo, number, UInt64.toNat_ofNat']
    exact Nat.mod_eq_of_lt (by omega)
  have product : (lockoutDuration config (lockoutCount previous)).toNat =
      config.lockoutDurationSecs.toNat * growth config (previousCount previous + 1) := by
    have time := fits.time
    rw [lockoutDuration]
    split
    · rename_i progressive
      rw [growth, if_pos progressive, Nat.add_sub_cancel] at time ⊢
      rw [UInt64.toNat_mul, power progressive]
      exact Nat.mod_eq_of_lt (by omega)
    · rename_i fixed
      rw [growth, if_neg fixed, Nat.mul_one]
  refine ⟨count, power, product, ?_⟩
  rw [UInt64.toNat_add, product]
  exact Nat.mod_eq_of_lt fits.time

theorem BookFits.length (fits : BookFits config book) (key : Key) (cutoff now : UInt64) :
    (UInt32.ofNat (book.kept key cutoff now).length).toNat = (book.kept key cutoff now).length := by
  have short := fits.attempts key
  have kept := kept_length_le book key cutoff now
  have word := config.maxAttempts.toNat_lt
  rw [UInt32.toNat_ofNat']
  exact Nat.mod_eq_of_lt (by omega)

theorem BookFits.record (fits : BookFits config book)
    (positive : 1 ≤ config.lockoutDurationSecs.toNat) {key : Key} {cutoff now lockedAt : UInt64}
    (lock : book.locks config key cutoff now = true →
      LockFits config (book.locked.lookup key) lockedAt) :
    BookFits config (book.record config key cutoff now lockedAt) := by
  refine ⟨?_, ?_, ?_, ?_⟩
  · intro other
    rw [attemptsOf_record]
    split
    · split
      · exact Nat.zero_le _
      · rename_i same free
        rw [AttemptBook.locks, decide_eq_true_eq, UInt32.le_iff_toNat_le,
          fits.length key cutoff now] at free
        omega
    · exact fits.attempts other
  · intro other lockout held
    rw [locked_record] at held
    split at held
    · rename_i own
      have exact := (lock own.2).exact positive
      rw [← Option.some.inj held]
      dsimp only
      rw [exact.count]
      exact Nat.succ_pos _
    · exact fits.count other lockout held
  · intro other lockout held
    rw [locked_record] at held
    split at held
    · rename_i own
      have exact := (lock own.2).exact positive
      rw [← Option.some.inj held]
      dsimp only
      rw [exact.product, exact.count]
    · exact fits.duration other lockout held
  · intro other lockout held
    rw [locked_record] at held
    split at held
    · rename_i own
      have exact := (lock own.2).exact positive
      rw [← Option.some.inj held]
      dsimp only
      rw [exact.product]
      exact (lock own.2).time
    · exact fits.time other lockout held

theorem BookFits.exact (fits : BookFits config book)
    (positive : 1 ≤ config.lockoutDurationSecs.toNat) {key : Key} {cutoff now lockedAt : UInt64}
    (lock : book.locks config key cutoff now = true →
      LockFits config (book.locked.lookup key) lockedAt) :
    ExactRecord config book key cutoff now lockedAt :=
  ⟨fits.length key cutoff now, fun locks => (lock locks).exact positive⟩

end Book

section Run

variable {config : BruteForceConfig} {username : Text}

structure ProtectorFits (config : BruteForceConfig) (protector : BruteForceProtector) : Prop where
  same : protector.config = config
  users : BookFits config protector.users
  ips : BookFits config protector.ips

theorem ProtectorFits.call (positive : 1 ≤ config.lockoutDurationSecs.toNat)
    {protector : BruteForceProtector} (fits : ProtectorFits config protector) {call : FailedCall}
    (room : CallFits protector username call) :
    ExactCall protector username call ∧
      ProtectorFits config (protector.recordFailedAttempt username call.1 call.2) := by
  obtain ⟨rfl, users, ips⟩ := fits
  have cutoff : (protector.cutoff call.2.now).toNat + protector.config.attemptWindowSecs.toNat =
      call.2.now.toNat := by
    have window := room.window
    rw [BruteForceProtector.cutoff, UInt64.toNat_sub_of_le _ _ (UInt64.le_iff_toNat_le.mpr window)]
    omega
  refine ⟨⟨cutoff, users.exact positive room.user, ?_⟩, rfl, users.record positive room.user, ?_⟩
  · intro address given
    exact ips.exact positive (room.ip address given)
  · obtain ⟨_ | address, clock⟩ := call
    · exact ips
    · exact ips.record positive (room.ip address rfl)

theorem recordAll_snoc (before : List FailedCall) (call : FailedCall) :
    recordAll config username (before ++ [call]) =
      (recordAll config username before).recordFailedAttempt username call.1 call.2 := by
  rw [recordAll, List.foldl_append]
  rfl

theorem recordAll_fits (positive : 1 ≤ config.lockoutDurationSecs.toNat) {calls : List FailedCall}
    (room : ∀ before call after, calls = before ++ call :: after →
      CallFits (recordAll config username before) username call) :
    ∀ before after, calls = before ++ after →
      ProtectorFits config (recordAll config username before) := by
  intro before
  induction before using List.reverseRecOn with
  | nil =>
      intro after split
      exact ⟨rfl, bookFits_empty config, bookFits_empty config⟩
  | append_singleton before call ih =>
      intro after split
      rw [List.append_assoc] at split
      have earlier := ih ([call] ++ after) split
      rw [recordAll_snoc]
      exact (earlier.call positive (room before call after split)).2

theorem BookFits.locked {Key : Type} [DecidableEq Key] {book : AttemptBook Key}
    (fits : BookFits config book) {key : Key} {lockout : LockoutInfo}
    (held : book.locked.lookup key = some lockout) {now : UInt64}
    (early : now.toNat < lockout.lockedAt.toNat + config.lockoutDurationSecs.toNat) :
    book.isLocked key now = true := by
  have time := fits.time key lockout held
  have duration := fits.duration key lockout held
  have least : config.lockoutDurationSecs.toNat ≤
      config.lockoutDurationSecs.toNat * growth config lockout.lockoutCount.toNat :=
    Nat.le_mul_of_pos_right _ (one_le_growth config _)
  rw [AttemptBook.isLocked, held, Option.any_some, decide_eq_true_eq, LockoutInfo.unlockTime,
    UInt64.lt_iff_toNat_lt, UInt64.toNat_add, Nat.mod_eq_of_lt time]
  omega

theorem ExactLock.longer {lockout : LockoutInfo} {lockedAt : UInt64}
    (exact : ExactLock config (some lockout) lockedAt)
    (progressive : config.progressiveLockout = true)
    (duration : lockout.durationSecs.toNat =
      config.lockoutDurationSecs.toNat * growth config lockout.lockoutCount.toNat) :
    lockout.durationSecs ≤ lockoutDuration config (lockoutCount (some lockout)) := by
  have grows : growth config lockout.lockoutCount.toNat ≤
      growth config (previousCount (some lockout) + 1) := by
    rw [growth, growth, if_pos progressive, if_pos progressive]
    apply Nat.pow_le_pow_right (by decide)
    rw [previousCount, Option.map_some, Option.getD_some]
    omega
  rw [UInt64.le_iff_toNat_le, exact.product, duration]
  exact Nat.mul_le_mul_left _ grows

/-- Lockouts only get longer, as long as each call leaves room for its arithmetic. -/
theorem lockouts_grow (positive : 1 ≤ config.lockoutDurationSecs.toNat) (username : Text)
    (calls : List FailedCall)
    (room : ∀ before call after, calls = before ++ call :: after →
      CallFits (recordAll config username before) username call) :
    LockoutsGrow config username calls := by
  have fits := recordAll_fits positive room
  refine ⟨?_, ?_, ?_⟩
  · intro before call after split
    exact ((fits before (call :: after) split).call positive (room before call after split)).1
  · intro progressive before call after split old new earlier later
    have books := fits before (call :: after) split
    have duration := books.users.duration username old earlier
    have exact := (books.call positive (room before call after split)).1.user.lock
    rw [books.same, earlier] at exact
    rw [recordAll_snoc, recordFailedAttempt_users, locked_record, books.same] at later
    split at later
    · rename_i locks
      rw [← Option.some.inj later, earlier]
      exact (exact locks.2).longer progressive duration
    · rw [earlier, Option.some.injEq] at later
      rw [later]
      exact UInt64.le_refl _
  · intro before after split lockout held now early
    exact (fits before after split).users.locked held early

end Run

def everyFailure : BruteForceConfig := ⟨1, 1, 300, true⟩

def failureAt (now : UInt64) : FailedCall := (none, ⟨now, now, now⟩)

theorem everyFailure_durations :
    ((recordAll everyFailure [] (List.replicate 64 (failureAt 1000))).users.locked.lookup []).map
        LockoutInfo.durationSecs = some 9223372036854775808 ∧
      ((recordAll everyFailure [] (List.replicate 64 (failureAt 1000) ++
        [failureAt 1000])).users.locked.lookup []).map LockoutInfo.durationSecs = some 0 := by
  decide +kernel

theorem everyFailure_shrinks :
    1 ≤ everyFailure.lockoutDurationSecs.toNat ∧
      ¬LockoutsGrow everyFailure [] (List.replicate 65 (failureAt 1000)) := by
  refine ⟨by decide, ?_⟩
  intro grow
  obtain ⟨before, after⟩ := everyFailure_durations
  obtain ⟨old, earlier, long⟩ := Option.map_eq_some_iff.mp before
  obtain ⟨new, later, short⟩ := Option.map_eq_some_iff.mp after
  have longer := grow.longer rfl _ (failureAt 1000) [] List.replicate_succ' old new earlier later
  rw [long, short] at longer
  exact absurd longer (by decide)

theorem everyFailure_grows : LockoutsGrow everyFailure [] [failureAt 1000] := by
  refine lockouts_grow (by decide) [] _ ?_
  intro before call after split
  rcases before with _ | ⟨first, before⟩
  · rw [List.nil_append, List.cons.injEq] at split
    rw [← split.1]
    refine ⟨by decide, ?_, ?_⟩
    · intro _
      exact ⟨by decide, by decide⟩
    · intro address given
      cases given
  · have sizes := congrArg List.length split
    simp at sizes

end Security

end Rusmes
