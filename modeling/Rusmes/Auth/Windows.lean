import Rusmes.Auth.Security
import Rusmes.Library.SlidingWindow

/-!
Attempts in a window. The rate limiter counts what it lets pass, and the brute-force
protector the failures that follow; both forget what is older than their window, and the
second one everything when it locks an account.
-/

namespace Rusmes

open WireText

namespace Security

open SlidingWindow

inductive AuthCall
  | check (username : Text) (ip : Option IpAddr) (clock : CheckClock)
  | failure (username : Text) (ip : Option IpAddr) (clock : FailureClock)

def AuthCall.readings : AuthCall → List UInt64
  | .check _ _ clock => [clock.rate, clock.ipLock, clock.userLock, clock.unlock]
  | .failure _ _ clock => [clock.now, clock.userLock, clock.ipLock]

def AuthCall.checks (username : Text) : AuthCall → Prop
  | .check name _ _ => name = username
  | .failure _ _ _ => False

def AuthCall.fails (username : Text) : AuthCall → Prop
  | .check _ _ _ => False
  | .failure name _ _ => name = username

def AuthSecurity.perform (security : AuthSecurity) : AuthCall → AuthSecurity
  | .check username ip clock => (security.checkAuthAttempt username ip clock).2
  | .failure username ip clock => security.recordAuthFailure username ip clock

def AuthSecurity.passTime (security : AuthSecurity) (address : IpAddr) : AuthCall → Option Nat
  | .check _ ip clock =>
      if ip = some address ∧ (security.rateLimiter.checkRateLimit address clock.rate).1 then
        some clock.rate.toNat
      else none
  | .failure _ _ _ => none

def AuthSecurity.grantTime (security : AuthSecurity) (username : Text) : AuthCall → Option Nat
  | .check name ip clock =>
      if name = username ∧ (security.checkAuthAttempt name ip clock).1.isOk then
        some clock.unlock.toNat
      else none
  | .failure _ _ _ => none

def perform (config : SecurityConfig) (calls : List AuthCall) : AuthSecurity :=
  calls.foldl AuthSecurity.perform (.new config)

def timesOf (time : AuthSecurity → AuthCall → Option Nat) :
    AuthSecurity → List AuthCall → List Nat
  | _, [] => []
  | security, call :: calls =>
      (time security call).toList ++ timesOf time (security.perform call) calls

def passTimes (config : SecurityConfig) (address : IpAddr) (calls : List AuthCall) : List Nat :=
  timesOf (fun security => security.passTime address) (.new config) calls

def grantTimes (config : SecurityConfig) (username : Text) (calls : List AuthCall) : List Nat :=
  timesOf (fun security => security.grantTime username) (.new config) calls

/-- The last call that was granted to the user has not been followed by a failure. -/
def FailureDue (config : SecurityConfig) (username : Text) (calls : List AuthCall) : Prop :=
  ∃ before first between, calls = before ++ first :: between ∧
    ((perform config before).grantTime username first).isSome ∧
      ∀ later ∈ between, ¬later.fails username

/-- Whenever a call is granted to the user, a failure is recorded before the next. -/
def FailuresFollow (config : SecurityConfig) (username : Text) (calls : List AuthCall) : Prop :=
  ∀ before call after, calls = before ++ call :: after → call.checks username →
    ¬FailureDue config username before

structure RealClock (config : SecurityConfig) (calls : List AuthCall) : Prop where
  forward : (calls.flatMap AuthCall.readings).Pairwise (· ≤ ·)
  rateWindow : ∀ reading ∈ calls.flatMap AuthCall.readings, config.rateLimit.windowSecs ≤ reading
  attemptWindow : ∀ reading ∈ calls.flatMap AuthCall.readings,
    config.bruteForce.attemptWindowSecs ≤ reading

structure WindowsBound (config : SecurityConfig) (calls : List AuthCall) : Prop where
  rate : ∀ address start, (passTimes config address calls).countP
    (inWindow config.rateLimit.windowSecs.toNat start) ≤ config.rateLimit.maxRequests.toNat
  attempts : 1 ≤ config.bruteForce.maxAttempts → config.bruteForce.progressiveLockout = false →
    config.bruteForce.attemptWindowSecs ≤ config.bruteForce.lockoutDurationSecs →
    ∀ username, FailuresFollow config username calls → ∀ start,
      (grantTimes config username calls).countP
        (inWindow config.bruteForce.attemptWindowSecs.toNat start) ≤
          config.bruteForce.maxAttempts.toNat

/-- Whoever is locked, the lockout ends at a time the clock can show. -/
def LockoutsEnd (config : SecurityConfig) (calls : List AuthCall) : Prop :=
  config.bruteForce.progressiveLockout = false → ∀ before username ip clock after,
    calls = before ++ AuthCall.failure username ip clock :: after →
    (perform config before).bruteForce.users.locks config.bruteForce username
      ((perform config before).bruteForce.cutoff clock.now) clock.now = true →
    clock.userLock.toNat + config.bruteForce.lockoutDurationSecs.toNat < 2 ^ 64

section Run

variable {config : SecurityConfig}

theorem perform_snoc (calls : List AuthCall) (call : AuthCall) :
    perform config (calls ++ [call]) = (perform config calls).perform call := by
  rw [perform, List.foldl_append]
  rfl

theorem timesOf_snoc (time : AuthSecurity → AuthCall → Option Nat) (calls : List AuthCall)
    (call : AuthCall) :
    timesOf time (.new config) (calls ++ [call]) =
      timesOf time (.new config) calls ++ (time (perform config calls) call).toList := by
  have from_ : ∀ security, timesOf time security (calls ++ [call]) = timesOf time security calls ++
      (time (calls.foldl AuthSecurity.perform security) call).toList := by
    induction calls with
    | nil =>
        intro security
        simp [timesOf]
    | cons first calls ih =>
        intro security
        rw [List.cons_append, timesOf, timesOf, ih, List.append_assoc]
        rfl
  exact from_ _

theorem bruteForce_check (security : AuthSecurity) (username : Text) (ip : Option IpAddr)
    (clock : CheckClock) :
    (security.checkAuthAttempt username ip clock).2.bruteForce = security.bruteForce := by
  cases ip with
  | none => rfl
  | some address =>
      rw [AuthSecurity.checkAuthAttempt]
      split
      · rfl
      · split
        · rfl
        · rfl

theorem rateLimiter_check (security : AuthSecurity) (username : Text) (ip : Option IpAddr)
    (clock : CheckClock) :
    (security.checkAuthAttempt username ip clock).2.rateLimiter =
      match ip with
      | none => security.rateLimiter
      | some address => (security.rateLimiter.checkRateLimit address clock.rate).2 := by
  cases ip with
  | none => rfl
  | some address =>
      rw [AuthSecurity.checkAuthAttempt]
      dsimp only
      split
      · rfl
      · split
        · rfl
        · rfl

theorem config_checkRateLimit (limiter : RateLimiter) (address : IpAddr) (now : UInt64) :
    (limiter.checkRateLimit address now).2.config = limiter.config := by
  rw [RateLimiter.checkRateLimit]
  split
  · rfl
  · rfl

theorem configs_perform (calls : List AuthCall) :
    (perform config calls).bruteForce.config = config.bruteForce ∧
      (perform config calls).rateLimiter.config = config.rateLimit := by
  induction calls using List.reverseRecOn with
  | nil => exact ⟨rfl, rfl⟩
  | append_singleton calls call ih =>
      rw [perform_snoc]
      cases call with
      | failure username ip clock => exact ih
      | check username ip clock =>
          rw [AuthSecurity.perform, bruteForce_check, rateLimiter_check]
          refine ⟨ih.1, ?_⟩
          cases ip with
          | none => exact ih.2
          | some address => exact (config_checkRateLimit _ address _).trans ih.2

theorem RealClock.before {calls after : List AuthCall} (clock : RealClock config (calls ++ after)) :
    RealClock config calls := by
  obtain ⟨forward, rateWindow, attemptWindow⟩ := clock
  rw [List.flatMap_append] at forward rateWindow attemptWindow
  exact ⟨(List.pairwise_append.mp forward).1,
    fun reading member => rateWindow reading (List.mem_append_left _ member),
    fun reading member => attemptWindow reading (List.mem_append_left _ member)⟩

def After (calls : List AuthCall) (time : Nat) : Prop :=
  ∀ reading ∈ calls.flatMap AuthCall.readings, reading.toNat ≤ time

theorem RealClock.reading {calls : List AuthCall} {call : AuthCall}
    (clock : RealClock config (calls ++ [call])) {reading : UInt64}
    (member : reading ∈ call.readings) :
    After calls reading.toNat ∧ config.rateLimit.windowSecs ≤ reading ∧
      config.bruteForce.attemptWindowSecs ≤ reading := by
  have forward := clock.forward
  rw [List.flatMap_append, List.flatMap_singleton] at forward
  have inside : reading ∈ (calls ++ [call]).flatMap AuthCall.readings := by
    rw [List.flatMap_append, List.flatMap_singleton]
    exact List.mem_append_right _ member
  refine ⟨?_, clock.rateWindow reading inside, clock.attemptWindow reading inside⟩
  intro earlier before
  exact UInt64.le_iff_toNat_le.mp ((List.pairwise_append.mp forward).2.2 earlier before reading member)

theorem After.snoc {calls : List AuthCall} {call : AuthCall} {time : Nat}
    (after : After (calls ++ [call]) time) :
    After calls time ∧ ∀ reading ∈ call.readings, reading.toNat ≤ time := by
  rw [After, List.flatMap_append, List.flatMap_singleton] at after
  exact ⟨fun reading member => after reading (List.mem_append_left _ member),
    fun reading member => after reading (List.mem_append_right _ member)⟩

theorem filter_cutoff {window now : UInt64} (real : window ≤ now) (times : List UInt64) :
    (times.filter (now - window < ·)).map UInt64.toNat =
      (times.map UInt64.toNat).filter (recent window.toNat now.toNat) := by
  have bound := UInt64.le_iff_toNat_le.mp real
  rw [List.filter_map]
  congr 1
  apply List.filter_congr
  intro time _
  have cutoff : (now - window).toNat = now.toNat - window.toNat :=
    UInt64.toNat_sub_of_le _ _ real
  rw [Function.comp_apply, recent, decide_eq_decide, UInt64.lt_iff_toNat_lt, cutoff]
  omega

/-! The rate limit. -/

def countsOf (limiter : RateLimiter) (address : IpAddr) : List Nat :=
  ((limiter.requestCounts.lookup address).getD []).map UInt64.toNat

theorem kept_countsOf {limiter : RateLimiter} {address : IpAddr} {now : UInt64}
    (real : limiter.config.windowSecs ≤ now) :
    (limiter.kept address now).map UInt64.toNat =
      (countsOf limiter address).filter (recent limiter.config.windowSecs.toNat now.toNat) :=
  filter_cutoff real _

theorem countsOf_checkRateLimit (limiter : RateLimiter) (address other : IpAddr) (now : UInt64) :
    countsOf (limiter.checkRateLimit address now).2 other =
      if other = address then
        (limiter.kept address now).map UInt64.toNat ++
          if (limiter.checkRateLimit address now).1 then [now.toNat] else []
      else countsOf limiter other := by
  rw [RateLimiter.checkRateLimit]
  by_cases same : other = address
  · subst same
    split
    · simp [countsOf]
    · simp [countsOf]
  · split
    · simp [countsOf, same, AList.lookup_insert_ne]
    · simp [countsOf, same, AList.lookup_insert_ne]

structure RateCounted (config : SecurityConfig) (address : IpAddr) (calls : List AuthCall) :
    Prop where
  thin : Thin config.rateLimit.windowSecs.toNat config.rateLimit.maxRequests.toNat
    (passTimes config address calls)
  counted : ∀ time, After calls time →
    (passTimes config address calls).countP (recent config.rateLimit.windowSecs.toNat time) ≤
      (countsOf (perform config calls).rateLimiter address).countP
        (recent config.rateLimit.windowSecs.toNat time)

theorem RateCounted.same {address : IpAddr} {calls : List AuthCall} {call : AuthCall}
    (counted : RateCounted config address calls)
    (none : (perform config calls).passTime address call = none)
    (counts : countsOf (perform config (calls ++ [call])).rateLimiter address =
      countsOf (perform config calls).rateLimiter address) :
    RateCounted config address (calls ++ [call]) := by
  have times : passTimes config address (calls ++ [call]) = passTimes config address calls := by
    rw [passTimes, timesOf_snoc, none]
    exact List.append_nil _
  refine ⟨by rw [times]; exact counted.thin, ?_⟩
  intro time after
  rw [times, counts]
  exact counted.counted time after.snoc.1

theorem RateCounted.checked {address : IpAddr} {calls : List AuthCall}
    (counted : RateCounted config address calls) {username : Text} {readings : CheckClock}
    (clock : RealClock config (calls ++ [.check username (some address) readings])) :
    RateCounted config address (calls ++ [.check username (some address) readings]) := by
  obtain ⟨now, window, -⟩ := clock.reading (List.mem_cons_self : readings.rate ∈ [_, _, _, _])
  have same := (@configs_perform config calls).2
  have counts : countsOf (perform config
      (calls ++ [.check username (some address) readings])).rateLimiter address =
        (countsOf (perform config calls).rateLimiter address).filter
          (recent config.rateLimit.windowSecs.toNat readings.rate.toNat) ++
            if ((perform config calls).rateLimiter.checkRateLimit address readings.rate).1 then
              [readings.rate.toNat] else [] := by
    rw [perform_snoc, AuthSecurity.perform, rateLimiter_check]
    dsimp only
    rw [countsOf_checkRateLimit, if_pos rfl, kept_countsOf (by rw [same]; exact window), same]
  have times : passTimes config address (calls ++ [.check username (some address) readings]) =
      passTimes config address calls ++
        if ((perform config calls).rateLimiter.checkRateLimit address readings.rate).1 then
          [readings.rate.toNat] else [] := by
    rw [passTimes, timesOf_snoc, AuthSecurity.passTime]
    simp only [true_and]
    split
    · rfl
    · rfl
  have room : ((perform config calls).rateLimiter.checkRateLimit address readings.rate).1 = true →
      (countsOf (perform config calls).rateLimiter address).countP
        (recent config.rateLimit.windowSecs.toNat readings.rate.toNat) <
          config.rateLimit.maxRequests.toNat := by
    intro passes
    have kept := congrArg List.length
      (@kept_countsOf (perform config calls).rateLimiter address readings.rate
        (by rw [same]; exact window))
    rw [List.length_map, ← List.countP_eq_length_filter, same] at kept
    rw [← kept]
    by_contra full
    rw [RateLimiter.checkRateLimit, if_pos (by rw [same]; omega)] at passes
    cases passes
  refine ⟨?_, ?_⟩
  · rw [times]
    split
    · rename_i passes
      apply counted.thin.snoc
      have before := counted.counted readings.rate.toNat now
      have more := room passes
      rw [List.countP_append, List.countP_singleton]
      split
      · omega
      · omega
    · rw [List.append_nil]
      exact counted.thin
  · intro time after
    obtain ⟨earlier, readings_before⟩ := after.snoc
    have order := readings_before readings.rate List.mem_cons_self
    have before := counted.counted time earlier
    rw [times, counts, List.countP_append, List.countP_append, countP_recent_filter order]
    omega

theorem rateCounted (address : IpAddr) {calls : List AuthCall} (clock : RealClock config calls) :
    RateCounted config address calls := by
  induction calls using List.reverseRecOn with
  | nil => exact ⟨thin_nil _ _, fun _ _ => Nat.le_refl _⟩
  | append_singleton calls call ih =>
      have earlier := ih clock.before
      cases call with
      | failure username ip readings =>
          apply earlier.same rfl
          rw [perform_snoc]
          rfl
      | check username ip readings =>
          by_cases here : ip = some address
          · subst here
            exact earlier.checked clock
          · apply earlier.same
            · exact if_neg fun pass => here pass.1
            · rw [perform_snoc, AuthSecurity.perform, rateLimiter_check]
              cases ip with
              | none => rfl
              | some other =>
                  dsimp only
                  rw [countsOf_checkRateLimit, if_neg]
                  intro equal
                  exact here (congrArg some equal.symm)

/-! The attempts of a user. -/

theorem FailureDue.keep {username : Text} {calls : List AuthCall} {call : AuthCall}
    (due : FailureDue config username calls) (other : ¬call.fails username) :
    FailureDue config username (calls ++ [call]) := by
  obtain ⟨before, first, between, split, granted, none⟩ := due
  refine ⟨before, first, between ++ [call], by simp [split], granted, ?_⟩
  intro later member
  rcases List.mem_append.mp member with inside | last
  · exact none later inside
  · rw [List.mem_singleton.mp last]
    exact other

theorem granted_unlocked {protector : BruteForceProtector} {username : Text} {clock : CheckClock}
    (order : clock.userLock ≤ clock.unlock)
    (granted : (checkUserLock protector username clock).isOk = true) {lockout : LockoutInfo}
    (held : protector.users.locked.lookup username = some lockout) :
    lockout.unlockTime.toNat ≤ clock.unlock.toNat := by
  have later := UInt64.le_iff_toNat_le.mp order
  rw [checkUserLock, BruteForceProtector.isUserLocked, AttemptBook.isLocked, held,
    BruteForceProtector.getUnlockTime, held, Option.bind_some, Option.any_some] at granted
  by_cases locked : clock.userLock < lockout.unlockTime
  · by_cases still : clock.unlock < lockout.unlockTime
    · simp [locked, still, Except.isOk, Except.toBool] at granted
    · rw [UInt64.lt_iff_toNat_lt] at still
      omega
  · rw [UInt64.lt_iff_toNat_lt] at locked
    omega

theorem checkUserLock_of_ok {security : AuthSecurity} {username : Text} {ip : Option IpAddr}
    {clock : CheckClock} (granted : (security.checkAuthAttempt username ip clock).1.isOk = true) :
    (checkUserLock security.bruteForce username clock).isOk = true := by
  cases ip with
  | none => exact granted
  | some address =>
      rw [AuthSecurity.checkAuthAttempt] at granted
      split at granted
      · cases granted
      · split at granted
        · cases granted
        · exact granted

def failuresOf (security : AuthSecurity) (username : Text) : List Nat :=
  (security.bruteForce.users.attemptsOf username).map UInt64.toNat

/-- What was granted before any failure now due is counted as a failure, unless it has
become too old or a lockout set since is still running. -/
structure GrantsCounted (config : SecurityConfig) (username : Text) (calls : List AuthCall) :
    Prop where
  thin : Thin config.bruteForce.attemptWindowSecs.toNat config.bruteForce.maxAttempts.toNat
    (grantTimes config username calls)
  short : (failuresOf (perform config calls) username).length < config.bruteForce.maxAttempts.toNat
  past : ∀ granted ∈ grantTimes config username calls, ∀ time, After calls time → granted ≤ time
  counted : ∃ settled pending, grantTimes config username calls = settled ++ pending ∧
    (∀ time, After calls time →
      (∀ lockout, (perform config calls).bruteForce.users.locked.lookup username = some lockout →
        lockout.unlockTime.toNat ≤ time) →
      settled.countP (recent config.bruteForce.attemptWindowSecs.toNat time) ≤
        (failuresOf (perform config calls) username).countP
          (recent config.bruteForce.attemptWindowSecs.toNat time)) ∧
    (pending = [] ∨ FailureDue config username calls ∧ ∃ granted, pending = [granted])

theorem GrantsCounted.same {username : Text} {calls : List AuthCall} {call : AuthCall}
    (counted : GrantsCounted config username calls)
    (none : (perform config calls).grantTime username call = none)
    (attempts : (perform config (calls ++ [call])).bruteForce.users.attemptsOf username =
      (perform config calls).bruteForce.users.attemptsOf username)
    (locked : (perform config (calls ++ [call])).bruteForce.users.locked.lookup username =
      (perform config calls).bruteForce.users.locked.lookup username)
    (other : ¬call.fails username) : GrantsCounted config username (calls ++ [call]) := by
  have times : grantTimes config username (calls ++ [call]) = grantTimes config username calls := by
    rw [grantTimes, timesOf_snoc, none]
    exact List.append_nil _
  have failures : failuresOf (perform config (calls ++ [call])) username =
      failuresOf (perform config calls) username := congrArg (List.map UInt64.toNat) attempts
  obtain ⟨settled, pending, split, held, due⟩ := counted.counted
  refine ⟨by rw [times]; exact counted.thin, by rw [failures]; exact counted.short, ?_, ?_⟩
  · intro granted member time after
    rw [times] at member
    exact counted.past granted member time after.snoc.1
  · refine ⟨settled, pending, by rw [times, split], ?_, ?_⟩
    · intro time after ended
      rw [locked] at ended
      rw [failures]
      exact held time after.snoc.1 ended
    · rcases due with empty | ⟨due, granted⟩
      · exact Or.inl empty
      · exact Or.inr ⟨due.keep other, granted⟩

theorem GrantsCounted.granted {username : Text} {calls : List AuthCall} {ip : Option IpAddr}
    {readings : CheckClock} (counted : GrantsCounted config username calls)
    (clock : RealClock config (calls ++ [.check username ip readings]))
    (order : readings.userLock ≤ readings.unlock)
    (settledBefore : ¬FailureDue config username calls)
    (ok : ((perform config calls).checkAuthAttempt username ip readings).1.isOk = true) :
    GrantsCounted config username (calls ++ [.check username ip readings]) := by
  obtain ⟨now, -, window⟩ := clock.reading
    (show readings.unlock ∈ [_, _, _, _] by simp)
  have given : (perform config calls).grantTime username (.check username ip readings) =
      some readings.unlock.toNat := if_pos ⟨rfl, ok⟩
  have times : grantTimes config username (calls ++ [.check username ip readings]) =
      grantTimes config username calls ++ [readings.unlock.toNat] := by
    rw [grantTimes, timesOf_snoc, given]
    rfl
  have users : (perform config (calls ++ [.check username ip readings])).bruteForce =
      (perform config calls).bruteForce := by
    rw [perform_snoc, AuthSecurity.perform, bruteForce_check]
  have failures : failuresOf (perform config (calls ++ [.check username ip readings])) username =
      failuresOf (perform config calls) username := by
    rw [failuresOf, users]
    rfl
  obtain ⟨settled, pending, split, held, due⟩ := counted.counted
  have none : pending = [] := due.resolve_right fun still => settledBefore still.1
  rw [none, List.append_nil] at split
  have unlocked := fun lockout found =>
    @granted_unlocked (perform config calls).bruteForce username readings order
      (checkUserLock_of_ok ok) lockout found
  have before := held readings.unlock.toNat now unlocked
  refine ⟨?_, by rw [failures]; exact counted.short, ?_, ?_⟩
  · rw [times]
    apply counted.thin.snoc
    have few : (failuresOf (perform config calls) username).countP
        (recent config.bruteForce.attemptWindowSecs.toNat readings.unlock.toNat) ≤
          (failuresOf (perform config calls) username).length := List.countP_le_length
    have short := counted.short
    rw [split, List.countP_append, List.countP_singleton]
    split
    · omega
    · omega
  · intro granted member time after
    obtain ⟨earlier, last⟩ := after.snoc
    rw [times] at member
    rcases List.mem_append.mp member with old | new
    · exact counted.past granted old time earlier
    · rw [List.mem_singleton.mp new]
      exact last readings.unlock (by simp [AuthCall.readings])
  · refine ⟨settled, [readings.unlock.toNat], by rw [times, split], ?_, ?_⟩
    · intro time after ended
      rw [users] at ended
      rw [failures]
      exact held time after.snoc.1 ended
    · refine Or.inr ⟨⟨calls, _, [], rfl, ?_, by simp⟩, _, rfl⟩
      rw [given]
      rfl

theorem GrantsCounted.failed {username : Text} {calls : List AuthCall} {ip : Option IpAddr}
    {readings : FailureClock} (counted : GrantsCounted config username calls)
    (clock : RealClock config (calls ++ [.failure username ip readings]))
    (fixed : config.bruteForce.progressiveLockout = false)
    (wide : config.bruteForce.attemptWindowSecs ≤ config.bruteForce.lockoutDurationSecs)
    (ends : (perform config calls).bruteForce.users.locks config.bruteForce username
        ((perform config calls).bruteForce.cutoff readings.now) readings.now = true →
      readings.userLock.toNat + config.bruteForce.lockoutDurationSecs.toNat < 2 ^ 64) :
    GrantsCounted config username (calls ++ [.failure username ip readings]) := by
  obtain ⟨now, -, window⟩ := clock.reading (List.mem_cons_self : readings.now ∈ [_, _, _])
  obtain ⟨locking, -, -⟩ := clock.reading (show readings.userLock ∈ [_, _, _] by simp)
  have same := (@configs_perform config calls).1
  have book : (perform config (calls ++ [.failure username ip readings])).bruteForce.users =
      (perform config calls).bruteForce.users.record config.bruteForce username
        ((perform config calls).bruteForce.cutoff readings.now) readings.now readings.userLock := by
    rw [perform_snoc, ← same]
    rfl
  have times : grantTimes config username (calls ++ [.failure username ip readings]) =
      grantTimes config username calls := by
    rw [grantTimes, timesOf_snoc]
    exact List.append_nil _
  have kept : ((perform config calls).bruteForce.users.kept username
      ((perform config calls).bruteForce.cutoff readings.now) readings.now).map UInt64.toNat =
        (failuresOf (perform config calls) username).filter
          (recent config.bruteForce.attemptWindowSecs.toNat readings.now.toNat) ++
            [readings.now.toNat] := by
    rw [AttemptBook.kept, List.map_append, BruteForceProtector.cutoff, same, filter_cutoff window]
    rfl
  obtain ⟨settled, pending, split, held, due⟩ := counted.counted
  have past : ∀ granted ∈ grantTimes config username (calls ++ [.failure username ip readings]),
      ∀ time, After (calls ++ [.failure username ip readings]) time → granted ≤ time := by
    intro granted member time after
    rw [times] at member
    exact counted.past granted member time after.snoc.1
  by_cases locks : (perform config calls).bruteForce.users.locks config.bruteForce username
      ((perform config calls).bruteForce.cutoff readings.now) readings.now = true
  · have failures : failuresOf (perform config (calls ++ [.failure username ip readings])) username =
        [] := by
      rw [failuresOf, book, attemptsOf_record, if_pos rfl, if_pos locks]
      rfl
    have some := counted.short
    refine ⟨by rw [times]; exact counted.thin, by rw [failures]; simp only [List.length_nil]; omega,
      past, grantTimes config username calls, [], by rw [times, List.append_nil], ?_, Or.inl rfl⟩
    intro time after ended
    rw [book, locked_record, if_pos ⟨rfl, locks⟩] at ended
    have unlock := ended _ rfl
    rw [LockoutInfo.unlockTime, lockoutDuration, if_neg (by simp [fixed]), UInt64.toNat_add,
      Nat.mod_eq_of_lt (ends locks)] at unlock
    have none : (grantTimes config username calls).countP
        (recent config.bruteForce.attemptWindowSecs.toNat time) = 0 := by
      rw [List.countP_eq_zero]
      intro granted member
      have before := counted.past granted member readings.userLock.toNat locking
      have narrow := UInt64.le_iff_toNat_le.mp wide
      simp only [recent, decide_eq_true_eq]
      omega
    rw [none]
    exact Nat.zero_le _
  · have failures : failuresOf (perform config (calls ++ [.failure username ip readings])) username =
        (failuresOf (perform config calls) username).filter
          (recent config.bruteForce.attemptWindowSecs.toNat readings.now.toNat) ++
            [readings.now.toNat] := by
      rw [failuresOf, book, attemptsOf_record, if_pos rfl, if_neg locks, kept]
    refine ⟨by rw [times]; exact counted.thin, ?_, past, grantTimes config username calls, [],
      by rw [times, List.append_nil], ?_, Or.inl rfl⟩
    · have short := counted.short
      have length := congrArg List.length kept
      have filtered := List.length_filter_le
        (recent config.bruteForce.attemptWindowSecs.toNat readings.now.toNat)
        (failuresOf (perform config calls) username)
      have word := config.bruteForce.maxAttempts.toNat_lt
      rw [List.length_map, List.length_append, List.length_singleton] at length
      rw [AttemptBook.locks, decide_eq_true_eq, UInt32.le_iff_toNat_le, UInt32.toNat_ofNat',
        Nat.mod_eq_of_lt (by omega)] at locks
      rw [failures, List.length_append, List.length_singleton]
      omega
    · intro time after ended
      obtain ⟨earlier, last⟩ := after.snoc
      have order := last readings.now List.mem_cons_self
      rw [book, locked_record, if_neg fun both => locks both.2] at ended
      have before := held time earlier ended
      rw [failures, split, List.countP_append, List.countP_append, countP_recent_filter order]
      apply Nat.add_le_add before
      rcases due with empty | ⟨-, granted, single⟩
      · rw [empty]
        exact Nat.zero_le _
      · have first := counted.past granted (by rw [split, single]; simp) readings.now.toNat now
        rw [single, List.countP_singleton, List.countP_singleton]
        simp only [recent, decide_eq_true_eq]
        split
        · rw [if_pos (by omega)]
        · exact Nat.zero_le _

theorem RealClock.ordered {calls : List AuthCall} {username : Text} {ip : Option IpAddr}
    {readings : CheckClock} (clock : RealClock config (calls ++ [.check username ip readings])) :
    readings.userLock ≤ readings.unlock := by
  have forward := clock.forward
  rw [List.flatMap_append, List.flatMap_singleton] at forward
  have inner := (List.pairwise_append.mp forward).2.1
  simp only [AuthCall.readings, List.pairwise_cons] at inner
  exact inner.2.2.1 readings.unlock List.mem_cons_self

theorem grantsCounted (some : 1 ≤ config.bruteForce.maxAttempts)
    (fixed : config.bruteForce.progressiveLockout = false)
    (wide : config.bruteForce.attemptWindowSecs ≤ config.bruteForce.lockoutDurationSecs)
    (username : Text) {calls : List AuthCall} (clock : RealClock config calls)
    (follow : FailuresFollow config username calls) (ends : LockoutsEnd config calls) :
    GrantsCounted config username calls := by
  induction calls using List.reverseRecOn with
  | nil =>
      refine ⟨thin_nil _ _, UInt32.le_iff_toNat_le.mp some, ?_, [], [], rfl, ?_, Or.inl rfl⟩
      · intro granted member
        cases member
      · intro time _ _
        exact Nat.zero_le _
  | append_singleton calls call ih =>
      have earlier : GrantsCounted config username calls := by
        apply ih clock.before
        · intro before other after split
          exact follow before other (after ++ [call]) (by simp [split])
        · intro fixed before name ip readings after split
          exact ends fixed before name ip readings (after ++ [call]) (by simp [split])
      cases call with
      | failure name ip readings =>
          by_cases own : name = username
          · subst own
            exact earlier.failed clock fixed wide (ends fixed calls name ip readings [] rfl)
          · have other : username ≠ name := fun same => own same.symm
            apply earlier.same rfl
            · rw [perform_snoc]
              exact (attemptsOf_record _ _ _ _ _ _ username).trans (if_neg other)
            · rw [perform_snoc]
              exact (locked_record _ _ _ _ _ _ username).trans (if_neg fun both => other both.1)
            · exact own
      | check name ip readings =>
          have users : (perform config (calls ++ [.check name ip readings])).bruteForce =
              (perform config calls).bruteForce := by
            rw [perform_snoc, AuthSecurity.perform, bruteForce_check]
          by_cases own : name = username ∧
              ((perform config calls).checkAuthAttempt name ip readings).1.isOk
          · obtain ⟨rfl, ok⟩ := own
            exact earlier.granted clock clock.ordered (follow calls _ [] rfl rfl) ok
          · apply earlier.same
            · exact if_neg own
            · rw [users]
            · rw [users]
            · exact id

/-- Sliding windows bound the attempts, as long as the lockouts end at times the clock can
show. -/
theorem windows_bound {calls : List AuthCall} (clock : RealClock config calls)
    (ends : LockoutsEnd config calls) : WindowsBound config calls := by
  refine ⟨?_, ?_⟩
  · intro address start
    exact (rateCounted address clock).thin.count_le start
  · intro some fixed wide username follow start
    exact (grantsCounted some fixed wide username clock follow ends).thin.count_le start

end Run

def endless : SecurityConfig := ⟨⟨1, 18446744073709551615, 1, false⟩, ⟨10, 60⟩⟩

def checkAt (now : UInt64) : AuthCall := .check [] none ⟨now, now, now, now⟩

def failAt (now : UInt64) : AuthCall := .failure [] none ⟨now, now, now⟩

theorem realClock_at_once (config : SecurityConfig) (now : UInt64) {calls : List AuthCall}
    (once : ∀ reading ∈ calls.flatMap AuthCall.readings, reading = now)
    (rateWindow : config.rateLimit.windowSecs ≤ now)
    (attemptWindow : config.bruteForce.attemptWindowSecs ≤ now) : RealClock config calls := by
  refine ⟨?_, ?_, ?_⟩
  · apply List.pairwise_of_forall_mem_list
    intro first one second other
    rw [once first one, once second other]
    exact UInt64.le_refl now
  · intro reading member
    rw [once reading member]
    exact rateWindow
  · intro reading member
    rw [once reading member]
    exact attemptWindow

theorem failuresFollow_once (config : SecurityConfig) (now : UInt64) :
    FailuresFollow config [] [checkAt now, failAt now, checkAt now] := by
  rintro before call after split checks ⟨earlier, first, between, shape, granted, none⟩
  rcases before with _ | ⟨one, _ | ⟨two, _ | ⟨three, before⟩⟩⟩
  · simp at shape
  · simp only [List.cons_append, List.nil_append, List.cons.injEq] at split
    rw [← split.2.1] at checks
    exact checks
  · simp only [List.cons_append, List.nil_append, List.cons.injEq] at split
    rcases earlier with _ | ⟨other, _ | ⟨another, earlier⟩⟩
    · simp only [List.nil_append, List.cons.injEq] at shape
      exact none two (by simp [← shape.2]) (by rw [← split.2.1]; rfl)
    · simp only [List.cons_append, List.nil_append, List.cons.injEq] at shape
      rw [← shape.2.1, ← split.2.1] at granted
      cases granted
    · have sizes := congrArg List.length shape
      simp at sizes
  · have sizes := congrArg List.length split
    simp at sizes

theorem readings_once (now : UInt64) :
    ∀ reading ∈ [checkAt now, failAt now, checkAt now].flatMap AuthCall.readings, reading = now := by
  simp [checkAt, failAt, AuthCall.readings]

theorem endless_unbound :
    RealClock endless [checkAt 1000, failAt 1000, checkAt 1000] ∧
      ¬WindowsBound endless [checkAt 1000, failAt 1000, checkAt 1000] := by
  refine ⟨realClock_at_once endless 1000 (readings_once 1000) (by decide) (by decide), ?_⟩
  intro bound
  have times : grantTimes endless [] [checkAt 1000, failAt 1000, checkAt 1000] = [1000, 1000] := by
    decide +kernel
  have attempts := bound.attempts (by decide) rfl (by decide) [] (failuresFollow_once endless 1000)
    1000
  rw [times] at attempts
  exact absurd attempts (by decide)

def oneAttempt : SecurityConfig := ⟨⟨1, 900, 300, false⟩, ⟨10, 60⟩⟩

theorem oneAttempt_bound : WindowsBound oneAttempt [checkAt 1000, failAt 1000, checkAt 1000] := by
  refine windows_bound (realClock_at_once oneAttempt 1000 (readings_once 1000) (by decide) (by decide)) ?_
  intro _ before username ip readings after split _
  have member : AuthCall.failure username ip readings ∈
      [checkAt 1000, failAt 1000, checkAt 1000] := by simp [split]
  simp only [List.mem_cons, List.not_mem_nil, or_false, checkAt, failAt, reduceCtorEq, false_or,
    AuthCall.failure.injEq] at member
  rw [member.2.2]
  decide

end Security

end Rusmes
