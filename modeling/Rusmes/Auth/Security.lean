import Rusmes.Library.Table
import Rusmes.Proto.Mail

/-!
Brute-force protection and rate limits of `security.rs`. Times are the seconds of the wall
clock; arithmetic on them wraps as in a release build. A call reads the clock several times,
and the readings are arguments. What is logged is left out.
-/

namespace Rusmes

open WireText

namespace Security

structure BruteForceConfig where
  maxAttempts : UInt32
  lockoutDurationSecs : UInt64
  attemptWindowSecs : UInt64
  progressiveLockout : Bool
  deriving DecidableEq, Repr

structure RateLimitConfig where
  maxRequests : UInt32
  windowSecs : UInt64
  deriving DecidableEq, Repr

structure LockoutInfo where
  lockedAt : UInt64
  durationSecs : UInt64
  lockoutCount : UInt32
  deriving DecidableEq, Repr

def LockoutInfo.unlockTime (lockout : LockoutInfo) : UInt64 :=
  lockout.lockedAt + lockout.durationSecs

structure AttemptBook (Key : Type) [DecidableEq Key] where
  attempts : Table Key (List UInt64)
  locked : Table Key LockoutInfo

section Book

variable {Key : Type} [DecidableEq Key]

def AttemptBook.empty : AttemptBook Key := ⟨∅, ∅⟩

def AttemptBook.attemptsOf (book : AttemptBook Key) (key : Key) : List UInt64 :=
  (book.attempts.lookup key).getD []

def AttemptBook.isLocked (book : AttemptBook Key) (key : Key) (now : UInt64) : Bool :=
  (book.locked.lookup key).any fun lockout => now < lockout.unlockTime

def saturatingPred (count : UInt32) : UInt32 := if count = 0 then 0 else count - 1

def powerOfTwo (exponent : UInt32) : UInt64 := UInt64.ofNat (2 ^ exponent.toNat)

def lockoutCount (previous : Option LockoutInfo) : UInt32 :=
  (previous.map fun lockout => lockout.lockoutCount + 1).getD 1

def lockoutDuration (config : BruteForceConfig) (count : UInt32) : UInt64 :=
  if config.progressiveLockout then config.lockoutDurationSecs * powerOfTwo (saturatingPred count)
  else config.lockoutDurationSecs

def AttemptBook.lock (config : BruteForceConfig) (book : AttemptBook Key) (key : Key)
    (lockedAt : UInt64) : AttemptBook Key :=
  let count := lockoutCount (book.locked.lookup key)
  { locked := book.locked.insert key ⟨lockedAt, lockoutDuration config count, count⟩
    attempts := book.attempts.erase key }

def AttemptBook.kept (book : AttemptBook Key) (key : Key) (cutoff now : UInt64) : List UInt64 :=
  (book.attemptsOf key).filter (cutoff < ·) ++ [now]

def AttemptBook.locks (config : BruteForceConfig) (book : AttemptBook Key) (key : Key)
    (cutoff now : UInt64) : Bool :=
  config.maxAttempts ≤ UInt32.ofNat (book.kept key cutoff now).length

def AttemptBook.record (config : BruteForceConfig) (book : AttemptBook Key) (key : Key)
    (cutoff now lockedAt : UInt64) : AttemptBook Key :=
  let recorded := { book with attempts := book.attempts.insert key (book.kept key cutoff now) }
  if book.locks config key cutoff now then recorded.lock config key lockedAt else recorded

variable (config : BruteForceConfig) (book : AttemptBook Key) (key : Key)

theorem kept_length_le (cutoff now : UInt64) :
    (book.kept key cutoff now).length ≤ (book.attemptsOf key).length + 1 := by
  rw [AttemptBook.kept, List.length_append]
  exact Nat.succ_le_succ (List.length_filter_le _ _)

theorem attemptsOf_record (cutoff now lockedAt : UInt64) (other : Key) :
    (book.record config key cutoff now lockedAt).attemptsOf other =
      if other = key then
        if book.locks config key cutoff now then [] else book.kept key cutoff now
      else book.attemptsOf other := by
  rw [AttemptBook.record]
  by_cases same : other = key
  · subst same
    rw [if_pos rfl]
    split
    · simp [AttemptBook.lock, AttemptBook.attemptsOf, AList.lookup_erase]
    · simp [AttemptBook.attemptsOf]
  · rw [if_neg same]
    split
    · simp [AttemptBook.lock, AttemptBook.attemptsOf, AList.lookup_erase_ne same,
        AList.lookup_insert_ne same]
    · simp [AttemptBook.attemptsOf, AList.lookup_insert_ne same]

theorem locked_record (cutoff now lockedAt : UInt64) (other : Key) :
    (book.record config key cutoff now lockedAt).locked.lookup other =
      if other = key ∧ book.locks config key cutoff now then
        some ⟨lockedAt, lockoutDuration config (lockoutCount (book.locked.lookup key)),
          lockoutCount (book.locked.lookup key)⟩
      else book.locked.lookup other := by
  rw [AttemptBook.record]
  by_cases locks : book.locks config key cutoff now = true
  · by_cases same : other = key
    · subst same
      simp [locks, AttemptBook.lock]
    · simp [locks, AttemptBook.lock, same, AList.lookup_insert_ne same]
  · simp [locks]

end Book

structure BruteForceProtector where
  config : BruteForceConfig
  users : AttemptBook Text
  ips : AttemptBook IpAddr

def BruteForceProtector.new (config : BruteForceConfig) : BruteForceProtector :=
  ⟨config, .empty, .empty⟩

def BruteForceProtector.isUserLocked (protector : BruteForceProtector) (username : Text)
    (now : UInt64) : Bool :=
  protector.users.isLocked username now

def BruteForceProtector.isIpLocked (protector : BruteForceProtector) (ip : IpAddr) (now : UInt64) :
    Bool :=
  protector.ips.isLocked ip now

def BruteForceProtector.getUnlockTime (protector : BruteForceProtector) (username : Text)
    (now : UInt64) : Option UInt64 :=
  (protector.users.locked.lookup username).bind fun lockout =>
    if now < lockout.unlockTime then some (lockout.unlockTime - now) else none

/-- The readings of `record_failed_attempt` itself, of `lock_user` and of `lock_ip`. -/
structure FailureClock where
  now : UInt64
  userLock : UInt64
  ipLock : UInt64
  deriving DecidableEq, Repr

def BruteForceProtector.cutoff (protector : BruteForceProtector) (now : UInt64) : UInt64 :=
  now - protector.config.attemptWindowSecs

def BruteForceProtector.recordFailedAttempt (protector : BruteForceProtector) (username : Text)
    (ip : Option IpAddr) (clock : FailureClock) : BruteForceProtector :=
  let cutoff := protector.cutoff clock.now
  { protector with
    users := protector.users.record protector.config username cutoff clock.now clock.userLock
    ips := match ip with
      | none => protector.ips
      | some address =>
          protector.ips.record protector.config address cutoff clock.now clock.ipLock }

@[simp] theorem recordFailedAttempt_users (protector : BruteForceProtector) (username : Text)
    (ip : Option IpAddr) (clock : FailureClock) :
    (protector.recordFailedAttempt username ip clock).users =
      protector.users.record protector.config username (protector.cutoff clock.now) clock.now
        clock.userLock := rfl

structure RateLimiter where
  config : RateLimitConfig
  requestCounts : Table IpAddr (List UInt64)

def RateLimiter.new (config : RateLimitConfig) : RateLimiter := ⟨config, ∅⟩

def RateLimiter.kept (limiter : RateLimiter) (ip : IpAddr) (now : UInt64) : List UInt64 :=
  ((limiter.requestCounts.lookup ip).getD []).filter (now - limiter.config.windowSecs < ·)

def RateLimiter.checkRateLimit (limiter : RateLimiter) (ip : IpAddr) (now : UInt64) :
    Bool × RateLimiter :=
  let kept := limiter.kept ip now
  if limiter.config.maxRequests.toNat ≤ kept.length then
    (false, { limiter with requestCounts := limiter.requestCounts.insert ip kept })
  else (true, { limiter with requestCounts := limiter.requestCounts.insert ip (kept ++ [now]) })

structure SecurityConfig where
  bruteForce : BruteForceConfig
  rateLimit : RateLimitConfig

structure AuthSecurity where
  bruteForce : BruteForceProtector
  rateLimiter : RateLimiter

def AuthSecurity.new (config : SecurityConfig) : AuthSecurity :=
  ⟨.new config.bruteForce, .new config.rateLimit⟩

/-- The readings of the rate limit, of both locks and of the time that is left. -/
structure CheckClock where
  rate : UInt64
  ipLock : UInt64
  userLock : UInt64
  unlock : UInt64
  deriving DecidableEq, Repr

def lockedFor (remaining : UInt64) : Text :=
  "Account is temporarily locked. Try again in ".toList ++ decimal remaining.toNat ++
    " seconds".toList

def checkUserLock (protector : BruteForceProtector) (username : Text) (clock : CheckClock) :
    Except Text Unit :=
  if protector.isUserLocked username clock.userLock then
    match protector.getUnlockTime username clock.unlock with
    | some remaining => .error (lockedFor remaining)
    | none => .ok ()
  else .ok ()

def AuthSecurity.checkAuthAttempt (security : AuthSecurity) (username : Text)
    (ip : Option IpAddr) (clock : CheckClock) : Except Text Unit × AuthSecurity :=
  match ip with
  | none => (checkUserLock security.bruteForce username clock, security)
  | some address =>
      let limited := security.rateLimiter.checkRateLimit address clock.rate
      let counted := { security with rateLimiter := limited.2 }
      if ¬limited.1 then (.error "Rate limit exceeded for IP address".toList, counted)
      else if security.bruteForce.isIpLocked address clock.ipLock then
        (.error "IP address is temporarily locked".toList, counted)
      else (checkUserLock security.bruteForce username clock, counted)

def AuthSecurity.recordAuthFailure (security : AuthSecurity) (username : Text)
    (ip : Option IpAddr) (clock : FailureClock) : AuthSecurity :=
  { security with bruteForce := security.bruteForce.recordFailedAttempt username ip clock }

end Security

end Rusmes
