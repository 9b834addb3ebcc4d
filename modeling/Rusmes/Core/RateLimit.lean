import Rusmes.Library.Machine
import Rusmes.Library.Table
import Rusmes.Smtp.Network

/-!
The rate limiter of `rate_limit.rs`. Times are nanoseconds, of the monotonic clock
for connections and since the Unix epoch for messages. A count stays at or below a
limit that fits a machine word, or is not raised any more.
-/

namespace Rusmes

open WireText

inductive RateLimitKey
  | ip (addr : IpAddr)
  | sender (addr : Text)
  | ipAndSender (addr : IpAddr) (sender : Text)
  deriving DecidableEq, Repr

def RateLimitKey.toKeyString : RateLimitKey → Text
  | .ip addr => "ip:".toList ++ addr.display
  | .sender addr => "sender:".toList ++ addr
  | .ipAndSender addr name => "ip+sender:".toList ++ addr.display ++ ':' :: name

structure RateLimitConfig where
  maxConnectionsPerIp : Nat
  maxMessagesPerWindow : Nat
  windowDuration : Nat
  deriving DecidableEq, Repr

def asSecs (nanos : Nat) : Nat := nanos / 1000000000

structure BucketEntry where
  count : Nat
  windowStartSecs : Nat
  deriving DecidableEq, Repr

def BucketEntry.new (now : Nat) : BucketEntry := ⟨1, asSecs now⟩

def BucketEntry.isExpired (entry : BucketEntry) (windowDuration now : Nat) : Bool :=
  asSecs windowDuration ≤ asSecs now - entry.windowStartSecs

structure ConnectionEntry where
  count : Nat
  firstSeen : Nat
  deriving DecidableEq, Repr

abbrev Connections := Table IpAddr ConnectionEntry

abbrev Buckets := Table Text BucketEntry

def allowConnection (config : RateLimitConfig) (ip : IpAddr) (now : Nat)
    (connections : Connections) : Bool × Connections :=
  let kept := Table.retain (fun entry => now - entry.firstSeen < config.windowDuration) connections
  match kept.lookup ip with
  | some entry =>
      if config.maxConnectionsPerIp ≤ entry.count then (false, kept)
      else (true, kept.insert ip { entry with count := entry.count + 1 })
  | none => (true, kept.insert ip ⟨1, now⟩)

def releaseConnection (ip : IpAddr) (connections : Connections) : Connections :=
  match connections.lookup ip with
  | some entry =>
      if entry.count - 1 = 0 then connections.erase ip
      else connections.insert ip { entry with count := entry.count - 1 }
  | none => connections

def allowMessageKeyed (config : RateLimitConfig) (key : RateLimitKey) (now : Nat)
    (buckets : Buckets) : Bool × Buckets :=
  let name := key.toKeyString
  match buckets.lookup name with
  | some entry =>
      if entry.isExpired config.windowDuration now then (true, buckets.insert name (.new now))
      else if config.maxMessagesPerWindow ≤ entry.count then (false, buckets)
      else (true, buckets.insert name { entry with count := entry.count + 1 })
  | none => (true, buckets.insert name (.new now))

/-! Connections of one server. -/

inductive ConnectionEvent
  | accept (ip : IpAddr) (now : Nat)
  | finish (ip : IpAddr)
  deriving DecidableEq, Repr

/-- The limiter, and for each address the connections that were granted and whose task
has not released them yet. -/
structure ConnectionState where
  connections : Connections
  live : IpAddr → Nat

def ConnectionState.start : ConnectionState := ⟨∅, fun _ => 0⟩

/-- The server accepts a connection, or the task of a granted one ends and releases it. -/
def ConnectionState.step (config : RateLimitConfig) (state : ConnectionState) :
    ConnectionEvent → ConnectionState
  | .accept ip now =>
      let (granted, connections) := allowConnection config ip now state.connections
      ⟨connections, if granted then Function.update state.live ip (state.live ip + 1)
        else state.live⟩
  | .finish ip =>
      if state.live ip = 0 then state
      else ⟨releaseConnection ip state.connections,
        Function.update state.live ip (state.live ip - 1)⟩

namespace ConnectionState

variable {config : RateLimitConfig} {state : ConnectionState} {ip : IpAddr} {now : Nat}

def fresh (config : RateLimitConfig) (state : ConnectionState) (now : Nat) (ip : IpAddr) :
    Option ConnectionEntry :=
  (state.connections.lookup ip).filter fun entry => now - entry.firstSeen < config.windowDuration

theorem step_accept (config : RateLimitConfig) (state : ConnectionState) (ip : IpAddr) (now : Nat) :
    let next := state.step config (.accept ip now)
    (∃ entry, state.fresh config now ip = some entry ∧ config.maxConnectionsPerIp ≤ entry.count ∧
        next.live = state.live ∧
        ∀ other, next.connections.lookup other = state.fresh config now other) ∨
      next.live = Function.update state.live ip (state.live ip + 1) ∧
        ∃ added, (∀ other, next.connections.lookup other =
            Function.update (state.fresh config now) ip (some added) other) ∧
          ((∃ entry, state.fresh config now ip = some entry ∧
              entry.count < config.maxConnectionsPerIp ∧
              added = { entry with count := entry.count + 1 }) ∨
            state.fresh config now ip = none ∧ added = ⟨1, now⟩) := by
  intro next
  let kept := Table.retain (fun entry => now - entry.firstSeen < config.windowDuration)
    state.connections
  have lookups : ∀ other, kept.lookup other = state.fresh config now other :=
    Table.lookup_retain _ state.connections
  have inserted : ∀ added other, (kept.insert ip added).lookup other =
      Function.update (state.fresh config now) ip (some added) other := by
    intro added other
    by_cases same : other = ip
    · subst same
      rw [AList.lookup_insert, Function.update_self]
    · rw [AList.lookup_insert_ne same, Function.update_of_ne same, lookups]
  cases found : state.fresh config now ip with
  | none =>
      have allowed : allowConnection config ip now state.connections =
          (true, kept.insert ip ⟨1, now⟩) := by
        rw [allowConnection, show (Table.retain _ state.connections).lookup ip = none from
          (lookups ip).trans found]
      have shape : next = ⟨kept.insert ip ⟨1, now⟩,
          Function.update state.live ip (state.live ip + 1)⟩ := by
        simp only [next, step, allowed, if_true]
      rw [shape]
      exact .inr ⟨rfl, _, inserted _, .inr ⟨rfl, rfl⟩⟩
  | some entry =>
      have present : (Table.retain (fun entry => now - entry.firstSeen < config.windowDuration)
          state.connections).lookup ip = some entry := (lookups ip).trans found
      by_cases full : config.maxConnectionsPerIp ≤ entry.count
      · have allowed : allowConnection config ip now state.connections = (false, kept) := by
          simp only [allowConnection, present, if_pos full, kept]
        have shape : next = ⟨kept, state.live⟩ := by
          simp only [next, step, allowed, Bool.false_eq_true, if_false]
        rw [shape]
        exact .inl ⟨entry, rfl, full, rfl, lookups⟩
      · have allowed : allowConnection config ip now state.connections =
            (true, kept.insert ip { entry with count := entry.count + 1 }) := by
          simp only [allowConnection, present, if_neg full, kept]
        have shape : next = ⟨kept.insert ip { entry with count := entry.count + 1 },
            Function.update state.live ip (state.live ip + 1)⟩ := by
          simp only [next, step, allowed, if_true]
        rw [shape]
        exact .inr ⟨rfl, _, inserted _, .inl ⟨entry, rfl, Nat.lt_of_not_le full, rfl⟩⟩

def Exact (state : ConnectionState) : Prop :=
  ∀ ip, match state.connections.lookup ip with
    | some entry => entry.count = state.live ip ∧ 0 < state.live ip
    | none => state.live ip = 0

def Capped (config : RateLimitConfig) (state : ConnectionState) : Prop :=
  ∀ ip, state.live ip ≤ config.maxConnectionsPerIp

/-- A connection may be granted at all, and the window of no address with live
connections is over when the limiter prunes. -/
def Harmless (config : RateLimitConfig) (state : ConnectionState) : ConnectionEvent → Prop
  | .accept _ now => 0 < config.maxConnectionsPerIp ∧ ∀ ip entry, 0 < state.live ip →
      state.connections.lookup ip = some entry → now - entry.firstSeen < config.windowDuration
  | .finish _ => True

theorem exact_start : start.Exact := fun _ => rfl

theorem fresh_of_harmless (exactly : state.Exact) (harmless : Harmless config state (.accept ip now)) :
    ∀ other, state.fresh config now other = state.connections.lookup other := by
  intro other
  rw [fresh]
  cases found : state.connections.lookup other with
  | none => rfl
  | some entry =>
      have counted := exactly other
      rw [found] at counted
      have young := harmless.2 other entry counted.2 found
      rw [Option.filter_some, if_pos (decide_eq_true young)]

theorem step_exact {event : ConnectionEvent} (harmless : Harmless config state event)
    (exactly : state.Exact) (capped : Capped config state) :
    (state.step config event).Exact ∧ Capped config (state.step config event) := by
  cases event with
  | accept ip now =>
      have fresh := fresh_of_harmless exactly harmless
      have here := exactly ip
      rcases step_accept config state ip now with
        ⟨entry, _, _, live, lookups⟩ | ⟨live, added, lookups, source⟩
      · constructor
        · intro other
          rw [lookups, live, fresh]
          exact exactly other
        · intro other
          rw [live]
          exact capped other
      · rw [fresh] at source
        have counted : added.count = state.live ip + 1 ∧
            state.live ip + 1 ≤ config.maxConnectionsPerIp := by
          rcases source with ⟨entry, found, room, rfl⟩ | ⟨absent, rfl⟩
          · rw [found] at here
            dsimp only
            omega
          · rw [absent] at here
            have positive := harmless.1
            dsimp only at here ⊢
            omega
        constructor
        · intro other
          rw [lookups, live]
          by_cases same : other = ip
          · subst same
            rw [Function.update_self, Function.update_self]
            exact ⟨counted.1, by omega⟩
          · rw [Function.update_of_ne same, Function.update_of_ne same, fresh]
            exact exactly other
        · intro other
          rw [live]
          by_cases same : other = ip
          · subst same
            rw [Function.update_self]
            exact counted.2
          · rw [Function.update_of_ne same]
            exact capped other
  | finish ip =>
      have here := exactly ip
      rw [step]
      split
      · exact ⟨exactly, capped⟩
      · rename_i some
        cases found : state.connections.lookup ip with
        | none =>
            rw [found] at here
            exact absurd here some
        | some entry =>
            rw [found] at here
            constructor
            · intro other
              dsimp only
              rw [releaseConnection, found]
              dsimp only
              by_cases same : other = ip
              · subst same
                rw [Function.update_self]
                by_cases last : entry.count - 1 = 0
                · rw [if_pos last, AList.lookup_erase]
                  dsimp only
                  omega
                · rw [if_neg last, AList.lookup_insert]
                  dsimp only
                  omega
              · rw [Function.update_of_ne same]
                by_cases last : entry.count - 1 = 0
                · rw [if_pos last, AList.lookup_erase_ne same]
                  exact exactly other
                · rw [if_neg last, AList.lookup_insert_ne same]
                  exact exactly other
            · intro other
              by_cases same : other = ip
              · subst same
                have before := capped other
                dsimp only
                rw [Function.update_self]
                omega
              · dsimp only
                rw [Function.update_of_ne same]
                exact capped other

def Undercounted (config : RateLimitConfig) (state : ConnectionState) (now : Nat) (ip : IpAddr) :
    Prop :=
  match state.fresh config now ip with
  | some entry => entry.count < state.live ip
  | none => 0 < state.live ip

theorem Undercounted.accept (under : state.Undercounted config now ip)
    (within : state.live ip ≤ config.maxConnectionsPerIp) :
    let next := state.step config (.accept ip now)
    next.Undercounted config now ip ∧ next.live ip = state.live ip + 1 := by
  intro next
  rw [Undercounted] at under
  rcases step_accept config state ip now with
    ⟨entry, found, full, _, _⟩ | ⟨live, added, lookups, source⟩
  · rw [found] at under
    dsimp only at under
    omega
  · have raised : next.live ip = state.live ip + 1 := by
      change (state.step config (.accept ip now)).live ip = _
      rw [live, Function.update_self]
    refine ⟨?_, raised⟩
    have kept : next.fresh config now ip =
        (some added).filter fun entry => now - entry.firstSeen < config.windowDuration := by
      rw [fresh, lookups, Function.update_self]
    rw [Undercounted, kept, raised, Option.filter_some]
    have fewer : added.count < state.live ip + 1 := by
      rcases source with ⟨entry, found, _, rfl⟩ | ⟨absent, rfl⟩
      · rw [found] at under
        dsimp only at under ⊢
        omega
      · rw [absent] at under
        dsimp only at under ⊢
        omega
    split
    · rename_i entry young
      split at young
      · cases young
        exact fewer
      · cases young
    · exact Nat.succ_pos _

theorem Undercounted.exceeds (under : state.Undercounted config now ip) :
    ∃ later, ¬Capped config (List.foldl (step config) state later) := by
  induction left : config.maxConnectionsPerIp + 1 - state.live ip generalizing state with
  | zero =>
      refine ⟨[], fun capped => ?_⟩
      have bound := capped ip
      rw [List.foldl_nil] at bound
      omega
  | succ left ih =>
      obtain ⟨still, raised⟩ := under.accept (by omega)
      obtain ⟨later, exceeded⟩ := ih still (by omega)
      exact ⟨.accept ip now :: later, exceeded⟩

theorem exceeds_of_harmful {event : ConnectionEvent} (exactly : state.Exact)
    (capped : Capped config state) (harmful : ¬Harmless config state event) :
    ∃ later, ¬Capped config (List.foldl (step config) (state.step config event) later) := by
  cases event with
  | finish ip => exact absurd trivial harmful
  | accept ip now =>
      by_cases none : config.maxConnectionsPerIp = 0
      · refine ⟨[], fun bounded => ?_⟩
        have bound := bounded ip
        rcases step_accept config state ip now with ⟨entry, found, _, _, _⟩ | ⟨live, _⟩
        · have here := exactly ip
          have still := capped ip
          rw [fresh] at found
          rw [(Option.filter_eq_some_iff.mp found).1] at here
          dsimp only at here
          omega
        · rw [List.foldl_nil, live, Function.update_self] at bound
          omega
      · obtain ⟨other, entry, live, found, old⟩ : ∃ other entry, 0 < state.live other ∧
            state.connections.lookup other = some entry ∧
              ¬now - entry.firstSeen < config.windowDuration := by
          by_contra never
          refine harmful ⟨Nat.pos_of_ne_zero none, fun other entry live found => ?_⟩
          by_contra old
          exact never ⟨other, entry, live, found, old⟩
        have lost : state.fresh config now other = Option.none := by
          rw [fresh, found, Option.filter_some, if_neg (by simpa using old)]
        by_cases same : other = ip
        · subst same
          have under : state.Undercounted config now other := by
            rw [Undercounted, lost]
            exact live
          exact (under.accept (capped other)).1.exceeds
        · have under : (state.step config (.accept ip now)).Undercounted config now other := by
            rcases step_accept config state ip now with
              ⟨_, _, _, kept, lookups⟩ | ⟨kept, added, lookups, _⟩
            · rw [Undercounted, fresh, lookups, lost, kept]
              exact live
            · rw [Undercounted, fresh, lookups, Function.update_of_ne same, lost, kept,
                Function.update_of_ne same]
              exact live
          exact under.exceeds

/-- In a run whose steps are all harmless the cap holds throughout, and after the first
step that is not, some continuation exceeds it. -/
theorem capped_while_harmless (config : RateLimitConfig) (events : List ConnectionEvent)
    (harmless : ∀ done event later, events = done ++ event :: later →
      Harmless config (List.foldl (step config) start done) event) :
    (∀ done, done <+: events → Capped config (List.foldl (step config) start done)) ∧
      ∀ event, ¬Harmless config (List.foldl (step config) start events) event →
        ∃ later, ¬Capped config (List.foldl (step config) start (events ++ event :: later)) := by
  have kept : ∀ done, done <+: events → (List.foldl (step config) start done).Exact ∧
      Capped config (List.foldl (step config) start done) := by
    intro done part
    exact Machine.foldl_keeps (fun state => state.Exact ∧ Capped config state)
      (fun state event fine held => step_exact fine held.1 held.2) harmless
      ⟨exact_start, fun _ => Nat.zero_le _⟩ part
  refine ⟨fun done part => (kept done part).2, ?_⟩
  intro event harmful
  obtain ⟨exactly, capped⟩ := kept events List.prefix_rfl
  obtain ⟨later, exceeded⟩ := exceeds_of_harmful exactly capped harmful
  refine ⟨later, ?_⟩
  rw [List.foldl_append]
  exact exceeded

end ConnectionState

def localhost : IpAddr := .v4 0x7F000001

def tightConfig : RateLimitConfig := ⟨1, 1, 1000000000⟩

theorem one_connection_capped :
    ConnectionState.Capped tightConfig (List.foldl (ConnectionState.step tightConfig) .start
      [.accept localhost 0, .finish localhost, .accept localhost 5]) := by
  refine (ConnectionState.capped_while_harmless tightConfig _ ?_).1 _ List.prefix_rfl
  intro done event later split
  match done, split with
  | [], split =>
      cases split
      exact ⟨Nat.one_pos, fun ip entry live => absurd live (Nat.lt_irrefl 0)⟩
  | [_], split =>
      cases split
      exact trivial
  | [_, _], split =>
      cases split
      refine ⟨Nat.one_pos, fun ip entry live found => ?_⟩
      cases found
  | _ :: _ :: _ :: _, split => simp at split

/-- A connection that outlives the window is no longer counted. -/
theorem two_connections_exceed :
    ¬ConnectionState.Capped tightConfig (List.foldl (ConnectionState.step tightConfig) .start
      [.accept localhost 0, .accept localhost 1000000000]) := by
  intro capped
  have bound := capped localhost
  revert bound
  decide

/-! Messages. -/

structure MessageCall where
  now : Nat
  key : RateLimitKey
  deriving DecidableEq, Repr

def MessageCall.name (call : MessageCall) : Text := call.key.toKeyString

def callMessage (config : RateLimitConfig) (buckets : Buckets) (call : MessageCall) : Buckets :=
  (allowMessageKeyed config call.key call.now buckets).2

def grantedCalls (config : RateLimitConfig) (key : RateLimitKey) (counts : Nat → Bool) :
    Buckets → List MessageCall → Nat
  | _, [] => 0
  | buckets, call :: calls =>
      (if (allowMessageKeyed config call.key call.now buckets).1 ∧ call.key = key ∧
          counts call.now then 1 else 0) +
        grantedCalls config key counts (callMessage config buckets call) calls

def Opens (config : RateLimitConfig) (buckets : Buckets) (call : MessageCall) : Prop :=
  ∀ entry, buckets.lookup call.name = some entry →
    entry.isExpired config.windowDuration call.now = true

/-- After the calls a window of the key has just started: its bucket was restored, or the
last call opened it. -/
def WindowStarts (config : RateLimitConfig) (buckets : Buckets) (done : List MessageCall)
    (key : RateLimitKey) (start : Nat) : Prop :=
  (done = [] ∧ ∃ entry, buckets.lookup key.toKeyString = some entry ∧
    entry.windowStartSecs * 1000000000 = start) ∨
  ∃ before call, done = before ++ [call] ∧ call.name = key.toKeyString ∧ call.now = start ∧
    Opens config (before.foldl (callMessage config) buckets) call

section Messages

variable {config : RateLimitConfig} {buckets : Buckets} {key : RateLimitKey} {call : MessageCall}
  {counts : Nat → Bool}

theorem allowMessageKeyed_cases (config : RateLimitConfig) (buckets : Buckets) (call : MessageCall) :
    (∃ entry, buckets.lookup call.name = some entry ∧
      entry.isExpired config.windowDuration call.now = false ∧
      config.maxMessagesPerWindow ≤ entry.count ∧
      allowMessageKeyed config call.key call.now buckets = (false, buckets)) ∨
    (∃ entry, buckets.lookup call.name = some entry ∧
      entry.isExpired config.windowDuration call.now = false ∧
      entry.count < config.maxMessagesPerWindow ∧
      allowMessageKeyed config call.key call.now buckets =
        (true, buckets.insert call.name { entry with count := entry.count + 1 })) ∨
    (Opens config buckets call ∧ allowMessageKeyed config call.key call.now buckets =
      (true, buckets.insert call.name (.new call.now))) := by
  have same : call.key.toKeyString = call.name := rfl
  rw [allowMessageKeyed, same]
  cases found : buckets.lookup call.name with
  | none =>
      refine .inr (.inr ⟨?_, rfl⟩)
      intro entry present
      rw [found] at present
      cases present
  | some entry =>
      dsimp only
      cases expired : entry.isExpired config.windowDuration call.now with
      | true =>
          refine .inr (.inr ⟨?_, rfl⟩)
          intro other present
          rw [found, Option.some.injEq] at present
          rw [← present]
          exact expired
      | false =>
          by_cases full : config.maxMessagesPerWindow ≤ entry.count
          · rw [if_neg Bool.false_ne_true, if_pos full]
            exact .inl ⟨entry, rfl, expired, full, rfl⟩
          · rw [if_neg Bool.false_ne_true, if_neg full]
            exact .inr (.inl ⟨entry, rfl, expired, Nat.lt_of_not_le full, rfl⟩)

theorem lookup_callMessage_other {name : Text} (other : call.name ≠ name) :
    (callMessage config buckets call).lookup name = buckets.lookup name := by
  have inserted : ∀ entry, (buckets.insert call.name entry).lookup name = buckets.lookup name :=
    fun entry => AList.lookup_insert_ne (Ne.symm other)
  rcases allowMessageKeyed_cases config buckets call with
    ⟨_, _, _, _, ran⟩ | ⟨_, _, _, _, ran⟩ | ⟨_, ran⟩
  · rw [callMessage, ran]
  · rw [callMessage, ran, inserted]
  · rw [callMessage, ran, inserted]

theorem granted_append (config : RateLimitConfig) (key : RateLimitKey) (counts : Nat → Bool)
    (buckets : Buckets) (first second : List MessageCall) :
    grantedCalls config key counts buckets (first ++ second) = grantedCalls config key counts buckets first +
      grantedCalls config key counts (first.foldl (callMessage config) buckets) second := by
  induction first generalizing buckets with
  | nil => simp [grantedCalls]
  | cons call first ih =>
      rw [List.cons_append, grantedCalls, grantedCalls, ih, List.foldl_cons]
      omega

theorem granted_none {calls : List MessageCall}
    (none : ∀ call ∈ calls, call.key = key → counts call.now = false) :
    grantedCalls config key counts buckets calls = 0 := by
  induction calls generalizing buckets with
  | nil => rfl
  | cons call calls ih =>
      rw [grantedCalls, ih fun other member => none other (List.mem_cons_of_mem _ member), if_neg]
      rintro ⟨_, same, counted⟩
      rw [none call List.mem_cons_self same] at counted
      cases counted

def inSeconds (start secs now : Nat) : Bool := start ≤ asSecs now && asSecs now < start + secs

theorem isExpired_false {entry : BucketEntry} {windowDuration now : Nat} :
    entry.isExpired windowDuration now = false ↔
      asSecs now - entry.windowStartSecs < asSecs windowDuration := by
  rw [BucketEntry.isExpired, decide_eq_false_iff_not, Nat.not_le]

theorem granted_within {entry : BucketEntry} {calls : List MessageCall}
    (found : buckets.lookup key.toKeyString = some entry)
    (ordered : calls.Pairwise fun first second => first.now ≤ second.now) :
    grantedCalls config key (inSeconds entry.windowStartSecs (asSecs config.windowDuration)) buckets
      calls ≤ config.maxMessagesPerWindow - entry.count := by
  induction calls generalizing buckets entry with
  | nil => exact Nat.zero_le _
  | cons call calls ih =>
      rw [List.pairwise_cons] at ordered
      rw [grantedCalls]
      by_cases same : call.name = key.toKeyString
      · rcases allowMessageKeyed_cases config buckets call with
          ⟨held, present, _, full, ran⟩ | ⟨held, present, young, room, ran⟩ | ⟨opens, ran⟩
        · have later := ih found ordered.2
          rw [callMessage, ran, if_neg (by simp)]
          dsimp only
          omega
        · rw [same, found, Option.some.injEq] at present
          subst present
          have next : (buckets.insert call.name { entry with count := entry.count + 1 }).lookup
              key.toKeyString = some { entry with count := entry.count + 1 } := by
            rw [same, AList.lookup_insert]
          have later := ih next ordered.2
          rw [callMessage, ran]
          dsimp only at later ⊢
          split
          · omega
          · omega
        · have past := opens entry (same ▸ found)
          have passed : entry.windowStartSecs + asSecs config.windowDuration ≤ asSecs call.now ∨
              asSecs config.windowDuration = 0 := by
            have expired : ¬asSecs call.now - entry.windowStartSecs < asSecs config.windowDuration :=
              fun young => by
                rw [isExpired_false.mpr young] at past
                cases past
            omega
          have none : ∀ other ∈ call :: calls,
              inSeconds entry.windowStartSecs (asSecs config.windowDuration) other.now = false := by
            intro other member
            have after : call.now ≤ other.now := by
              rcases List.mem_cons.mp member with rfl | inside
              · exact Nat.le_refl _
              · exact ordered.1 other inside
            have seconds : asSecs call.now ≤ asSecs other.now := Nat.div_le_div_right after
            rw [inSeconds, Bool.and_eq_false_iff, decide_eq_false_iff_not, decide_eq_false_iff_not]
            omega
          rw [none call List.mem_cons_self, if_neg (by simp), granted_none fun other member _ =>
            none other (List.mem_cons_of_mem _ member)]
          omega
      · have different : call.key ≠ key := fun equal => same (congrArg RateLimitKey.toKeyString equal)
        rw [if_neg (by simp [different])]
        have kept := (@lookup_callMessage_other config buckets call _ same).trans found
        have later := ih kept ordered.2
        omega

structure Accounted (config : RateLimitConfig) (key : RateLimitKey) (buckets : Buckets)
    (done : List MessageCall) : Prop where
  counted : ∀ entry,
    (done.foldl (callMessage config) buckets).lookup key.toKeyString = some entry →
      grantedCalls config key (inSeconds entry.windowStartSecs (asSecs config.windowDuration)) buckets
          done ≤ entry.count ∧
        grantedCalls config key (inSeconds entry.windowStartSecs (asSecs config.windowDuration)) buckets
          done ≤ config.maxMessagesPerWindow
  current : ∀ call ∈ done, call.name = key.toKeyString → ∃ entry,
    (done.foldl (callMessage config) buckets).lookup key.toKeyString = some entry ∧
      entry.isExpired config.windowDuration call.now = false

section Accounting

variable {done : List MessageCall} {call : MessageCall}

theorem isExpired_earlier {entry : BucketEntry} {windowDuration now earlier : Nat}
    (before : earlier ≤ now) (young : entry.isExpired windowDuration now = false) :
    entry.isExpired windowDuration earlier = false := by
  rw [isExpired_false] at young ⊢
  have seconds : asSecs earlier ≤ asSecs now := Nat.div_le_div_right before
  omega

theorem granted_snoc (counts : Nat → Bool) :
    grantedCalls config key counts buckets (done ++ [call]) =
      grantedCalls config key counts buckets done +
        if (allowMessageKeyed config call.key call.now
            (done.foldl (callMessage config) buckets)).1 ∧ call.key = key ∧ counts call.now then 1
        else 0 := by
  rw [granted_append, grantedCalls, grantedCalls]
  rfl

theorem foldl_callMessage_snoc :
    (done ++ [call]).foldl (callMessage config) buckets =
      callMessage config (done.foldl (callMessage config) buckets) call := by
  rw [List.foldl_append]
  rfl

theorem accounted_found {entry : BucketEntry} (earlier : ∀ other ∈ done, other.now ≤ call.now)
    (found : (callMessage config (done.foldl (callMessage config) buckets) call).lookup
      key.toKeyString = some entry)
    (young : entry.isExpired config.windowDuration call.now = false)
    (counted : grantedCalls config key
        (inSeconds entry.windowStartSecs (asSecs config.windowDuration)) buckets (done ++ [call]) ≤
          entry.count ∧
      grantedCalls config key
        (inSeconds entry.windowStartSecs (asSecs config.windowDuration)) buckets (done ++ [call]) ≤
          config.maxMessagesPerWindow) :
    Accounted config key buckets (done ++ [call]) := by
  constructor
  · intro other held
    rw [foldl_callMessage_snoc, found, Option.some.injEq] at held
    subst held
    exact counted
  · intro other member named
    rw [foldl_callMessage_snoc]
    refine ⟨entry, found, ?_⟩
    rcases List.mem_append.mp member with inside | last
    · exact isExpired_earlier (earlier other inside) young
    · rw [List.mem_singleton.mp last]
      exact young

theorem Accounted.elsewhere (before : Accounted config key buckets done)
    (other : call.name ≠ key.toKeyString) : Accounted config key buckets (done ++ [call]) := by
  have different : call.key ≠ key := fun equal => other (congrArg RateLimitKey.toKeyString equal)
  have kept := @lookup_callMessage_other config (done.foldl (callMessage config) buckets) call _ other
  constructor
  · intro entry found
    rw [foldl_callMessage_snoc, kept] at found
    rw [granted_snoc, if_neg (by simp [different])]
    exact before.counted entry found
  · intro earlier member named
    rw [foldl_callMessage_snoc, kept]
    rcases List.mem_append.mp member with inside | last
    · exact before.current earlier inside named
    · rw [List.mem_singleton.mp last] at named
      exact absurd named other

theorem Accounted.opened (before : Accounted config key buckets done)
    (earlier : ∀ other ∈ done, other.now ≤ call.now)
    (opens : ∀ entry, (done.foldl (callMessage config) buckets).lookup key.toKeyString =
      some entry → entry.isExpired config.windowDuration call.now = true) :
    ∀ other ∈ done, other.key = key →
      inSeconds (asSecs call.now) (asSecs config.windowDuration) other.now = false := by
  intro other member named
  have seconds : asSecs other.now ≤ asSecs call.now := Nat.div_le_div_right (earlier other member)
  rw [inSeconds, Bool.and_eq_false_iff, decide_eq_false_iff_not, decide_eq_false_iff_not]
  by_contra within
  have equal : asSecs other.now = asSecs call.now := by omega
  obtain ⟨entry, found, current⟩ := before.current other member
    (congrArg RateLimitKey.toKeyString named)
  rw [isExpired_false, equal, ← isExpired_false] at current
  have expired := opens entry found
  rw [current] at expired
  cases expired

theorem accounted (positive : 0 < config.maxMessagesPerWindow)
    (lasts : 0 < asSecs config.windowDuration) (buckets : Buckets) {done : List MessageCall}
    (ordered : done.Pairwise fun first second => first.now ≤ second.now) :
    Accounted config key buckets done := by
  induction done using List.reverseRecOn with
  | nil =>
      constructor
      · intro entry _
        exact ⟨Nat.zero_le _, Nat.zero_le _⟩
      · intro call member
        cases member
  | append_singleton done call ih =>
      rw [List.pairwise_append] at ordered
      have before := ih ordered.1
      have earlier : ∀ other ∈ done, other.now ≤ call.now :=
        fun other member => ordered.2.2 other member call List.mem_cons_self
      by_cases same : call.name = key.toKeyString
      · rcases allowMessageKeyed_cases config (done.foldl (callMessage config) buckets) call with
          ⟨held, present, young, full, ran⟩ | ⟨held, present, young, room, ran⟩ | ⟨opens, ran⟩
        · rw [same] at present
          have found : (callMessage config (done.foldl (callMessage config) buckets) call).lookup
              key.toKeyString = some held := by rw [callMessage, ran, present]
          refine accounted_found earlier found young ?_
          rw [granted_snoc, ran, if_neg (by simp)]
          exact before.counted held present
        · rw [same] at present
          have counted := before.counted held present
          have found : (callMessage config (done.foldl (callMessage config) buckets) call).lookup
              key.toKeyString = some { held with count := held.count + 1 } := by
            rw [callMessage, ran, same, AList.lookup_insert]
          refine accounted_found earlier found young ?_
          rw [granted_snoc, ran]
          dsimp only at counted ⊢
          split
          · omega
          · omega
        · have found : (callMessage config (done.foldl (callMessage config) buckets) call).lookup
              key.toKeyString = some (.new call.now) := by
            rw [callMessage, ran, same, AList.lookup_insert]
          have young : (BucketEntry.new call.now).isExpired config.windowDuration call.now =
              false := by
            rw [isExpired_false, BucketEntry.new]
            dsimp only
            omega
          have none := before.opened earlier fun entry held => opens entry (same ▸ held)
          refine accounted_found earlier found young ?_
          rw [granted_snoc, show (BucketEntry.new call.now).windowStartSecs = asSecs call.now from rfl,
            granted_none none, show (BucketEntry.new call.now).count = 1 from rfl]
          split
          · omega
          · omega
      · exact before.elsewhere same

end Accounting

theorem windowStarts_found {done : List MessageCall} {start : Nat}
    (whole : start % 1000000000 = 0) (starts : WindowStarts config buckets done key start) :
    ∃ entry, (done.foldl (callMessage config) buckets).lookup key.toKeyString = some entry ∧
      entry.windowStartSecs = asSecs start := by
  rcases starts with ⟨rfl, entry, found, dated⟩ | ⟨before, call, rfl, same, rfl, opens⟩
  · refine ⟨entry, found, ?_⟩
    rw [asSecs]
    omega
  · refine ⟨.new call.now, ?_, rfl⟩
    rw [List.foldl_append, List.foldl_cons, List.foldl_nil]
    rcases allowMessageKeyed_cases config (before.foldl (callMessage config) buckets) call with
      ⟨entry, present, young, _⟩ | ⟨entry, present, young, _⟩ | ⟨_, ran⟩
    · rw [opens entry present] at young
      cases young
    · rw [opens entry present] at young
      cases young
    · rw [callMessage, ran, same, AList.lookup_insert]

theorem granted_replicate (config : RateLimitConfig) (key : RateLimitKey) (start : Nat)
    (counted : counts start = true) {count : Nat} (within : count ≤ config.maxMessagesPerWindow) :
    let calls := List.replicate count (⟨start, key⟩ : MessageCall)
    grantedCalls config key counts ∅ calls = count ∧
      ∀ entry, (calls.foldl (callMessage config) ∅).lookup key.toKeyString = some entry →
        entry.windowStartSecs = asSecs start ∧ entry.count ≤ count := by
  induction count with
  | zero =>
      refine ⟨rfl, fun entry found => ?_⟩
      cases found
  | succ count ih =>
      obtain ⟨total, dated⟩ := ih (by omega)
      let before := (List.replicate count (⟨start, key⟩ : MessageCall)).foldl (callMessage config) ∅
      have granting : ∃ added : BucketEntry,
          allowMessageKeyed config key start before =
              (true, before.insert key.toKeyString added) ∧
            added.windowStartSecs = asSecs start ∧ added.count ≤ count + 1 := by
        rcases allowMessageKeyed_cases config before ⟨start, key⟩ with
          ⟨entry, present, _, full, _⟩ | ⟨entry, present, _, _, ran⟩ | ⟨_, ran⟩
        · have small := (dated entry present).2
          omega
        · have older := dated entry present
          exact ⟨_, ran, older.1, Nat.succ_le_succ older.2⟩
        · exact ⟨_, ran, rfl, Nat.succ_le_succ (Nat.zero_le count)⟩
      obtain ⟨added, ran, placed, small⟩ := granting
      intro calls
      have shape : calls = List.replicate count ⟨start, key⟩ ++ [⟨start, key⟩] :=
        List.replicate_succ'
      rw [shape]
      constructor
      · rw [granted_append, total, grantedCalls, grantedCalls]
        change count + ((if (allowMessageKeyed config key start before).1 ∧ key = key ∧
          counts start then 1 else 0) + 0) = count + 1
        rw [ran, if_pos ⟨rfl, rfl, counted⟩]
      · intro entry found
        rw [List.foldl_append, List.foldl_cons, List.foldl_nil] at found
        change (allowMessageKeyed config key start before).2.lookup key.toKeyString = some entry
          at found
        rw [ran, AList.lookup_insert, Option.some.injEq] at found
        rw [← found]
        exact ⟨placed, small⟩

def inWindow (config : RateLimitConfig) (start now : Nat) : Bool :=
  start ≤ now && now < start + config.windowDuration

theorem inWindow_eq_true {start now : Nat} :
    inWindow config start now = true ↔ start ≤ now ∧ now < start + config.windowDuration := by
  rw [inWindow, Bool.and_eq_true, decide_eq_true_eq, decide_eq_true_eq]

theorem granted_noWindow (empty : config.windowDuration = 0) (start : Nat)
    (calls : List MessageCall) :
    grantedCalls config key (inWindow config start) buckets calls = 0 := by
  apply granted_none
  intro call _ _
  rw [Bool.eq_false_iff, ne_eq, inWindow_eq_true]
  omega

theorem inWindow_whole {start : Nat} (wholeStart : start % 1000000000 = 0)
    (wholeWindow : config.windowDuration % 1000000000 = 0) :
    inWindow config start = inSeconds (asSecs start) (asSecs config.windowDuration) := by
  funext now
  rw [Bool.eq_iff_iff, inWindow_eq_true, inSeconds, Bool.and_eq_true, decide_eq_true_eq,
    decide_eq_true_eq, asSecs, asSecs, asSecs]
  constructor
  · rintro ⟨after, before⟩
    constructor <;> omega
  · rintro ⟨after, before⟩
    constructor <;> omega

theorem granted_limit_and_one (config : RateLimitConfig) (key : RateLimitKey) {start late : Nat}
    (now : inWindow config start start = true) (inside : inWindow config start late = true)
    (past : asSecs start + asSecs config.windowDuration ≤ asSecs late) :
    grantedCalls config key (inWindow config start) ∅
      (List.replicate config.maxMessagesPerWindow ⟨start, key⟩ ++ [⟨late, key⟩]) =
        config.maxMessagesPerWindow + 1 := by
  obtain ⟨total, dated⟩ := granted_replicate config key start now
    (Nat.le_refl config.maxMessagesPerWindow)
  have more : (allowMessageKeyed config key late ((List.replicate config.maxMessagesPerWindow
      ⟨start, key⟩).foldl (callMessage config) ∅)).1 = true := by
    rcases allowMessageKeyed_cases config ((List.replicate config.maxMessagesPerWindow
      ⟨start, key⟩).foldl (callMessage config) ∅) ⟨late, key⟩ with
      ⟨entry, present, young, _⟩ | ⟨_, _, _, _, ran⟩ | ⟨_, ran⟩
    · rw [isExpired_false, (dated entry present).1] at young
      dsimp only at young
      omega
    · rw [ran]
    · rw [ran]
  rw [granted_snoc, total, if_pos ⟨more, rfl, inside⟩]

/-- A window that starts at a given time never grants more than the limit, whatever was
restored and whatever is called, exactly when it is empty, or the limit is positive and
both the start and the duration are whole seconds. -/
theorem messages_bounded_iff (config : RateLimitConfig) (start : Nat) :
    (∀ (buckets : Buckets) (key : RateLimitKey) (done later : List MessageCall),
        (done ++ later).Pairwise (fun first second => first.now ≤ second.now) →
        WindowStarts config buckets done key start →
          grantedCalls config key (inWindow config start) buckets (done ++ later) ≤
            config.maxMessagesPerWindow) ↔
      config.windowDuration = 0 ∨ 0 < config.maxMessagesPerWindow ∧
        start % 1000000000 = 0 ∧ config.windowDuration % 1000000000 = 0 := by
  constructor
  · intro bounded
    by_contra failing
    rw [not_or] at failing
    obtain ⟨lasts, failing⟩ := failing
    let key : RateLimitKey := .sender []
    let first : MessageCall := ⟨start, key⟩
    have opened : WindowStarts config ∅ [first] key start :=
      .inr ⟨[], first, rfl, rfl, rfl, fun entry found => by cases found⟩
    have now : inWindow config start start = true := by
      rw [inWindow_eq_true]
      omega
    by_cases positive : 0 < config.maxMessagesPerWindow
    · let late := max start ((asSecs start + asSecs config.windowDuration) * 1000000000)
      let last : MessageCall := ⟨late, key⟩
      have inside : inWindow config start late = true := by
        rw [inWindow_eq_true]
        simp only [late, asSecs]
        omega
      have past : asSecs start + asSecs config.windowDuration ≤ asSecs late := by
        simp only [late, asSecs]
        omega
      obtain ⟨others, limit⟩ : ∃ others, config.maxMessagesPerWindow = others + 1 :=
        ⟨config.maxMessagesPerWindow - 1, by omega⟩
      have split : [first] ++ (List.replicate others first ++ [last]) =
          List.replicate config.maxMessagesPerWindow first ++ [last] := by
        rw [limit, List.replicate_succ]
        rfl
      have ordered : ([first] ++ (List.replicate others first ++ [last])).Pairwise
          fun first second => first.now ≤ second.now := by
        rw [split, List.pairwise_append]
        refine ⟨List.pairwise_replicate.mpr (.inr (Nat.le_refl _)), List.pairwise_singleton _ _, ?_⟩
        intro one oneMember two twoMember
        rw [(List.mem_replicate.mp oneMember).2, List.mem_singleton.mp twoMember]
        exact Nat.le_max_left _ _
      have limited := bounded ∅ key [first] _ ordered opened
      rw [split, granted_limit_and_one config key now inside past] at limited
      omega
    · have limited := bounded ∅ key [first] [] (List.pairwise_singleton _ _) opened
      have granting : grantedCalls config key (inWindow config start) ∅ [first] = 1 := by
        rw [grantedCalls, grantedCalls, if_pos ⟨rfl, rfl, now⟩]
      rw [List.append_nil, granting] at limited
      omega
  · intro whole buckets key done later ordered starts
    by_cases lasts : config.windowDuration = 0
    · rw [granted_noWindow lasts]
      exact Nat.zero_le _
    · obtain ⟨positive, wholeStart, wholeWindow⟩ := whole.resolve_left lasts
      have long : 0 < asSecs config.windowDuration := by
        rw [asSecs]
        omega
      obtain ⟨entry, found, dated⟩ := windowStarts_found wholeStart starts
      rw [List.pairwise_append] at ordered
      have before := (accounted positive long buckets ordered.1).counted entry found
      have after := @granted_within config _ key entry later found ordered.2.1
      rw [dated] at before after
      rw [inWindow_whole wholeStart wholeWindow, granted_append]
      omega

end Messages

/-- A limit of no messages grants the first one. -/
theorem first_message_granted :
    let config : RateLimitConfig := ⟨1, 0, 1000000000⟩
    let first : MessageCall := ⟨0, .sender "a@b".toList⟩
    WindowStarts config ∅ [first] first.key 0 ∧
      config.maxMessagesPerWindow < grantedCalls config first.key (inWindow config 0) ∅ [first] := by
  intro config first
  exact ⟨.inr ⟨[], first, rfl, rfl, rfl, fun entry found => by cases found⟩, Nat.zero_lt_one⟩

/-! Restarts. -/

/-- The snapshot file as its next reader finds it. -/
inductive SnapshotFile
  | missing
  | unreadable
  | written (buckets : Buckets)

def snapshotToFile (buckets : Buckets) : SnapshotFile := .written buckets

/-- `none` is an error, which leaves the buckets as they are. -/
def restoreFromFile (buckets : Buckets) : SnapshotFile → Option Buckets
  | .missing => some buckets
  | .unreadable => none
  | .written saved => some saved

def newWithRestore (file : SnapshotFile) : Buckets := (restoreFromFile ∅ file).getD ∅

structure Persisted where
  buckets : Buckets
  file : SnapshotFile

inductive LimiterEvent
  | message (call : MessageCall)
  | snapshot
  | damage
  | restart

def Persisted.step (config : RateLimitConfig) (limiter : Persisted) : LimiterEvent → Persisted
  | .message call => { limiter with buckets := callMessage config limiter.buckets call }
  | .snapshot => { limiter with file := snapshotToFile limiter.buckets }
  | .damage => { limiter with file := .unreadable }
  | .restart => { limiter with buckets := newWithRestore limiter.file }

/-- The calls that the limiter still counts, and those that its file does. -/
def remember (counted : List MessageCall × List MessageCall) :
    LimiterEvent → List MessageCall × List MessageCall
  | .message call => (counted.1 ++ [call], counted.2)
  | .snapshot => (counted.1, counted.1)
  | .damage => (counted.1, [])
  | .restart => (counted.2, counted.2)

def LimiterEvent.call : LimiterEvent → Option MessageCall
  | .message call => some call
  | _ => none

def Orderly (events : List LimiterEvent) : Prop :=
  ∀ done, done ++ [.restart] <+: events → ∃ before, done = before ++ [.snapshot]

end Rusmes
