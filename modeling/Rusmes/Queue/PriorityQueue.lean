import Rusmes.Library.Machine
import Rusmes.Library.Ranked
import Rusmes.Queue.Priority

/-!
The queue of `queue/priority.rs` with a deque and a record of counts for each priority,
and what it is for: one list of the mails in the order in which they came. No section
under a lock of the counts can panic, so no lock is ever poisoned. A deque holds fewer
than `2 ^ 64` items, so their number is counted without a bound.
-/

namespace Rusmes

open Machine Ranked

structure PriorityStats where
  total : Nat
  ready : Nat
  delayed : Nat
  enqueuedTotal : UInt64
  deliveredTotal : UInt64

namespace PriorityStats

def default : PriorityStats := ⟨0, 0, 0, 0, 0⟩

def enqueued (stats : PriorityStats) : PriorityStats :=
  { stats with total := stats.total + 1, enqueuedTotal := stats.enqueuedTotal + 1 }

/-- `saturating_sub` is the subtraction of natural numbers. -/
def taken (stats : PriorityStats) : PriorityStats := { stats with total := stats.total - 1 }

def cleared (stats : PriorityStats) : PriorityStats :=
  { stats with total := 0, ready := 0, delayed := 0 }

end PriorityStats

/-- What is enqueued, and what `dequeue` gives back. -/
abbrev Arrival (T : Type) := MailId × T × Priority

namespace Arrival

variable {T : Type}

def priority (arrival : Arrival T) : Priority := arrival.2.2

def entry (arrival : Arrival T) : MailId × T := (arrival.1, arrival.2.1)

end Arrival

structure PriorityQueue (T : Type) where
  queues : Table Priority (List (MailId × T))
  config : PriorityConfig
  stats : Table Priority PriorityStats

namespace PriorityQueue

variable {T : Type}

def new (config : PriorityConfig) : PriorityQueue T where
  queues := Priority.all.foldl (fun queues priority => queues.insert priority []) ∅
  config := config
  stats := Priority.all.foldl (fun stats priority => stats.insert priority .default) ∅

variable (queue : PriorityQueue T)

def adjust (priority : Priority) (change : List (MailId × T) → List (MailId × T))
    (count : PriorityStats → PriorityStats) : PriorityQueue T :=
  { queue with
    queues := Table.adjust priority change queue.queues
    stats := Table.adjust priority count queue.stats }

def enqueue (mailId : MailId) (item : T) (priority : Priority) : PriorityQueue T :=
  queue.adjust priority (fun deque => deque ++ [(mailId, item)]) .enqueued

def dequeueFrom : List Priority → Option (Arrival T) × PriorityQueue T
  | [] => (none, queue)
  | priority :: lower =>
      match queue.queues.lookup priority with
      | some ((mailId, item) :: _) =>
          (some (mailId, item, priority), queue.adjust priority List.tail .taken)
      | _ => dequeueFrom lower

def dequeue : Option (Arrival T) × PriorityQueue T := queue.dequeueFrom Priority.all

def peekFrom : List Priority → Option (Arrival T)
  | [] => none
  | priority :: lower =>
      match queue.queues.lookup priority with
      | some ((mailId, item) :: _) => some (mailId, item, priority)
      | _ => peekFrom lower

def peek : Option (Arrival T) := queue.peekFrom Priority.all

def lenForPriority (priority : Priority) : Nat :=
  (queue.queues.lookup priority).elim 0 List.length

def len : Nat := Table.total (fun _ deque => deque.length) queue.queues

def removeFrom (mailId : MailId) : List Priority → Option (T × Priority) × PriorityQueue T
  | [] => (none, queue)
  | priority :: lower =>
      match queue.queues.lookup priority with
      | some deque =>
          match deque.findIdx? fun entry => entry.1 = mailId with
          | some position =>
              match deque[position]? with
              | some (_, item) =>
                  (some (item, priority),
                    queue.adjust priority (fun deque => deque.eraseIdx position) .taken)
              | none => removeFrom mailId lower
          | none => removeFrom mailId lower
      | none => removeFrom mailId lower

def remove (mailId : MailId) : Option (T × Priority) × PriorityQueue T :=
  queue.removeFrom mailId Priority.all

def statsForPriority (priority : Priority) : PriorityStats :=
  (queue.stats.lookup priority).getD .default

def clear : PriorityQueue T :=
  { queue with
    queues := Table.mapValues (fun _ _ => []) queue.queues
    stats := Table.mapValues (fun _ stats => stats.cleared) queue.stats }

def itemsForPriority (priority : Priority) : List (MailId × T) :=
  (queue.queues.lookup priority).getD []

end PriorityQueue

inductive QueueCall (T : Type)
  | enqueue (mailId : MailId) (item : T) (priority : Priority)
  | dequeue
  | peek
  | remove (mailId : MailId)
  | clear

inductive QueueAnswer (T : Type)
  | done
  | offered (arrival : Option (Arrival T))
  | removed (found : Option (T × Priority))

variable {T : Type}

def PriorityQueue.respond : QueueCall T → PriorityQueue T → QueueAnswer T × PriorityQueue T
  | .enqueue mailId item priority, queue => (.done, queue.enqueue mailId item priority)
  | .dequeue, queue => (.offered queue.dequeue.1, queue.dequeue.2)
  | .peek, queue => (.offered queue.peek, queue)
  | .remove mailId, queue => (.removed (queue.remove mailId).1, (queue.remove mailId).2)
  | .clear, queue => (.done, queue.clear)

/-! The stable priority list: every mail in the order in which it came. -/

namespace Arrivals

def next (wanted : Arrival T → Bool) (arrivals : List (Arrival T)) : Option (Arrival T) :=
  Ranked.next Arrival.priority wanted arrivals

def rest (wanted : Arrival T → Bool) (arrivals : List (Arrival T)) : List (Arrival T) :=
  Ranked.rest Arrival.priority wanted arrivals

def any (_ : Arrival T) : Bool := true

def named (mailId : MailId) (arrival : Arrival T) : Bool := arrival.1 = mailId

def respond : QueueCall T → List (Arrival T) → QueueAnswer T × List (Arrival T)
  | .enqueue mailId item priority, arrivals => (.done, arrivals ++ [(mailId, item, priority)])
  | .dequeue, arrivals => (.offered (next any arrivals), rest any arrivals)
  | .peek, arrivals => (.offered (next any arrivals), arrivals)
  | .remove mailId, arrivals =>
      (.removed ((next (named mailId) arrivals).map Prod.snd), rest (named mailId) arrivals)
  | .clear, _ => (.done, [])

def entries (priority : Priority) (arrivals : List (Arrival T)) : List (MailId × T) :=
  (row Arrival.priority priority arrivals).map Arrival.entry

end Arrivals

/-- Each deque holds the arrivals of its priority in their order, and its count is right. -/
structure PriorityQueue.Keeps (queue : PriorityQueue T) (arrivals : List (Arrival T)) : Prop where
  deques : ∀ priority, queue.queues.lookup priority = some (Arrivals.entries priority arrivals)
  counts : ∀ priority, ∃ stats, queue.stats.lookup priority = some stats ∧
    stats.total = (Arrivals.entries priority arrivals).length

theorem find_of_position {deque : List (Arrival T)} {test : Arrival T → Bool} {position : Nat}
    (place : deque.findIdx? test = some position) :
    ∃ arrival, deque.find? test = some arrival ∧ deque[position]? = some arrival := by
  obtain ⟨inside, picked, earlier⟩ := List.findIdx?_eq_some_iff_getElem.mp place
  refine ⟨deque[position], ?_, List.getElem?_eq_getElem inside⟩
  exact List.find?_eq_some_iff_getElem.mpr ⟨picked, position, inside, rfl, by simpa using earlier⟩

namespace PriorityQueue.Keeps

variable {queue : PriorityQueue T} {arrivals : List (Arrival T)}

theorem adjust (keeps : queue.Keeps arrivals) {priority : Priority} {after : List (Arrival T)}
    {change : List (MailId × T) → List (MailId × T)} {count : PriorityStats → PriorityStats}
    (changed : change (Arrivals.entries priority arrivals) = Arrivals.entries priority after)
    (others : ∀ other, other ≠ priority →
      Arrivals.entries other after = Arrivals.entries other arrivals)
    (counted : ∀ stats, stats.total = (Arrivals.entries priority arrivals).length →
      (count stats).total = (Arrivals.entries priority after).length) :
    (queue.adjust priority change count).Keeps after := by
  constructor
  · intro other
    rw [PriorityQueue.adjust, Table.lookup_adjust, keeps.deques other]
    by_cases same : other = priority
    · simp [same, changed]
    · simp [same, others other same]
  · intro other
    obtain ⟨stats, found, total⟩ := keeps.counts other
    rw [PriorityQueue.adjust, Table.lookup_adjust, found]
    by_cases same : other = priority
    · subst same
      exact ⟨count stats, by simp, counted stats total⟩
    · exact ⟨stats, by simp [same], by rw [others other same, total]⟩

theorem enqueue (keeps : queue.Keeps arrivals) (mailId : MailId) (item : T) (priority : Priority) :
    (queue.enqueue mailId item priority).Keeps (arrivals ++ [(mailId, item, priority)]) := by
  have grown : ∀ other, Arrivals.entries other (arrivals ++ [(mailId, item, priority)]) =
      Arrivals.entries other arrivals ++ if priority = other then [(mailId, item)] else [] := by
    intro other
    rw [Arrivals.entries, row_snoc, List.map_append, ← Arrivals.entries]
    by_cases same : priority = other <;> simp [Arrival.priority, Arrival.entry, same]
  apply keeps.adjust
  · simp [grown]
  · intro other apart
    simp [grown, Ne.symm apart]
  · intro stats total
    simp [grown, PriorityStats.enqueued, total]

theorem served (keeps : queue.Keeps arrivals) {wanted : Arrival T → Bool} {priority : Priority}
    {change : List (MailId × T) → List (MailId × T)}
    (removed : change (Arrivals.entries priority arrivals) =
      ((row Arrival.priority priority arrivals).eraseP wanted).map Arrival.entry)
    (member : ∃ arrival ∈ row Arrival.priority priority arrivals, wanted arrival = true)
    (left : ∀ other, row Arrival.priority other (Arrivals.rest wanted arrivals) =
      if other = priority then (row Arrival.priority priority arrivals).eraseP wanted
      else row Arrival.priority other arrivals) :
    (queue.adjust priority change .taken).Keeps (Arrivals.rest wanted arrivals) := by
  apply keeps.adjust
  · rw [removed, Arrivals.entries, left, if_pos rfl]
  · intro other apart
    rw [Arrivals.entries, left, if_neg apart, Arrivals.entries]
  · intro stats total
    obtain ⟨arrival, inside, picked⟩ := member
    simp only [Arrivals.entries, List.length_map] at total
    simp only [PriorityStats.taken, Arrivals.entries, left, if_pos, List.length_map,
      List.length_eraseP_of_mem inside picked, total]

theorem dequeueFrom (keeps : queue.Keeps arrivals) {levels : List Priority}
    (covered : ∀ arrival ∈ arrivals, Arrivals.any arrival = true → arrival.priority ∈ levels)
    (descending : levels.Pairwise fun first second => second < first) :
    (queue.dequeueFrom levels).1 = Arrivals.next Arrivals.any arrivals ∧
      (queue.dequeueFrom levels).2.Keeps (Arrivals.rest Arrivals.any arrivals) := by
  induction levels with
  | nil =>
      have unwanted : ∀ arrival ∈ arrivals, Arrivals.any arrival = false := by
        intro arrival member
        simpa using covered arrival member rfl
      obtain ⟨nothing, whole⟩ := next_none Arrival.priority unwanted
      rw [Arrivals.next, nothing, Arrivals.rest, whole]
      exact ⟨rfl, keeps⟩
  | cons priority lower ih =>
      have deque := keeps.deques priority
      cases held : row Arrival.priority priority arrivals with
      | nil =>
          rw [Arrivals.entries, held] at deque
          rw [PriorityQueue.dequeueFrom, deque]
          exact ih (covered_lower covered (by rw [held]; rfl)) (List.pairwise_cons.mp descending).2
      | cons arrival behind =>
          have first : (row Arrival.priority priority arrivals).find? Arrivals.any =
              some arrival := by
            rw [held]
            rfl
          obtain ⟨next, same, left⟩ := served_here covered descending first
          rw [Arrivals.entries, held] at deque
          rw [PriorityQueue.dequeueFrom, deque]
          constructor
          · rw [Arrivals.next, next, ← same]
            rfl
          · apply keeps.served _ _ left
            · rw [Arrivals.entries, held]
              rfl
            · exact ⟨arrival, List.mem_of_find?_eq_some first, rfl⟩

theorem removeFrom (keeps : queue.Keeps arrivals) (mailId : MailId) {levels : List Priority}
    (covered : ∀ arrival ∈ arrivals, Arrivals.named mailId arrival = true →
      arrival.priority ∈ levels)
    (descending : levels.Pairwise fun first second => second < first) :
    (queue.removeFrom mailId levels).1 =
        (Arrivals.next (Arrivals.named mailId) arrivals).map Prod.snd ∧
      (queue.removeFrom mailId levels).2.Keeps
        (Arrivals.rest (Arrivals.named mailId) arrivals) := by
  induction levels with
  | nil =>
      have unwanted : ∀ arrival ∈ arrivals, Arrivals.named mailId arrival = false := by
        intro arrival member
        simpa using covered arrival member
      obtain ⟨nothing, whole⟩ := next_none Arrival.priority unwanted
      rw [Arrivals.next, nothing, Arrivals.rest, whole]
      exact ⟨rfl, keeps⟩
  | cons priority lower ih =>
      have looked : (Arrivals.entries priority arrivals).findIdx?
          (fun entry => entry.1 = mailId) =
          (row Arrival.priority priority arrivals).findIdx? (Arrivals.named mailId) := by
        rw [Arrivals.entries, List.findIdx?_map]
        rfl
      rw [PriorityQueue.removeFrom, keeps.deques priority]
      dsimp only
      rw [looked]
      cases place : (row Arrival.priority priority arrivals).findIdx? (Arrivals.named mailId) with
      | none =>
          have missing : (row Arrival.priority priority arrivals).find?
              (Arrivals.named mailId) = none := by
            simpa [List.find?_eq_none] using List.findIdx?_eq_none_iff.mp place
          exact ih (covered_lower covered missing) (List.pairwise_cons.mp descending).2
      | some position =>
          obtain ⟨arrival, first, held⟩ := find_of_position place
          obtain ⟨next, same, left⟩ := served_here covered descending first
          have entry : (Arrivals.entries priority arrivals)[position]? = some arrival.entry := by
            simp [Arrivals.entries, held]
          dsimp only
          rw [entry]
          constructor
          · rw [Arrivals.next, next, ← same]
            rfl
          · apply keeps.served _ ⟨arrival, List.mem_of_find?_eq_some first,
              List.find?_some first⟩ left
            rw [Arrivals.entries, List.eraseP_eq_eraseIdx, place, List.eraseIdx_map]

theorem new (config : PriorityConfig) : (PriorityQueue.new config : PriorityQueue T).Keeps [] where
  deques := by
    intro priority
    cases priority <;> rfl
  counts := by
    intro priority
    exact ⟨.default, by cases priority <;> rfl, rfl⟩

theorem clear (keeps : queue.Keeps arrivals) : queue.clear.Keeps [] := by
  constructor
  · intro priority
    simp [PriorityQueue.clear, keeps.deques priority, Arrivals.entries]
  · intro priority
    obtain ⟨stats, found, -⟩ := keeps.counts priority
    exact ⟨stats.cleared, by simp [PriorityQueue.clear, found], rfl⟩

theorem peekFrom (keeps : queue.Keeps arrivals) (levels : List Priority) :
    queue.peekFrom levels = (queue.dequeueFrom levels).1 := by
  induction levels with
  | nil => rfl
  | cons priority lower ih =>
      rw [PriorityQueue.peekFrom, PriorityQueue.dequeueFrom, keeps.deques priority]
      cases Arrivals.entries priority arrivals with
      | nil => exact ih
      | cons entry behind => rfl

theorem respond (call : QueueCall T) (keeps : queue.Keeps arrivals) :
    (queue.respond call).1 = (Arrivals.respond call arrivals).1 ∧
      (queue.respond call).2.Keeps (Arrivals.respond call arrivals).2 := by
  have dequeued := keeps.dequeueFrom (fun arrival _ _ => Priority.mem_all arrival.priority)
    Priority.all_descending
  cases call with
  | enqueue mailId item priority => exact ⟨rfl, keeps.enqueue mailId item priority⟩
  | dequeue => exact ⟨congrArg QueueAnswer.offered dequeued.1, dequeued.2⟩
  | peek =>
      refine ⟨congrArg QueueAnswer.offered ?_, keeps⟩
      exact (keeps.peekFrom Priority.all).trans dequeued.1
  | remove mailId =>
      obtain ⟨found, left⟩ := keeps.removeFrom mailId
        (fun arrival _ _ => Priority.mem_all arrival.priority) Priority.all_descending
      exact ⟨congrArg QueueAnswer.removed found, left⟩
  | clear => exact ⟨rfl, keeps.clear⟩

theorem items (keeps : queue.Keeps arrivals) (priority : Priority) :
    queue.itemsForPriority priority = Arrivals.entries priority arrivals := by
  simp [PriorityQueue.itemsForPriority, keeps.deques]

theorem total (keeps : queue.Keeps arrivals) (priority : Priority) :
    (queue.statsForPriority priority).total = queue.lenForPriority priority := by
  obtain ⟨stats, found, total⟩ := keeps.counts priority
  simp [PriorityQueue.statsForPriority, PriorityQueue.lenForPriority, found, total, keeps.deques]

end PriorityQueue.Keeps

def PriorityQueue.held (queue : PriorityQueue T) : List (Arrival T) :=
  Priority.all.flatMap fun priority =>
    (queue.itemsForPriority priority).map fun entry => (entry.1, entry.2, priority)

def QueueCall.given : QueueCall T → List (Arrival T)
  | .enqueue mailId item priority => [(mailId, item, priority)]
  | _ => []

def QueueCall.taken : QueueCall T → QueueAnswer T → List (Arrival T)
  | .dequeue, .offered (some arrival) => [arrival]
  | .remove mailId, .removed (some found) => [(mailId, found)]
  | _, _ => []

theorem PriorityQueue.Keeps.held_perm {queue : PriorityQueue T} {arrivals : List (Arrival T)}
    (keeps : queue.Keeps arrivals) : queue.held.Perm arrivals := by
  have rows : queue.held =
      Priority.all.flatMap fun priority => row Arrival.priority priority arrivals := by
    apply List.flatMap_congr
    intro priority _
    rw [keeps.items, Arrivals.entries, List.map_map]
    conv_rhs => rw [← List.map_id (row Arrival.priority priority arrivals)]
    apply List.map_congr_left
    intro arrival member
    obtain ⟨-, same⟩ := mem_row.mp member
    simp [Arrival.entry, ← same, Arrival.priority]
  rw [rows]
  exact rows_perm _ (by decide) fun arrival _ => Priority.mem_all arrival.priority

theorem PriorityQueue.Keeps.len {queue : PriorityQueue T} {arrivals : List (Arrival T)}
    (keeps : queue.Keeps arrivals) : queue.len = arrivals.length := by
  have everywhere : ∀ priority, queue.queues.lookup priority =
      if priority ∈ Priority.all then some (Arrivals.entries priority arrivals) else none := by
    intro priority
    rw [keeps.deques, if_pos (Priority.mem_all priority)]
  have counted : queue.len = queue.held.length := by
    rw [PriorityQueue.len, Table.total_eq_sum _ _ (by decide) everywhere, PriorityQueue.held,
      List.length_flatMap]
    simp [keeps.items]
  rw [counted, keeps.held_perm.length_eq]

namespace Arrivals

theorem respond_perm {call : QueueCall T} (kept : call ≠ .clear) (arrivals : List (Arrival T)) :
    (arrivals ++ call.given).Perm
      (call.taken (respond call arrivals).1 ++ (respond call arrivals).2) := by
  cases call with
  | enqueue mailId item priority => exact List.Perm.refl _
  | peek => simp [QueueCall.given, QueueCall.taken, respond]
  | clear => exact absurd rfl kept
  | dequeue =>
      simp only [QueueCall.given, List.append_nil, respond]
      cases served : next any arrivals with
      | none => simp [QueueCall.taken, rest, rest_of_none served]
      | some arrival => exact rest_perm served
  | remove mailId =>
      simp only [QueueCall.given, List.append_nil, respond]
      cases served : next (named mailId) arrivals with
      | none => simp [QueueCall.taken, rest, rest_of_none served]
      | some arrival =>
          have same : arrival.1 = mailId := by
            simpa [named] using (wanted_of_next served).2
          have whole : (mailId, arrival.2) = arrival := by rw [← same]
          simpa [QueueCall.taken, whole, rest] using rest_perm served

theorem answers_perm {calls : List (QueueCall T)} (kept : QueueCall.clear ∉ calls)
    (arrivals : List (Arrival T)) :
    (arrivals ++ calls.flatMap QueueCall.given).Perm
      ((List.zipWith QueueCall.taken calls (answers respond calls arrivals).1).flatten ++
        (answers respond calls arrivals).2) := by
  induction calls generalizing arrivals with
  | nil => simp
  | cons call calls ih =>
      have first := respond_perm (fun same => kept (same ▸ List.mem_cons_self)) arrivals
      have others := ih (fun member => kept (List.mem_cons_of_mem call member))
        (respond call arrivals).2
      rw [answers_cons, List.flatMap_cons, List.zipWith_cons_cons, List.flatten_cons,
        ← List.append_assoc, List.append_assoc (call.taken _)]
      refine (first.append_right _).trans ?_
      rw [List.append_assoc]
      exact others.append_left _

end Arrivals

/-- Any calls on a new queue are answered as the list of arrivals answers them, and leave
the two holding the same; the counts are those of the deques, and between two clearings
what was there and what came in is what went out and what is left. -/
theorem priority_queue_refines_arrivals (config : PriorityConfig) (calls : List (QueueCall T)) :
    let queue := answers PriorityQueue.respond calls (PriorityQueue.new config)
    let arrivals := answers Arrivals.respond calls []
    queue.1 = arrivals.1 ∧
      (∀ priority, queue.2.itemsForPriority priority = Arrivals.entries priority arrivals.2) ∧
      queue.2.len = arrivals.2.length ∧
      (∀ priority,
        (queue.2.statsForPriority priority).total = queue.2.lenForPriority priority) ∧
      ∀ earlier since, calls = earlier ++ since → QueueCall.clear ∉ since →
        let start := (answers PriorityQueue.respond earlier (PriorityQueue.new config)).2
        (start.held ++ since.flatMap QueueCall.given).Perm
          ((List.zipWith QueueCall.taken since (answers PriorityQueue.respond since start).1).flatten
            ++ queue.2.held) := by
  intro queue arrivals
  obtain ⟨same, keeps⟩ := answers_refine (fun call _ _ keeps => PriorityQueue.Keeps.respond call keeps)
    calls (PriorityQueue.Keeps.new config)
  refine ⟨same, keeps.items, keeps.len, keeps.total, ?_⟩
  · intro earlier since split kept start
    obtain ⟨-, before⟩ := answers_refine
      (fun call _ _ keeps => PriorityQueue.Keeps.respond call keeps) earlier
      (PriorityQueue.Keeps.new config)
    obtain ⟨alike, after⟩ := answers_refine
      (fun call _ _ keeps => PriorityQueue.Keeps.respond call keeps) since before
    have moved := Arrivals.answers_perm kept (answers Arrivals.respond earlier []).2
    have last : queue.2 = (answers PriorityQueue.respond since start).2 := by
      simp only [queue, split, answers_append, start]
    rw [last, alike]
    exact (before.held_perm.append_right _).trans (moved.trans (after.held_perm.symm.append_left _))

end Rusmes
