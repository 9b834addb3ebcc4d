import Rusmes.Library.Ranked
import Rusmes.Queue.MailQueue

/-!
The entries that `get_ready_for_retry` hands to the deliverer. The map gives its entries
in an order of its own, and the clock is read anew for each of them.
-/

namespace Rusmes

open Ranked

namespace QueueEntry

/-- The comparison of `sort_by`: the priority descending, then the time ascending. -/
def retryOrder (first second : QueueEntry) : Ordering :=
  match compare second.priority first.priority with
  | .eq => compare first.nextRetry second.nextRetry
  | other => other

def Sooner (first second : QueueEntry) : Prop :=
  second.priority < first.priority ∨
    first.priority = second.priority ∧ first.nextRetry < second.nextRetry

def beforeInRetry (first second : QueueEntry) : Bool := (first.retryOrder second).isLE

theorem beforeInRetry_iff {first second : QueueEntry} :
    first.beforeInRetry second = true ↔ ¬ second.Sooner first := by
  rw [beforeInRetry, retryOrder, Sooner]
  rcases lt_trichotomy second.priority first.priority with higher | same | lower
  · simp [compare_lt_iff_lt.mpr higher, not_lt_of_gt higher, ne_of_lt higher]
  · simp [same, Nat.isLE_compare]
  · simp [compare_gt_iff_gt.mpr lower, lower]

theorem sooner_iff {first second : QueueEntry} :
    first.Sooner second ↔ second.priority.asU8 < first.priority.asU8 ∨
      first.priority.asU8 = second.priority.asU8 ∧ first.nextRetry < second.nextRetry := by
  rw [Sooner, Priority.asU8_injective.eq_iff, lt_iff_not_ge, Priority.le_def, Nat.not_le]

theorem beforeInRetry_trans (first second third : QueueEntry)
    (early : first.beforeInRetry second = true) (late : second.beforeInRetry third = true) :
    first.beforeInRetry third = true := by
  rw [beforeInRetry_iff, sooner_iff] at early late ⊢
  omega

theorem beforeInRetry_total (first second : QueueEntry) :
    (first.beforeInRetry second || second.beforeInRetry first) = true := by
  rw [Bool.or_eq_true, beforeInRetry_iff, beforeInRetry_iff, sooner_iff, sooner_iff]
  omega

end QueueEntry

namespace MailQueue

variable {δ : Type} (queue : MailQueue δ)

def getReadyForRetry (walk : Table.Walk queue.entries) (clock : MailId → Nat) (limit : Nat) :
    List QueueEntry :=
  let ready := (walk.order.filter fun found => found.2.shouldRetry (clock found.1)).map Sigma.snd
  (ready.mergeSort QueueEntry.beforeInRetry).take limit

def Waits (clock : MailId → Nat) (id : MailId) (entry : QueueEntry) : Prop :=
  queue.entries.lookup id = some entry ∧ entry.shouldRetry (clock id) = true

section Ready

variable (walk : Table.Walk queue.entries) (clock : MailId → Nat) (limit : Nat)

def readyFound : List (Sigma fun _ : MailId => QueueEntry) :=
  walk.order.filter fun found => found.2.shouldRetry (clock found.1)

theorem mem_readyFound {found : Sigma fun _ : MailId => QueueEntry} :
    found ∈ queue.readyFound walk clock ↔ queue.Waits clock found.1 found.2 := by
  rw [Waits, readyFound, List.mem_filter, walk.whole.mem_iff, ← Table.mem_entries]

theorem getReadyForRetry_eq :
    queue.getReadyForRetry walk clock limit =
      (best (fun first second => first.2.beforeInRetry second.2) limit
        (queue.readyFound walk clock)).map Sigma.snd := by
  have carried := List.map_mergeSort (l := queue.readyFound walk clock)
    (r := fun first second => first.2.beforeInRetry second.2) (s := QueueEntry.beforeInRetry)
    (f := Sigma.snd) fun _ _ _ _ => rfl
  rw [best, List.map_take, carried]
  rfl

theorem readyFound_keys_nodup : ((queue.readyFound walk clock).map Sigma.fst).Nodup := by
  have keys := (walk.whole.map Sigma.fst).nodup_iff.mpr queue.entries.nodupKeys
  exact keys.sublist (List.filter_sublist.map Sigma.fst)

/-- Entries of distinct ids come back, as many as are ready up to the limit, each of them
ready, the most urgent first; none that is left out is more urgent than one of them. -/
theorem getReadyForRetry_best :
    ∃ ids : List MailId, ids.Nodup ∧
      List.Forall₂ (queue.Waits clock) ids (queue.getReadyForRetry walk clock limit) ∧
      (queue.getReadyForRetry walk clock limit).length = min limit
        (queue.entries.entries.countP fun found => found.2.shouldRetry (clock found.1)) ∧
      (queue.getReadyForRetry walk clock limit).Pairwise
        (fun first second => ¬ QueueEntry.Sooner second first) ∧
      ∀ id other, queue.Waits clock id other → id ∉ ids →
        ∀ returned ∈ queue.getReadyForRetry walk clock limit,
          ¬ QueueEntry.Sooner other returned := by
  let within : (Sigma fun _ : MailId => QueueEntry) → (Sigma fun _ : MailId => QueueEntry) → Bool :=
    fun first second => first.2.beforeInRetry second.2
  let found := best within limit (queue.readyFound walk clock)
  have same : queue.getReadyForRetry walk clock limit = found.map Sigma.snd :=
    queue.getReadyForRetry_eq walk clock limit
  have trans : ∀ first second third, within first second → within second third →
      within first third :=
    fun first second third => QueueEntry.beforeInRetry_trans first.2 second.2 third.2
  have total : ∀ first second, within first second || within second first :=
    fun first second => QueueEntry.beforeInRetry_total first.2 second.2
  refine ⟨found.map Sigma.fst, ?_, ?_, ?_, ?_, ?_⟩
  · exact best_nodup (queue.readyFound_keys_nodup walk clock) limit
  · rw [same, List.forall₂_map_left_iff, List.forall₂_map_right_iff, List.forall₂_same]
    intro entry member
    exact (queue.mem_readyFound walk clock).mp (mem_of_best member)
  · rw [same, List.length_map, best_length, readyFound, ← List.countP_eq_length_filter,
      walk.whole.countP_eq]
  · rw [same, List.pairwise_map]
    apply (best_sorted trans total limit).imp
    intro first second sorted
    exact QueueEntry.beforeInRetry_iff.mp sorted
  · intro id other waits left returned member
    rw [same] at member
    obtain ⟨entry, inside, rfl⟩ := List.mem_map.mp member
    have absent : ⟨id, other⟩ ∉ found := fun held => left (List.mem_map_of_mem held)
    have listed : ⟨id, other⟩ ∈ queue.readyFound walk clock :=
      (queue.mem_readyFound walk clock).mpr waits
    exact QueueEntry.beforeInRetry_iff.mp (within_of_left_out trans total inside listed absent)

end Ready

end MailQueue

end Rusmes
