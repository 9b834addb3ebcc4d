import Rusmes.Queue.MailQueue

/-!
A queue store that behaves as two finite maps. An outcome is drawn for each call: it
works, it fails and leaves the maps alone, or it fails after its change. Without
outcomes left every call works.
-/

namespace Rusmes

open WireText

inductive StoreOutcome
  | works
  | refused
  | lost
  deriving DecidableEq, Repr

def StoreOutcome.writes : StoreOutcome → Bool
  | .refused => false
  | .works | .lost => true

structure QueueMaps where
  queue : Table MailId QueueEntry
  dlq : Table MailId QueueEntry
  outcomes : List StoreOutcome

namespace QueueMaps

def nextOutcome (maps : QueueMaps) : StoreOutcome := maps.outcomes.head?.getD .works

def rest (maps : QueueMaps) : QueueMaps := { maps with outcomes := maps.outcomes.tail }

def failure : Text := "store failure".toList

def write (change : QueueMaps → QueueMaps) : Effect Text QueueMaps Unit := fun maps =>
  match maps.nextOutcome with
  | .works => (.ok (), change maps.rest)
  | .refused => (.error failure, maps.rest)
  | .lost => (.error failure, change maps.rest)

def read {Value : Type} (answer : QueueMaps → Value) : Effect Text QueueMaps Value := fun maps =>
  match maps.nextOutcome with
  | .works => (.ok (answer maps.rest), maps.rest)
  | .refused | .lost => (.error failure, maps.rest)

def outcomeResult : StoreOutcome → Except Text Unit
  | .works => .ok ()
  | .refused | .lost => .error failure

theorem write_apply (change : QueueMaps → QueueMaps) (maps : QueueMaps) :
    write change maps = (outcomeResult maps.nextOutcome,
      if maps.nextOutcome.writes then change maps.rest else maps.rest) := by
  rw [write]
  cases maps.nextOutcome with
  | works => rfl
  | refused => rfl
  | lost => rfl

theorem read_state {Value : Type} (answer : QueueMaps → Value) (maps : QueueMaps) :
    (read answer maps).2 = maps.rest := by
  cases outcome : maps.nextOutcome <;> simp [read, outcome]

end QueueMaps

def mapStore : QueueStore QueueMaps where
  saveEntry entry := QueueMaps.write fun maps =>
    { maps with queue := maps.queue.insert entry.mail.id entry }
  loadEntry id := QueueMaps.read fun maps => maps.queue.lookup id
  removeEntry id := QueueMaps.write fun maps => { maps with queue := maps.queue.erase id }
  loadAllEntries := QueueMaps.read fun maps => Table.values maps.queue
  saveToDlq entry := QueueMaps.write fun maps =>
    { maps with dlq := maps.dlq.insert entry.mail.id entry }
  listDlq := QueueMaps.read fun maps => Table.values maps.dlq
  removeFromDlq id := QueueMaps.write fun maps => { maps with dlq := maps.dlq.erase id }

end Rusmes
