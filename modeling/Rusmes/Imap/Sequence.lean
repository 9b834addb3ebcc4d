import Rusmes.Storage.Types

/-!
Sequence sets of commands. A set of sequence numbers is read leniently and comes
out sorted, without repetitions; a set of UIDs is read strictly, and the hash set
the source fills with every UID of a range is kept here as the list of ranges.
-/

namespace Rusmes

open WireText

/-- The sequence sets of STORE, COPY and MOVE are not read: no message is chosen. -/
def parseSequenceSet (_sequence : Text) : List MessageId := []

def insertNumber (numbers : List Nat) (number : Nat) : List Nat :=
  if number ∈ numbers then numbers else numbers ++ [number]

/-- One part of a set of sequence numbers, for a mailbox of `count` messages. -/
def sequencePart (count : Nat) (numbers : List Nat) (text : Text) : List Nat :=
  let part := trim text
  if ':' ∈ part then
    match splitOn ':' part with
    | [first, last] =>
        let start := (parseUsize first).getD 1
        let stop := if last = ['*'] then count else (parseUsize last).getD count
        (List.range' start (min stop count + 1 - start)).foldl insertNumber numbers
    | _ => numbers
  else if part = ['*'] then
    if 0 < count then insertNumber numbers count else numbers
  else
    match parseUsize part with
    | some number => if 0 < number ∧ number ≤ count then insertNumber numbers number else numbers
    | none => numbers

def parseSequenceNumbers (sequence : Text) (count : Nat) : List Nat :=
  ((splitOn ',' sequence).foldl (sequencePart count) []).mergeSort

def appendDigit (value : Nat) (digit : Char) : Except Text Nat :=
  if ¬digit.isDigit then .error "invalid digit found in string".toList
  else
    let longer := 10 * value + (digit.toNat - '0'.toNat)
    if longer < UInt32.size then .ok longer
    else .error "number too large to fit in target type".toList

def parseU32 (text : Text) : Except Text UInt32 :=
  if text = [] then .error "cannot parse integer from empty string".toList
  else if text = ['+'] then .error "invalid digit found in string".toList
  else
    let digits := if text.head? = some '+' then text.tail else text
    (digits.foldlM appendDigit 0).map UInt32.ofNat

abbrev UidSet := List (UInt32 × UInt32)

def UidSet.contains (uids : UidSet) (uid : UInt32) : Bool :=
  uids.any fun range => range.1 ≤ uid && uid ≤ range.2

def parseUid (maxUid : UInt32) (text : Text) : Except Text UInt32 :=
  if text = ['*'] then .ok maxUid else parseU32 text

def uidPart (maxUid : UInt32) (text : Text) : Except Text (UInt32 × UInt32) := do
  let part := trim text
  if ':' ∈ part then
    match splitOn ':' part with
    | [first, last] =>
        let start ← parseUid maxUid first
        let stop ← parseUid maxUid last
        return (start, stop)
    | _ => .error ("Invalid UID range: ".toList ++ part)
  else
    let uid ← parseUid maxUid part
    return (uid, uid)

def maxUid (messages : List MessageMetadata) : UInt32 :=
  messages.foldl (fun largest metadata => max largest metadata.uid) 0

def parseUidSequenceSet (sequence : Text) (messages : List MessageMetadata) :
    Except Text UidSet :=
  (splitOn ',' sequence).mapM (uidPart (maxUid messages))

theorem nodup_insertNumber {numbers : List Nat} (distinct : numbers.Nodup) (number : Nat) :
    (insertNumber numbers number).Nodup := by
  rw [insertNumber]
  split
  · exact distinct
  · rename_i absent
    rw [List.nodup_append]
    refine ⟨distinct, List.nodup_singleton number, ?_⟩
    intro held member other last same
    rw [List.mem_singleton] at last
    exact absent (last ▸ same ▸ member)

theorem foldl_insertNumber_nodup (added : List Nat) {numbers : List Nat}
    (distinct : numbers.Nodup) : (added.foldl insertNumber numbers).Nodup := by
  induction added generalizing numbers with
  | nil => exact distinct
  | cons number added ih => exact ih (nodup_insertNumber distinct number)

theorem sequencePart_nodup (count : Nat) {numbers : List Nat} (distinct : numbers.Nodup)
    (text : Text) : (sequencePart count numbers text).Nodup := by
  rw [sequencePart]
  repeat' split
  all_goals first
    | exact distinct
    | exact nodup_insertNumber distinct _
    | exact foldl_insertNumber_nodup _ distinct

theorem parseSequenceNumbers_sorted (sequence : Text) (count : Nat) :
    (parseSequenceNumbers sequence count).Pairwise (· < ·) := by
  have distinct : ∀ (parts : List Text) (numbers : List Nat), numbers.Nodup →
      (parts.foldl (sequencePart count) numbers).Nodup := by
    intro parts
    induction parts with
    | nil => exact fun _ unique => unique
    | cons part parts ih => exact fun numbers unique => ih _ (sequencePart_nodup count unique part)
  have sorted : (parseSequenceNumbers sequence count).Pairwise (· ≤ ·) := by
    have ordered := @List.pairwise_mergeSort Nat (fun first second => decide (first ≤ second))
      (by intro first second third; simp; omega) (by intro first second; simp; omega)
      ((splitOn ',' sequence).foldl (sequencePart count) [])
    simpa [parseSequenceNumbers] using ordered
  have unique : (parseSequenceNumbers sequence count).Nodup :=
    (List.mergeSort_perm _ _).nodup_iff.mpr (distinct _ [] List.nodup_nil)
  exact (sorted.and unique).imp fun pair => Nat.lt_of_le_of_ne pair.1 pair.2

end Rusmes
