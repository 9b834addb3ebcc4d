import Mathlib.Order.Defs.LinearOrder
import Rusmes.Library.Table
import Rusmes.Proto.Mime

/-!
The priority rules of `queue/priority.rs`: an attribute of the mail decides first,
then its sender, then the best of its recipients and their domains; failed attempts
raise what they say.
-/

namespace Rusmes

open WireText

inductive Priority
  | high
  | normal
  | low
  | bulk
  deriving DecidableEq, Repr

namespace Priority

def asU8 : Priority → Nat
  | .high => 3
  | .normal => 2
  | .low => 1
  | .bulk => 0

def fromU8 : Nat → Option Priority
  | 3 => some .high
  | 2 => some .normal
  | 1 => some .low
  | 0 => some .bulk
  | _ => none

theorem fromU8_asU8 (priority : Priority) : fromU8 priority.asU8 = some priority := by
  cases priority <;> rfl

theorem asU8_le (priority : Priority) : priority.asU8 ≤ 3 := by
  cases priority <;> decide

theorem asU8_fromU8 {value : Nat} (bound : value ≤ 3) :
    ((fromU8 value).getD .high).asU8 = value := by
  match value with
  | 0 | 1 | 2 | 3 => rfl
  | more + 4 => omega

theorem asU8_injective : Function.Injective asU8 := by
  intro first second same
  have read := congrArg fromU8 same
  rwa [fromU8_asU8, fromU8_asU8, Option.some.injEq] at read

/-- The derived order goes by the discriminants. -/
instance : LinearOrder Priority where
  le first second := first.asU8 ≤ second.asU8
  le_refl _ := Nat.le_refl _
  le_trans _ _ _ := Nat.le_trans
  le_antisymm _ _ below above := asU8_injective (Nat.le_antisymm below above)
  le_total _ _ := Nat.le_total _ _
  toDecidableLE _ _ := Nat.decLe _ _
  toDecidableEq := inferInstance

theorem le_def {first second : Priority} : first ≤ second ↔ first.asU8 ≤ second.asU8 := Iff.rfl

def all : List Priority := [.high, .normal, .low, .bulk]

theorem mem_all (priority : Priority) : priority ∈ all := by
  cases priority <;> decide

theorem all_descending : all.Pairwise fun first second => second < first := by decide

def parse (letters : CaseMapping) (text : Text) : Option Priority :=
  let lower := letters.toLowercase text
  if lower = "high".toList then some .high
  else if lower = "normal".toList then some .normal
  else if lower = "low".toList then some .low
  else if lower = "bulk".toList then some .bulk
  else none

def max (first second : Priority) : Priority :=
  if second.asU8 < first.asU8 then first else second

end Priority

structure PriorityConfig where
  defaultPriority : Priority
  senderPriorities : Table Text Priority
  recipientPriorities : Table Text Priority
  domainPriorities : Table Text Priority
  inheritPriorityOnRetry : Bool
  boostAfterAttempts : Option UInt32
  boostAmount : UInt8

namespace PriorityConfig

def default : PriorityConfig where
  defaultPriority := .normal
  senderPriorities := ∅
  recipientPriorities := ∅
  domainPriorities := ∅
  inheritPriorityOnRetry := true
  boostAfterAttempts := some 3
  boostAmount := 1

variable (config : PriorityConfig) (letters : CaseMapping)

def applyBoost (priority : Priority) (currentAttempts : UInt32) : Priority :=
  match config.boostAfterAttempts with
  | some boostAfter =>
      if boostAfter ≤ currentAttempts then
        let boosted := min (priority.asU8 + config.boostAmount.toNat) 255
        (Priority.fromU8 (min boosted 3)).getD .high
      else priority
  | none => priority

def attributePriority (letters : CaseMapping) (mail : Mail) : Option Priority :=
  match mail.getAttribute "priority".toList with
  | some value =>
      match value.asStr with
      | some text => Priority.parse letters text
      | none => none
  | none => none

def senderPriority (mail : Mail) : Option Priority :=
  match mail.sender with
  | some sender => config.senderPriorities.lookup sender.asString
  | none => none

def raiseTo (best found : Option Priority) : Option Priority :=
  match found with
  | some priority => some (best.elim priority fun held => held.max priority)
  | none => best

def recipientPriority (mail : Mail) : Option Priority :=
  mail.recipients.foldl (fun best recipient =>
    raiseTo (raiseTo best (config.recipientPriorities.lookup recipient.asString))
      (config.domainPriorities.lookup recipient.domain.asStr)) none

def calculatePriority (mail : Mail) (currentAttempts : UInt32) : Priority :=
  match attributePriority letters mail with
  | some priority => config.applyBoost priority currentAttempts
  | none =>
      match config.senderPriority mail with
      | some priority => config.applyBoost priority currentAttempts
      | none =>
          match config.recipientPriority mail with
          | some priority => config.applyBoost priority currentAttempts
          | none => config.applyBoost config.defaultPriority currentAttempts

theorem applyBoost_mono (priority : Priority) {fewer more : UInt32} (attempts : fewer ≤ more) :
    (config.applyBoost priority fewer).asU8 ≤ (config.applyBoost priority more).asU8 := by
  unfold applyBoost
  cases config.boostAfterAttempts with
  | none => exact Nat.le_refl _
  | some boostAfter =>
      dsimp only
      by_cases early : boostAfter ≤ fewer
      · rw [if_pos early, if_pos (UInt32.le_trans early attempts)]
      · rw [if_neg early]
        split
        · have bound := priority.asU8_le
          have raised : priority.asU8 ≤ min (min (priority.asU8 + config.boostAmount.toNat) 255) 3 := by
            omega
          rw [Priority.asU8_fromU8 (Nat.min_le_right _ 3)]
          exact raised
        · exact Nat.le_refl _

end PriorityConfig

end Rusmes
