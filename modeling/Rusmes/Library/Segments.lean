import Mathlib.Data.List.Basic

/-!
Ascending values gathered into segments of consecutive ones. The values are compared by a
number each of them has.
-/

section Segments

variable {α : Type} (key : α → Nat)

def gather (start stop : α) : List α → List (α × α)
  | [] => [(start, stop)]
  | value :: values =>
      if key value = key stop + 1 then gather start value values
      else (start, stop) :: gather value value values

def InSegments (segments : List (α × α)) (number : Nat) : Prop :=
  ∃ segment ∈ segments, key segment.1 ≤ number ∧ number ≤ key segment.2

variable {key} {start stop : α} {values : List α}

theorem inSegments_cons (segment : α × α) (segments : List (α × α)) (number : Nat) :
    InSegments key (segment :: segments) number ↔
      (key segment.1 ≤ number ∧ number ≤ key segment.2) ∨ InSegments key segments number := by
  simp [InSegments]

theorem gather_numbers (ordered : key start ≤ key stop) (number : Nat) :
    InSegments key (gather key start stop values) number ↔
      (key start ≤ number ∧ number ≤ key stop) ∨ ∃ value ∈ values, key value = number := by
  induction values generalizing start stop with
  | nil => simp [gather, InSegments]
  | cons value values ih =>
      rw [gather]
      split
      · next follows =>
        rw [ih (by omega), List.exists_mem_cons_iff, ← or_assoc]
        apply or_congr_left
        omega
      · rw [inSegments_cons, ih (Nat.le_refl _), List.exists_mem_cons_iff]
        apply or_congr_right
        apply or_congr_left
        omega

theorem gather_ordered (ordered : key start ≤ key stop) :
    ∀ segment ∈ gather key start stop values, key segment.1 ≤ key segment.2 := by
  induction values generalizing start stop with
  | nil => simp [gather, ordered]
  | cons value values ih =>
      rw [gather]
      split
      · next follows => exact ih (by omega)
      · rw [List.forall_mem_cons]
        exact ⟨ordered, ih (Nat.le_refl _)⟩

theorem gather_above (ordered : key start ≤ key stop)
    (ascending : (stop :: values).Pairwise fun one other => key one < key other) :
    ∀ segment ∈ gather key start stop values, key start ≤ key segment.1 := by
  induction values generalizing start stop with
  | nil => simp [gather]
  | cons value values ih =>
      rw [List.pairwise_cons] at ascending
      have above := ascending.1 value List.mem_cons_self
      rw [gather]
      split
      · exact ih (by omega) ascending.2
      · rw [List.forall_mem_cons]
        refine ⟨Nat.le_refl _, ?_⟩
        intro segment member
        have least := ih (Nat.le_refl _) ascending.2 segment member
        omega

theorem gather_apart (ordered : key start ≤ key stop)
    (ascending : (stop :: values).Pairwise fun one other => key one < key other) :
    (gather key start stop values).Pairwise fun first second =>
      key first.2 + 1 < key second.1 := by
  induction values generalizing start stop with
  | nil => simp [gather]
  | cons value values ih =>
      rw [List.pairwise_cons] at ascending
      have above := ascending.1 value List.mem_cons_self
      rw [gather]
      split
      · exact ih (by omega) ascending.2
      · next apart =>
        rw [List.pairwise_cons]
        refine ⟨?_, ih (Nat.le_refl _) ascending.2⟩
        intro segment member
        have least := gather_above (Nat.le_refl _) ascending.2 segment member
        simp only
        omega

end Segments
