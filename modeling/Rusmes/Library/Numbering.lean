import Mathlib.Data.List.Sort

/-!
The chosen elements of a list, numbered by their places in the list or among the chosen.
-/

namespace Rusmes

variable {α : Type}

def chosenFrom (chosen : α → Bool) (start : Nat) (values : List α) : List (α × Nat) :=
  (values.zipIdx start).filter fun entry => chosen entry.1

def ChosenFirst (chosen : α → Bool) (values : List α) : Prop :=
  ∀ before value after, values = before ++ value :: after → chosen value = true →
    ∀ other ∈ before, chosen other = true

theorem chosenFirst_cons {chosen : α → Bool} {first : α} {values : List α} :
    ChosenFirst chosen (first :: values) ↔
      if chosen first = true then ChosenFirst chosen values
      else ∀ value ∈ values, chosen value = false := by
  constructor
  · intro all
    split
    · intro before value after shape held other member
      exact all (first :: before) value after (by rw [shape]; rfl) held other
        (List.mem_cons_of_mem _ member)
    · rename_i unchosen
      intro value member
      by_contra held
      rw [Bool.not_eq_false] at held
      obtain ⟨before, after, shape⟩ := List.append_of_mem member
      exact unchosen (all (first :: before) value after (by rw [shape]; rfl) held first
        List.mem_cons_self)
  · intro rest before value after shape held other member
    cases before with
    | nil => cases member
    | cons head before =>
        obtain ⟨rfl, later⟩ := List.cons.inj shape
        split at rest
        · rename_i chosenHead
          rcases List.mem_cons.mp member with rfl | inside
          · exact chosenHead
          · exact rest before value after later held other inside
        · have inside : value ∈ values := by rw [later]; simp
          rw [rest value inside] at held
          cases held

/-- The chosen elements stand at the places they are counted at exactly when they are the
first ones. -/
theorem counted_iff_chosenFirst (chosen : α → Bool) (start : Nat) (values : List α) :
    (∀ entry ∈ (chosenFrom chosen start values).zipIdx start, entry.1.2 = entry.2) ↔
      ChosenFirst chosen values := by
  induction values generalizing start with
  | nil =>
      refine iff_of_true (by simp [chosenFrom]) ?_
      intro before value after shape
      simp at shape
  | cons first values ih =>
      rw [chosenFirst_cons, chosenFrom, List.zipIdx_cons, List.filter_cons]
      by_cases held : chosen first = true
      · rw [if_pos held, if_pos held, List.zipIdx_cons, List.forall_mem_cons, ← ih (start + 1)]
        exact and_iff_right rfl
      · rw [if_neg held, if_neg held]
        constructor
        · intro counted value member
          by_contra chosenValue
          rw [Bool.not_eq_false] at chosenValue
          cases shape : (values.zipIdx (start + 1)).filter fun entry => chosen entry.1 with
          | nil =>
              obtain ⟨place, _, found⟩ := List.getElem_of_mem member
              have there : (value, start + 1 + place) ∈ values.zipIdx (start + 1) :=
                List.mk_add_mem_zipIdx_iff_getElem?.mpr (List.getElem?_eq_some_iff.mpr ⟨_, found⟩)
              exact absurd chosenValue (List.filter_eq_nil_iff.mp shape _ there)
          | cons entry others =>
              rw [shape] at counted
              have here := counted (entry, start) (by simp [List.zipIdx_cons])
              have inside : entry ∈ values.zipIdx (start + 1) :=
                List.mem_of_mem_filter (shape ▸ List.mem_cons_self)
              have bound := List.le_snd_of_mem_zipIdx inside
              dsimp only at here
              omega
        · intro none entry member
          have empty : ((values.zipIdx (start + 1)).filter fun entry => chosen entry.1) = [] := by
            rw [List.filter_eq_nil_iff]
            intro entry inside
            rw [none entry.1 (List.fst_mem_of_mem_zipIdx inside)]
            exact Bool.false_ne_true
          rw [empty] at member
          cases member

theorem eq_of_ascending {first second : List α} (key : α → Nat)
    (ascending : first.Pairwise fun one other => key one < key other)
    (ascendingOther : second.Pairwise fun one other => key one < key other)
    (same : ∀ value, value ∈ first ↔ value ∈ second) : first = second := by
  have distinct : first.Nodup := ascending.imp fun less equal => by
    rw [equal] at less
    exact Nat.lt_irrefl _ less
  have distinctOther : second.Nodup := ascendingOther.imp fun less equal => by
    rw [equal] at less
    exact Nat.lt_irrefl _ less
  have perm : first.Perm second := (List.perm_ext_iff_of_nodup distinct distinctOther).mpr same
  refine perm.eq_of_pairwise ?_ ascending ascendingOther
  intro one other _ _ less more
  omega

end Rusmes
