import Mathlib.Data.Nat.Basic

/-!
Keys that parties hold one at a time. A key is locked exactly while one party
holds it, and no key has two holders.
-/

structure Exclusion {Key : Type} (locked : Key → Prop) (holder : Nat → Option Key) : Prop where
  unique : ∀ first second key, holder first = some key → holder second = some key → first = second
  exact : ∀ key, locked key ↔ ∃ party, holder party = some key

namespace Exclusion

variable {Key : Type} {locked after : Key → Prop} {holder next : Nat → Option Key}

theorem start (free : ∀ key, ¬locked key) (idle : ∀ party, holder party = none) :
    Exclusion locked holder where
  unique first second key held := by
    rw [idle] at held
    cases held
  exact key := by
    constructor
    · intro taken
      exact absurd taken (free key)
    · rintro ⟨party, held⟩
      rw [idle] at held
      cases held

theorem keep (exclusion : Exclusion locked holder) (same : ∀ party, next party = holder party)
    (unchanged : ∀ key, after key ↔ locked key) : Exclusion after next where
  unique first second key := by
    rw [same, same]
    exact exclusion.unique first second key
  exact key := by
    simp only [same, unchanged]
    exact exclusion.exact key

theorem acquire (exclusion : Exclusion locked holder) {key : Key} {party : Nat}
    (free : ¬locked key) (idle : holder party = none) (takes : next party = some key)
    (others : ∀ other, other ≠ party → next other = holder other)
    (changed : ∀ other, after other ↔ other = key ∨ locked other) : Exclusion after next := by
  have held : ∀ other held, next other = some held →
      other = party ∧ held = key ∨ other ≠ party ∧ holder other = some held := by
    intro other held has
    by_cases here : other = party
    · rw [here, takes, Option.some.injEq] at has
      exact Or.inl ⟨here, has.symm⟩
    · rw [others other here] at has
      exact Or.inr ⟨here, has⟩
  constructor
  · intro first second shared firstHas secondHas
    rcases held first shared firstHas with ⟨here, same⟩ | ⟨away, has⟩
    · rcases held second shared secondHas with ⟨there, _⟩ | ⟨_, has⟩
      · rw [here, there]
      · exact absurd ((exclusion.exact key).mpr ⟨second, same ▸ has⟩) free
    · rcases held second shared secondHas with ⟨_, same⟩ | ⟨_, also⟩
      · exact absurd ((exclusion.exact key).mpr ⟨first, same ▸ has⟩) free
      · exact exclusion.unique first second shared has also
  · intro other
    rw [changed]
    constructor
    · rintro (same | taken)
      · exact ⟨party, same ▸ takes⟩
      · obtain ⟨owner, has⟩ := (exclusion.exact other).mp taken
        have away : owner ≠ party := by
          rintro rfl
          rw [idle] at has
          cases has
        exact ⟨owner, (others owner away).trans has⟩
    · rintro ⟨owner, has⟩
      rcases held owner other has with ⟨_, same⟩ | ⟨_, before⟩
      · exact Or.inl same
      · exact Or.inr ((exclusion.exact other).mpr ⟨owner, before⟩)

theorem release (exclusion : Exclusion locked holder) {party : Nat} (gone : next party = none)
    (others : ∀ other, other ≠ party → next other = holder other)
    (changed : ∀ key, after key ↔ locked key ∧ holder party ≠ some key) :
    Exclusion after next := by
  have held : ∀ other key, next other = some key → other ≠ party ∧ holder other = some key := by
    intro other key has
    have away : other ≠ party := by
      rintro rfl
      rw [gone] at has
      cases has
    exact ⟨away, others other away ▸ has⟩
  constructor
  · intro first second key firstHas secondHas
    exact exclusion.unique first second key (held first key firstHas).2 (held second key secondHas).2
  · intro key
    rw [changed]
    constructor
    · rintro ⟨taken, free⟩
      obtain ⟨owner, has⟩ := (exclusion.exact key).mp taken
      have away : owner ≠ party := by
        rintro rfl
        exact free has
      exact ⟨owner, (others owner away).trans has⟩
    · rintro ⟨owner, has⟩
      obtain ⟨away, before⟩ := held owner key has
      refine ⟨(exclusion.exact key).mpr ⟨owner, before⟩, fun also => away ?_⟩
      exact exclusion.unique owner party key before also

end Exclusion
