import Mathlib.Data.List.Basic
import Mathlib.Data.List.Nodup
import Mathlib.Order.Lattice

/-!
Items of different levels in one list, in the order in which they came. Served first
is the earliest of the wanted items that no other wanted item outranks. A program may
keep a row for each level instead: the rows looked through from the highest level down
give the same item and are left the same.
-/

namespace Ranked

variable {Item Level : Type} [LinearOrder Level] (level : Item → Level)

def foremost (wanted : Item → Bool) (items : List Item) (item : Item) : Bool :=
  wanted item && items.all fun other => !wanted other || decide (level other ≤ level item)

def next (wanted : Item → Bool) (items : List Item) : Option Item :=
  items.find? (foremost level wanted items)

def rest (wanted : Item → Bool) (items : List Item) : List Item :=
  items.eraseP (foremost level wanted items)

def row (rank : Level) (items : List Item) : List Item :=
  items.filter fun item => level item = rank

@[simp] theorem row_nil (rank : Level) : row level rank [] = [] := rfl

theorem row_cons (rank : Level) (item : Item) (items : List Item) :
    row level rank (item :: items) =
      if level item = rank then item :: row level rank items else row level rank items := by
  simp [row, List.filter_cons]

theorem row_snoc (rank : Level) (items : List Item) (item : Item) :
    row level rank (items ++ [item]) =
      row level rank items ++ if level item = rank then [item] else [] := by
  rw [row, List.filter_append, List.filter_singleton, ← row]
  simp

theorem mem_row {level : Item → Level} {rank : Level} {items : List Item} {item : Item} :
    item ∈ row level rank items ↔ item ∈ items ∧ level item = rank := by
  simp [row]

theorem rows_perm {levels : List Level} (once : levels.Nodup) {items : List Item}
    (covered : ∀ item ∈ items, level item ∈ levels) :
    (levels.flatMap fun rank => row level rank items).Perm items := by
  induction levels generalizing items with
  | nil =>
      cases items with
      | nil => exact List.Perm.nil
      | cons item _ => cases covered item List.mem_cons_self
  | cons rank levels ih =>
      obtain ⟨absent, once⟩ := List.nodup_cons.mp once
      let others := items.filter fun item => !decide (level item = rank)
      have same : (levels.flatMap fun other => row level other items) =
          levels.flatMap fun other => row level other others := by
        apply List.flatMap_congr
        intro other member
        have apart : other ≠ rank := fun same => absent (same ▸ member)
        rw [row, row, List.filter_filter]
        apply List.filter_congr
        intro item _
        by_cases here : level item = other
        · simp [here, apart]
        · simp [here]
      have rest : (levels.flatMap fun other => row level other others).Perm others := by
        apply ih once
        intro item member
        obtain ⟨inside, apart⟩ := List.mem_filter.mp member
        exact (List.mem_cons.mp (covered item inside)).resolve_left (by simpa using apart)
      rw [List.flatMap_cons, same]
      exact (rest.append_left _).trans (List.filter_append_perm _ items)

variable {level} {wanted : Item → Bool} {items : List Item}

theorem next_none (level : Item → Level) (unwanted : ∀ item ∈ items, wanted item = false) :
    next level wanted items = none ∧ rest level wanted items = items := by
  have passed : ∀ item ∈ items, ¬ foremost level wanted items item = true := by
    intro item member
    simp [foremost, unwanted item member]
  exact ⟨List.find?_eq_none.mpr passed, List.eraseP_of_forall_not passed⟩

theorem wanted_of_next {item : Item} (served : next level wanted items = some item) :
    item ∈ items ∧ wanted item = true := by
  have first := List.find?_some served
  rw [foremost, Bool.and_eq_true] at first
  exact ⟨List.mem_of_find?_eq_some served, first.1⟩

theorem rest_of_none (served : next level wanted items = none) :
    rest level wanted items = items :=
  List.eraseP_of_forall_not (List.find?_eq_none.mp served)

theorem rest_perm {item : Item} (served : next level wanted items = some item) :
    items.Perm (item :: rest level wanted items) := by
  obtain ⟨first, before, after, whole, earlier⟩ := List.find?_eq_some_iff_append.mp served
  have left : rest level wanted items = before ++ after := by
    have skipped : ∀ other ∈ before, ¬ foremost level wanted items other = true := by
      intro other member
      simpa using earlier other member
    calc rest level wanted items
        = (before ++ item :: after).eraseP (foremost level wanted items) := by rw [← whole, rest]
      _ = before ++ after := by
          rw [List.eraseP_append_right _ skipped, List.eraseP_cons_of_pos first]
  have moved : (before ++ item :: after).Perm (item :: (before ++ after)) := List.perm_middle
  rwa [← whole, ← left] at moved

section First

variable {rank : Level} (above : ∀ item ∈ items, wanted item = true → level item ≤ rank)
  (held : ∃ item ∈ items, wanted item = true ∧ level item = rank)
include above held

theorem foremost_iff {item : Item} (member : item ∈ items) :
    foremost level wanted items item = (wanted item && decide (level item = rank)) := by
  rw [Bool.eq_iff_iff]
  simp only [foremost, Bool.and_eq_true, List.all_eq_true, Bool.or_eq_true, Bool.not_eq_true',
    decide_eq_true_eq]
  constructor
  · rintro ⟨picked, best⟩
    obtain ⟨top, topMember, topWanted, topRank⟩ := held
    refine ⟨picked, le_antisymm (above item member picked) ?_⟩
    have reached := (best top topMember).resolve_left (by simp [topWanted])
    rwa [topRank] at reached
  · rintro ⟨picked, same⟩
    refine ⟨picked, ?_⟩
    intro other otherMember
    cases otherWanted : wanted other with
    | false => exact Or.inl rfl
    | true => exact Or.inr (same ▸ above other otherMember otherWanted)

theorem next_of_row : next level wanted items = (row level rank items).find? wanted := by
  have same : ∀ part : List Item, (∀ item ∈ part, item ∈ items) →
      part.find? (foremost level wanted items) = (row level rank part).find? wanted := by
    intro part inside
    rw [row, List.find?_filter]
    induction part with
    | nil => rfl
    | cons item part ih =>
        have alike := foremost_iff above held (inside item List.mem_cons_self)
        rw [List.find?_cons, List.find?_cons, alike, Bool.and_comm,
          ih fun other member => inside other (List.mem_cons_of_mem item member)]
        simp
  exact same items fun _ member => member

theorem row_rest (other : Level) :
    row level other (rest level wanted items) =
      if other = rank then (row level rank items).eraseP wanted else row level other items := by
  have same : ∀ part : List Item, (∀ item ∈ part, item ∈ items) →
      row level other (part.eraseP (foremost level wanted items)) =
        if other = rank then (row level rank part).eraseP wanted else row level other part := by
    intro part inside
    induction part with
    | nil => simp
    | cons item part ih =>
        have alike := foremost_iff above held (inside item List.mem_cons_self)
        have later := ih fun other member => inside other (List.mem_cons_of_mem item member)
        rw [List.eraseP_cons, alike]
        by_cases here : other = rank
        · subst here
          rw [if_pos rfl] at later ⊢
          by_cases top : level item = other
          · cases picked : wanted item <;> simp [row_cons, top, picked, later]
          · simp [row_cons, top, later]
        · rw [if_neg here] at later ⊢
          by_cases top : level item = rank
          · have apart : level item ≠ other := fun same => here (same.symm.trans top)
            cases picked : wanted item <;> simp [row_cons, top, later, top ▸ apart]
          · simp [row_cons, top, later]
  exact same items fun _ member => member

end First

section Scan

variable {rank : Level} {lower : List Level}
  (covered : ∀ item ∈ items, wanted item = true → level item ∈ rank :: lower)
include covered

theorem covered_lower (missing : (row level rank items).find? wanted = none) :
    ∀ item ∈ items, wanted item = true → level item ∈ lower := by
  intro item member picked
  refine (List.mem_cons.mp (covered item member picked)).resolve_left ?_
  intro same
  exact List.find?_eq_none.mp missing item (mem_row.mpr ⟨member, same⟩) picked

theorem served_here (descending : (rank :: lower).Pairwise fun first second => second < first)
    {item : Item} (found : (row level rank items).find? wanted = some item) :
    next level wanted items = some item ∧ level item = rank ∧
      ∀ other, row level other (rest level wanted items) =
        if other = rank then (row level rank items).eraseP wanted else row level other items := by
  have above : ∀ item ∈ items, wanted item = true → level item ≤ rank := by
    intro item member picked
    rcases List.mem_cons.mp (covered item member picked) with same | below
    · exact le_of_eq same
    · exact le_of_lt ((List.pairwise_cons.mp descending).1 _ below)
  obtain ⟨member, same⟩ := mem_row.mp (List.mem_of_find?_eq_some found)
  have held : ∃ item ∈ items, wanted item = true ∧ level item = rank :=
    ⟨item, member, List.find?_some found, same⟩
  exact ⟨(next_of_row above held).trans found, same, row_rest above held⟩

end Scan

section Best

variable {within : Item → Item → Bool}

def best (within : Item → Item → Bool) (limit : Nat) (items : List Item) : List Item :=
  (items.mergeSort within).take limit

theorem best_length (limit : Nat) : (best within limit items).length = min limit items.length := by
  simp [best]

theorem mem_of_best {limit : Nat} {item : Item} (member : item ∈ best within limit items) :
    item ∈ items :=
  (List.mergeSort_perm items within).mem_iff.mp (List.mem_of_mem_take member)

theorem best_nodup {Name : Type} {name : Item → Name} (once : (items.map name).Nodup)
    (limit : Nat) : ((best within limit items).map name).Nodup := by
  have sorted := ((List.mergeSort_perm items within).map name).nodup_iff.mpr once
  exact sorted.sublist ((List.take_sublist limit _).map name)

variable (trans : ∀ first second third, within first second → within second third →
    within first third)
  (total : ∀ first second, within first second || within second first)
include trans total

theorem best_sorted (limit : Nat) :
    (best within limit items).Pairwise fun first second => within first second :=
  (List.pairwise_mergeSort trans total items).sublist (List.take_sublist limit _)

theorem within_of_left_out {limit : Nat} {chosen other : Item}
    (returned : chosen ∈ best within limit items) (member : other ∈ items)
    (left : other ∉ best within limit items) : within chosen other = true := by
  have sorted := List.pairwise_mergeSort trans total items
  rw [← List.take_append_drop limit (items.mergeSort within), List.pairwise_append] at sorted
  have placed := (List.mergeSort_perm items within).mem_iff.mpr member
  rw [← List.take_append_drop limit (items.mergeSort within), List.mem_append] at placed
  exact sorted.2.2 chosen returned other (placed.resolve_left left)

end Best

end Ranked
