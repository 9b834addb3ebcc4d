import Mathlib.Data.List.AList
import Mathlib.Algebra.Order.BigOperators.Group.List
import Mathlib.Algebra.Order.Ring.Nat

/-!
Finite tables with one value for each key: changing the values in place and
adding up a weight over the entries.
-/

abbrev Table (Key Value : Type) := AList fun _ : Key => Value

namespace Table

variable {Key Value : Type}

def mapValues (change : Key → Value → Value) (table : Table Key Value) : Table Key Value where
  entries := table.entries.map fun entry => ⟨entry.1, change entry.1 entry.2⟩
  nodupKeys := by
    have keys : (table.entries.map fun entry =>
        (⟨entry.1, change entry.1 entry.2⟩ : Sigma fun _ : Key => Value)).keys =
        table.entries.keys := by
      simp [List.keys]
    rw [List.NodupKeys, keys]
    exact table.nodupKeys

theorem keys_mapValues (change : Key → Value → Value) (table : Table Key Value) :
    (mapValues change table).keys = table.keys := by
  simp [mapValues, AList.keys, List.keys]

def total (weight : Key → Value → Nat) (table : Table Key Value) : Nat :=
  (table.entries.map fun entry => weight entry.1 entry.2).sum

theorem total_mapValues (weight : Key → Value → Nat) (change : Key → Value → Value)
    (table : Table Key Value) :
    total weight (mapValues change table) =
      total (fun key value => weight key (change key value)) table := by
  simp [total, mapValues, Function.comp_def]

theorem total_congr {first second : Key → Value → Nat} {table : Table Key Value}
    (same : ∀ entry ∈ table.entries, first entry.1 entry.2 = second entry.1 entry.2) :
    total first table = total second table := by
  simp only [total, List.map_congr_left same]

theorem total_lt {first second : Key → Value → Nat} {table : Table Key Value}
    (within : ∀ entry ∈ table.entries, first entry.1 entry.2 ≤ second entry.1 entry.2)
    (less : ∃ entry ∈ table.entries, first entry.1 entry.2 < second entry.1 entry.2) :
    total first table < total second table :=
  List.sum_lt_sum _ _ within less

@[simp] theorem total_empty (weight : Key → Value → Nat) :
    total weight (∅ : Table Key Value) = 0 := rfl

variable [DecidableEq Key]

@[simp] theorem lookup_mapValues (change : Key → Value → Value) (table : Table Key Value)
    (key : Key) : (mapValues change table).lookup key = (table.lookup key).map (change key) := by
  obtain ⟨entries, nodup⟩ := table
  simp only [mapValues, AList.lookup]
  clear nodup
  induction entries with
  | nil => rfl
  | cons entry rest ih =>
      obtain ⟨first, value⟩ := entry
      by_cases same : first = key
      · subst same
        simp
      · rw [List.map_cons, List.dlookup_cons_ne _ _ (Ne.symm same), ih,
          List.dlookup_cons_ne _ _ (Ne.symm same)]

def adjust (key : Key) (change : Value → Value) (table : Table Key Value) : Table Key Value :=
  mapValues (fun other value => if other = key then change value else value) table

theorem lookup_adjust (key : Key) (change : Value → Value) (table : Table Key Value)
    (other : Key) :
    (adjust key change table).lookup other =
      if other = key then (table.lookup other).map change else table.lookup other := by
  rw [adjust, lookup_mapValues]
  by_cases same : other = key
  · simp [same]
  · simp [same]

theorem mem_entries {table : Table Key Value} {key : Key} {value : Value} :
    ⟨key, value⟩ ∈ table.entries ↔ table.lookup key = some value :=
  AList.mem_lookup_iff.symm

theorem total_erase (weight : Key → Value → Nat) {table : Table Key Value} {key : Key}
    {value : Value} (found : table.lookup key = some value) :
    total weight table = weight key value + total weight (table.erase key) := by
  have present : key ∈ table.entries.keys :=
    AList.mem_keys.mp (AList.lookup_isSome.mp (by simp [found]))
  obtain ⟨held, before, after, -, whole, rest⟩ := List.exists_of_kerase present
  have same : table.lookup key = some held := by
    apply mem_entries.mp
    rw [whole]
    simp
  have heldValue : held = value := by
    rw [found, Option.some.injEq] at same
    exact same.symm
  have erased : (table.erase key).entries = before ++ after := rest
  simp only [total, whole, erased, List.map_append, List.map_cons, List.sum_append,
    List.sum_cons, heldValue]
  omega

theorem total_eq_sum (weight : Key → Value → Nat) (values : Key → Value) {keys : List Key}
    (once : keys.Nodup) {table : Table Key Value}
    (found : ∀ key, table.lookup key = if key ∈ keys then some (values key) else none) :
    total weight table = (keys.map fun key => weight key (values key)).sum := by
  induction keys generalizing table with
  | nil =>
      have empty : table.entries = [] := by
        apply List.eq_nil_iff_forall_not_mem.mpr
        intro entry member
        have held := mem_entries.mp member
        rw [found] at held
        cases held
      simp [total, empty]
  | cons key keys ih =>
      obtain ⟨absent, once⟩ := List.nodup_cons.mp once
      have here : table.lookup key = some (values key) := by
        simp [found]
      have others : ∀ other, (table.erase key).lookup other =
          if other ∈ keys then some (values other) else none := by
        intro other
        by_cases same : other = key
        · rw [same, AList.lookup_erase, if_neg absent]
        · rw [AList.lookup_erase_ne same, found]
          simp [same]
      rw [total_erase weight here, ih once others, List.map_cons, List.sum_cons]

theorem total_adjust (weight : Key → Value → Nat) {table : Table Key Value} {key : Key}
    {value : Value} (found : table.lookup key = some value) (change : Value → Value) :
    total weight (adjust key change table) + weight key value =
      total weight table + weight key (change value) := by
  rw [adjust, total_mapValues, total_erase _ found, total_erase weight found]
  have others : total (fun other held => weight other (if other = key then change held else held))
      (table.erase key) = total weight (table.erase key) := by
    apply total_congr
    intro entry member
    have different : entry.1 ≠ key := by
      intro same
      have held := mem_entries.mp member
      rw [same, AList.lookup_erase] at held
      cases held
    rw [if_neg different]
  rw [others, if_pos rfl]
  omega

def keep (test : Key → Bool) (table : Table Key Value) : Table Key Value where
  entries := table.entries.filter fun entry => test entry.1
  nodupKeys := table.nodupKeys.sublist List.filter_sublist

theorem lookup_keep (test : Key → Bool) (table : Table Key Value) (key : Key) :
    (keep test table).lookup key = if test key then table.lookup key else none := by
  apply Option.ext
  intro value
  rw [← mem_entries, keep, List.mem_filter, mem_entries]
  cases test key with
  | true => simp
  | false => simp

def retain (test : Value → Bool) (table : Table Key Value) : Table Key Value where
  entries := table.entries.filter fun entry => test entry.2
  nodupKeys := table.nodupKeys.sublist List.filter_sublist

theorem lookup_retain (test : Value → Bool) (table : Table Key Value) (key : Key) :
    (retain test table).lookup key = (table.lookup key).filter test := by
  apply Option.ext
  intro value
  rw [← mem_entries, retain, List.mem_filter, mem_entries, Option.filter_eq_some_iff]

theorem lookup_erase_insert (key : Key) (value : Value) (table : Table Key Value) (other : Key) :
    ((table.insert key value).erase key).lookup other = (table.erase key).lookup other := by
  by_cases here : other = key
  · rw [here, AList.lookup_erase, AList.lookup_erase]
  · rw [AList.lookup_erase_ne here, AList.lookup_erase_ne here, AList.lookup_insert_ne here]

def Every (test : Key → Value → Prop) (table : Table Key Value) : Prop :=
  ∀ key value, table.lookup key = some value → test key value

section Every

variable {test : Key → Value → Prop} {table : Table Key Value}

theorem every_empty : Every test (∅ : Table Key Value) := by
  intro key value found
  simp at found

theorem Every.insert (every : Every test table) {key : Key} {value : Value}
    (passes : test key value) : Every test (AList.insert key value table) := by
  intro other held found
  by_cases same : other = key
  · rw [same, AList.lookup_insert, Option.some.injEq] at found
    rw [same, ← found]
    exact passes
  · rw [AList.lookup_insert_ne same] at found
    exact every other held found

theorem Every.erase (every : Every test table) (key : Key) : Every test (AList.erase key table) := by
  intro other held found
  by_cases same : other = key
  · rw [same, AList.lookup_erase] at found
    cases found
  · rw [AList.lookup_erase_ne same] at found
    exact every other held found

end Every

/-- An order in which an iteration comes by the entries, the same or another each time. -/
structure Walk (table : Table Key Value) where
  order : List (Sigma fun _ : Key => Value)
  whole : order.Perm table.entries

def values (table : Table Key Value) : List Value := table.entries.map Sigma.snd

theorem mem_values {table : Table Key Value} {value : Value} :
    value ∈ values table ↔ ∃ key, table.lookup key = some value := by
  simp only [values, List.mem_map, ← mem_entries]
  constructor
  · rintro ⟨⟨key, held⟩, member, rfl⟩
    exact ⟨key, member⟩
  · rintro ⟨key, member⟩
    exact ⟨⟨key, value⟩, member, rfl⟩

section Named

variable {name : Value → Key} {table : Table Key Value}

theorem lookup_foldl_insert {list : List Value}
    (held : ∀ value ∈ list, table.lookup (name value) = some value) (key : Key) :
    (list.foldl (fun table value => table.insert (name value) value) table).lookup key =
      table.lookup key := by
  induction list generalizing table with
  | nil => rfl
  | cons first rest ih =>
      have same : ∀ other, (table.insert (name first) first).lookup other = table.lookup other := by
        intro other
        by_cases here : other = name first
        · rw [here, AList.lookup_insert, held first List.mem_cons_self]
        · exact AList.lookup_insert_ne here
      rw [List.foldl_cons, ih, same]
      intro value member
      rw [same]
      exact held value (List.mem_cons_of_mem first member)

end Named

end Table
