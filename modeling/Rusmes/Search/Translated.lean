import Rusmes.Search.Query

/-!
What the search queries mean, and the documents that their translations match.
-/

namespace Rusmes

open WireText

structure IndexedDocument where
  «from» : List Text
  «to» : List Text
  subject : List Text
  body : List Text
  attachmentFilenames : List Text
  headerValues : List Text
  date : Int64

/-- The identifier of a message is stored but not indexed. -/
def IndexedDocument.terms (document : IndexedDocument) : IndexField → List Text
  | .messageId => []
  | .from => document.from
  | .to => document.to
  | .subject => document.subject
  | .body => document.body
  | .attachmentFilenames => document.attachmentFilenames
  | .headerValues => document.headerValues
  | .date => []

theorem TantivyQuery.clause_smaller {clauses : List (Occur × TantivyQuery)}
    {clause : Occur × TantivyQuery} (member : clause ∈ clauses) :
    sizeOf clause.2 < sizeOf (TantivyQuery.boolean clauses) := by
  have smaller := List.sizeOf_lt_of_mem member
  obtain ⟨occur, query⟩ := clause
  simp only [Prod.mk.sizeOf_spec, boolean.sizeOf_spec] at smaller ⊢
  omega

theorem TantivyQuery.choice_smaller {queries chosen : List TantivyQuery} {query : TantivyQuery}
    {minimumRequired : Nat} (within : chosen.Sublist queries) (member : query ∈ chosen) :
    sizeOf query < sizeOf (TantivyQuery.union queries minimumRequired) := by
  have smaller := List.sizeOf_lt_of_mem (within.subset member)
  simp only [union.sizeOf_spec]
  omega

section Meaning

variable (near : Nat → Text → Text → Prop) (document : IndexedDocument)

/-- The documents of a Tantivy query; `near` is the distance between words. -/
def TantivyQuery.Matches : TantivyQuery → Prop
  | .all => True
  | .term field word => word ∈ document.terms field
  | .phrase field words => words <:+: document.terms field
  | .fuzzy field word distance => ∃ term ∈ document.terms field, near distance word term
  | .range _ since before => (∀ start, since = some start → start ≤ document.date) ∧
      ∀ stop, before = some stop → document.date < stop
  | .boolean clauses =>
      (∀ clause, clause ∈ clauses → clause.1 = .must → clause.2.Matches) ∧
        (∀ clause, clause ∈ clauses → clause.1 = .mustNot → ¬clause.2.Matches) ∧
        ((∃ clause ∈ clauses, clause.1 = .must) ∨
          ∃ clause, ∃ _member : clause ∈ clauses, clause.1 = .should ∧ clause.2.Matches)
  | .union queries minimumRequired => ∃ chosen : List TantivyQuery, ∃ _within : chosen.Sublist queries,
      minimumRequired ≤ chosen.length ∧ ∀ query, query ∈ chosen → query.Matches
termination_by query => sizeOf query
decreasing_by
  · exact clause_smaller ‹_›
  · exact clause_smaller ‹_›
  · exact clause_smaller ‹_›
  · exact choice_smaller ‹_› ‹_›

def TermKind.FoundIn (terms : List Text) : TermKind → Prop
  | .exact word => word = [] ∨ word ∈ terms
  | .phrase words => words <:+: terms
  | .fuzzy word distance => word = [] ∨ ∃ term ∈ terms, near distance word term

variable (letters : CaseMapping)

def SearchField.indexed : SearchField → List IndexField
  | .fullText => fulltextFields
  | other => [fieldNameFor other]

def SearchCondition.Holds (condition : SearchCondition) : Prop :=
  match condition.comparator with
  | .contains value => ∃ field ∈ condition.field.indexed,
      (parseSearchTerm letters value).FoundIn near (document.terms field)
  | .equals value => ∃ field ∈ condition.field.indexed,
      (parseSearchTerm letters value).FoundIn near (document.terms field)
  | .dateSince timestamp => timestamp.toInt ≤ document.date.toInt
  | .dateBefore timestamp => document.date.toInt < timestamp.toInt
  | .dateOn timestamp => timestamp.toInt ≤ document.date.toInt ∧
      document.date.toInt < timestamp.toInt + 86400

def SearchQuery.Holds : SearchQuery → Prop
  | .condition single => single.Holds near document letters
  | .and queries => ∀ query, query ∈ queries → query.Holds
  | .or queries => ∃ query, ∃ _member : query ∈ queries, query.Holds
  | .not query => ¬query.Holds
  | .all => True
  | .none => False

end Meaning

def SearchQuery.fillUnions : SearchQuery → SearchQuery
  | .condition single => .condition single
  | .and queries => .and (queries.map fun query => query.fillUnions)
  | .or queries => if queries.isEmpty then .all else .or (queries.map fun query => query.fillUnions)
  | .not query => .not query.fillUnions
  | .all => .all
  | .none => .none

inductive SearchQuery.Part (part : SearchQuery) : SearchQuery → Prop
  | whole : Part part part
  | and {query : SearchQuery} {queries : List SearchQuery} (member : query ∈ queries)
      (inside : Part part query) : Part part (.and queries)
  | or {query : SearchQuery} {queries : List SearchQuery} (member : query ∈ queries)
      (inside : Part part query) : Part part (.or queries)
  | not {query : SearchQuery} (inside : Part part query) : Part part (.not query)

@[elab_as_elim] theorem SearchQuery.tree_induction {motive : SearchQuery → Prop}
    (condition : ∀ single, motive (.condition single))
    (and : ∀ queries, (∀ query ∈ queries, motive query) → motive (.and queries))
    (or : ∀ queries, (∀ query ∈ queries, motive query) → motive (.or queries))
    (not : ∀ query, motive query → motive (.not query)) (all : motive .all) (none : motive .none)
    (query : SearchQuery) : motive query := by
  match query with
  | .condition single => exact condition single
  | .and queries =>
      exact and queries fun query _ => tree_induction condition and or not all none query
  | .or queries =>
      exact or queries fun query _ => tree_induction condition and or not all none query
  | .not query => exact not query (tree_induction condition and or not all none query)
  | .all => exact all
  | .none => exact none

/-! Dates. -/

theorem checkedDayAfter_eq_some {timestamp next : Int64} :
    checkedDayAfter timestamp = some next ↔ next.toInt = timestamp.toInt + 86400 := by
  have day : secondsOfDay.toInt = 86400 := by decide
  have last : Int64.maxValue.toInt = 9223372036854775807 := by decide
  have low := timestamp.le_toInt
  have high := next.toInt_lt
  rw [checkedDayAfter, day, last]
  split
  · rename_i fits
    have sum : (timestamp + secondsOfDay).toInt = timestamp.toInt + 86400 := by
      rw [Int64.toInt_add, day, Int.bmod_eq_of_le (by omega) (by omega)]
    rw [Option.some.injEq, ← Int64.toInt_inj, sum]
    exact eq_comm
  · rename_i late
    constructor
    · intro none
      cases none
    · intro same
      omega

section Translation

variable (near : Nat → Text → Text → Prop) (letters : CaseMapping) {schema : IndexSchema}
  (document : IndexedDocument)

theorem matches_term (field : IndexField) (word : Text) :
    (TantivyQuery.term field word).Matches near document ↔ word ∈ document.terms field := by
  rw [TantivyQuery.Matches]

theorem matches_union (queries : List TantivyQuery) :
    (TantivyQuery.union queries 1).Matches near document ↔
      ∃ query ∈ queries, query.Matches near document := by
  rw [TantivyQuery.Matches]
  constructor
  · rintro ⟨chosen, within, enough, each⟩
    obtain ⟨query, member⟩ := List.exists_mem_of_length_pos enough
    exact ⟨query, within.subset member, each query member⟩
  · rintro ⟨query, member, found⟩
    refine ⟨[query], List.singleton_sublist.mpr member, Nat.le_refl 1, ?_⟩
    intro other inside
    rwa [List.mem_singleton.mp inside]

theorem matches_musts (queries : List TantivyQuery) (nonempty : queries ≠ []) :
    (TantivyQuery.boolean (queries.map fun query => (Occur.must, query))).Matches near document ↔
      ∀ query ∈ queries, query.Matches near document := by
  obtain ⟨first, others, rfl⟩ := List.exists_cons_of_ne_nil nonempty
  rw [TantivyQuery.Matches]
  simp

theorem matches_complement (query : TantivyQuery) :
    (TantivyQuery.boolean [(.must, .all), (.mustNot, query)]).Matches near document ↔
      ¬query.Matches near document := by
  rw [TantivyQuery.Matches]
  simp [TantivyQuery.Matches]

theorem termQuery_none {field : IndexField} {kind : TermKind} (none : termQuery field kind = none)
    (terms : List Text) : kind.FoundIn near terms := by
  cases kind with
  | exact word => simp_all [termQuery, TermKind.FoundIn]
  | phrase words =>
      rcases words with _ | ⟨first, _ | ⟨second, others⟩⟩
      · exact List.nil_infix
      · cases none
      · cases none
  | fuzzy word distance => simp_all [termQuery, TermKind.FoundIn]

theorem termQuery_some {field : IndexField} {kind : TermKind} {query : TantivyQuery}
    (made : termQuery field kind = some query) :
    query.Matches near document ↔ kind.FoundIn near (document.terms field) := by
  cases kind with
  | exact word =>
      rw [termQuery, Option.ite_none_right_eq_some] at made
      obtain ⟨nonempty, same⟩ := made
      cases same
      rw [TantivyQuery.Matches, TermKind.FoundIn, or_iff_right nonempty]
  | phrase words =>
      rcases words with _ | ⟨first, _ | ⟨second, others⟩⟩
      · cases made
      · cases made
        rw [TantivyQuery.Matches, TermKind.FoundIn, List.singleton_infix_iff]
      · cases made
        rw [TantivyQuery.Matches, TermKind.FoundIn]
  | fuzzy word distance =>
      rw [termQuery, Option.ite_none_right_eq_some] at made
      obtain ⟨nonempty, same⟩ := made
      cases same
      rw [TantivyQuery.Matches, TermKind.FoundIn, or_iff_right nonempty]

variable {near letters document}

theorem buildTextQuery_eq (complete : ∀ field, field ∈ schema) (name : IndexField)
    (value : Text) :
    buildTextQuery letters schema name value = termQuery name (parseSearchTerm letters value) := by
  rw [buildTextQuery, resolveField, if_pos (complete name), Option.bind_some]

theorem getD_matches (field : IndexField) (kind : TermKind) :
    ((termQuery field kind).getD .all).Matches near document ↔
      kind.FoundIn near (document.terms field) := by
  cases made : termQuery field kind with
  | none =>
      rw [Option.getD_none, TantivyQuery.Matches]
      exact iff_of_true trivial (termQuery_none near made _)
  | some query => exact termQuery_some near document made

theorem fulltext_matches (complete : ∀ field, field ∈ schema) (value : Text) :
    (buildFulltextQuery letters schema value).Matches near document ↔
      ∃ field ∈ fulltextFields,
        (parseSearchTerm letters value).FoundIn near (document.terms field) := by
  simp only [buildFulltextQuery, buildTextQuery_eq complete]
  split
  · rename_i empty
    rw [List.isEmpty_iff, List.filterMap_eq_nil_iff] at empty
    rw [TantivyQuery.Matches]
    exact iff_of_true trivial ⟨.subject, by simp [fulltextFields],
      termQuery_none near (empty .subject (by simp [fulltextFields])) _⟩
  · rename_i nonempty
    rw [matches_union]
    constructor
    · rintro ⟨query, member, found⟩
      obtain ⟨field, known, made⟩ := List.mem_filterMap.mp member
      exact ⟨field, known, (termQuery_some near document made).mp found⟩
    · rintro ⟨field, known, found⟩
      cases made : termQuery field (parseSearchTerm letters value) with
      | some query =>
          exact ⟨query, List.mem_filterMap.mpr ⟨field, known, made⟩,
            (termQuery_some near document made).mpr found⟩
      | none =>
          -- The term is empty, and what was made for another field matches as well.
          rw [List.isEmpty_iff] at nonempty
          obtain ⟨query, member⟩ := List.exists_mem_of_ne_nil _ nonempty
          obtain ⟨other, -, made'⟩ := List.mem_filterMap.mp member
          exact ⟨query, member,
            (termQuery_some near document made').mpr (termQuery_none near made _)⟩

theorem translateText_matches (complete : ∀ field, field ∈ schema) (field : SearchField)
    (value : Text) :
    (translateText letters schema field value).Matches near document ↔
      ∃ name ∈ field.indexed,
        (parseSearchTerm letters value).FoundIn near (document.terms name) := by
  have single : ∀ name : IndexField,
      ((buildTextQuery letters schema name value).getD .all).Matches near document ↔
        ∃ other ∈ [name], (parseSearchTerm letters value).FoundIn near (document.terms other) := by
    intro name
    rw [buildTextQuery_eq complete, getD_matches]
    simp
  cases field with
  | fullText => exact fulltext_matches complete value
  | _ => exact single _

theorem matches_range (field : IndexField) (since before : Option Int64) :
    (TantivyQuery.range field since before).Matches near document ↔
      (∀ start, since = some start → start.toInt ≤ document.date.toInt) ∧
        ∀ stop, before = some stop → document.date.toInt < stop.toInt := by
  rw [TantivyQuery.Matches]
  simp only [Int64.le_iff_toInt_le, Int64.lt_iff_toInt_lt]

theorem resolveField_complete (complete : ∀ field, field ∈ schema) (name : IndexField) :
    resolveField schema name = some name := if_pos (complete name)

theorem translateCondition_matches (complete : ∀ field, field ∈ schema)
    {condition : SearchCondition} {query : TantivyQuery}
    (made : translateCondition letters schema condition = some query) :
    query.Matches near document ↔ condition.Holds near document letters := by
  obtain ⟨field, comparator⟩ := condition
  cases comparator with
  | contains value =>
      cases made
      exact translateText_matches complete field value
  | equals value =>
      cases made
      exact translateText_matches complete field value
  | dateSince timestamp =>
      simp only [translateCondition, resolveField_complete complete] at made
      cases made
      rw [matches_range]
      simp [SearchCondition.Holds]
  | dateBefore timestamp =>
      simp only [translateCondition, resolveField_complete complete] at made
      cases made
      rw [matches_range]
      simp [SearchCondition.Holds]
  | dateOn timestamp =>
      simp only [translateCondition, resolveField_complete complete] at made
      obtain ⟨next, checked, same⟩ := Option.map_eq_some_iff.mp made
      cases same
      rw [matches_range]
      simp [SearchCondition.Holds, ← checkedDayAfter_eq_some.mp checked]

theorem translateCondition_isSome (complete : ∀ field, field ∈ schema)
    (condition : SearchCondition) :
    (translateCondition letters schema condition).isSome ↔
      ∀ timestamp, condition.comparator = .dateOn timestamp →
        timestamp.toInt + 86400 ≤ Int64.maxValue.toInt := by
  obtain ⟨field, comparator⟩ := condition
  cases comparator with
  | dateOn timestamp =>
      have day : secondsOfDay.toInt = 86400 := by decide
      simp [translateCondition, resolveField_complete complete, checkedDayAfter, day]
  | _ => simp [translateCondition, resolveField_complete complete]

theorem translateEach_eq_some {queries : List SearchQuery} {translated : List TantivyQuery} :
    translateEach letters schema queries = some translated ↔
      List.Forall₂ (fun query made => searchQueryToTantivy letters schema query = some made)
        queries translated := by
  induction queries generalizing translated with
  | nil =>
      rw [translateEach, Option.some.injEq, List.forall₂_nil_left_iff]
      exact eq_comm
  | cons query queries ih =>
      rw [translateEach, Option.bind_eq_some_iff, List.forall₂_cons_left_iff]
      simp only [Option.map_eq_some_iff, ih]
      constructor
      · rintro ⟨first, made, others, each, rfl⟩
        exact ⟨first, others, made, each, rfl⟩
      · rintro ⟨first, others, made, each, rfl⟩
        exact ⟨first, made, others, each, rfl⟩

theorem translateEach_isSome (queries : List SearchQuery) :
    (translateEach letters schema queries).isSome ↔
      ∀ query ∈ queries, (searchQueryToTantivy letters schema query).isSome := by
  induction queries with
  | nil => simp [translateEach]
  | cons query queries ih =>
      rw [translateEach, List.forall_mem_cons, ← ih]
      cases searchQueryToTantivy letters schema query <;> simp

theorem forall_mem_translated {queries : List SearchQuery} {translated : List TantivyQuery}
    {made : SearchQuery → TantivyQuery → Prop} {meant : SearchQuery → Prop}
    {found : TantivyQuery → Prop}
    (agree : ∀ query ∈ queries, ∀ result, made query result → (found result ↔ meant query))
    (each : List.Forall₂ made queries translated) :
    ((∀ result ∈ translated, found result) ↔ ∀ query ∈ queries, meant query) ∧
      ((∃ result ∈ translated, found result) ↔ ∃ query ∈ queries, meant query) := by
  induction each with
  | nil => simp
  | cons first _ ih =>
      obtain ⟨every, any⟩ := ih fun query member => agree query (List.mem_cons_of_mem _ member)
      have here := agree _ List.mem_cons_self _ first
      rw [List.forall_mem_cons, List.forall_mem_cons, every, here]
      simp only [List.exists_mem_cons_iff, any, here, and_self]

theorem searchQueryToTantivy_matches (complete : ∀ field, field ∈ schema) (query : SearchQuery)
    {translated : TantivyQuery}
    (made : searchQueryToTantivy letters schema query = some translated) :
    translated.Matches near document ↔ query.fillUnions.Holds near document letters := by
  induction query using SearchQuery.tree_induction generalizing translated with
  | condition single =>
      rw [searchQueryToTantivy] at made
      rw [SearchQuery.fillUnions, SearchQuery.Holds]
      exact translateCondition_matches complete made
  | and queries ih =>
      rw [searchQueryToTantivy] at made
      rw [SearchQuery.fillUnions, SearchQuery.Holds, List.forall_mem_map]
      split at made
      · rename_i empty
        cases made
        rw [List.isEmpty_iff.mp empty, TantivyQuery.Matches]
        simp
      · rename_i nonempty
        obtain ⟨clauses, each, rfl⟩ := Option.map_eq_some_iff.mp made
        have pairs := translateEach_eq_some.mp each
        have some : clauses ≠ [] := by
          rintro rfl
          exact nonempty (List.isEmpty_iff.mpr (List.forall₂_nil_right_iff.mp pairs))
        rw [matches_musts near document clauses some]
        exact (forall_mem_translated (fun query member _ made => ih query member made) pairs).1
  | or queries ih =>
      rw [searchQueryToTantivy] at made
      rw [SearchQuery.fillUnions]
      split at made
      · rename_i empty
        cases made
        rw [if_pos empty, TantivyQuery.Matches, SearchQuery.Holds]
      · rename_i nonempty
        obtain ⟨clauses, each, rfl⟩ := Option.map_eq_some_iff.mp made
        rw [if_neg nonempty, matches_union, SearchQuery.Holds]
        refine (forall_mem_translated (fun query member _ made => ih query member made)
          (translateEach_eq_some.mp each)).2.trans ?_
        simp
  | not query ih =>
      rw [searchQueryToTantivy] at made
      obtain ⟨negative, inner, rfl⟩ := Option.map_eq_some_iff.mp made
      rw [SearchQuery.fillUnions, SearchQuery.Holds, matches_complement, ih inner]
  | all =>
      rw [searchQueryToTantivy] at made
      cases made
      rw [SearchQuery.fillUnions, SearchQuery.Holds, TantivyQuery.Matches]
  | none =>
      rw [searchQueryToTantivy, resolveField_complete complete] at made
      cases made
      rw [SearchQuery.fillUnions, SearchQuery.Holds, matches_term]
      simp [IndexedDocument.terms]

end Translation

/-! Parts of a query. -/

def SearchQuery.Timely (query : SearchQuery) : Prop :=
  ∀ single timestamp, Part (.condition single) query → single.comparator = .dateOn timestamp →
    timestamp.toInt + 86400 ≤ Int64.maxValue.toInt

namespace SearchQuery

theorem Part.trans {part middle query : SearchQuery} (inner : Part part middle)
    (outer : Part middle query) : Part part query := by
  induction outer with
  | whole => exact inner
  | and member _ ih => exact .and member ih
  | or member _ ih => exact .or member ih
  | not _ ih => exact .not ih

theorem timely_condition (single : SearchCondition) :
    Timely (.condition single) ↔ ∀ timestamp, single.comparator = .dateOn timestamp →
      timestamp.toInt + 86400 ≤ Int64.maxValue.toInt := by
  constructor
  · intro timely timestamp same
    exact timely single timestamp .whole same
  · rintro bound _ timestamp (_ | _) same
    exact bound timestamp same

theorem timely_and (queries : List SearchQuery) :
    Timely (.and queries) ↔ ∀ query ∈ queries, Timely query := by
  constructor
  · intro timely query member single timestamp part
    exact timely single timestamp (.and member part)
  · rintro each single timestamp (_ | ⟨member, part⟩)
    exact each _ member single timestamp part

theorem timely_or (queries : List SearchQuery) :
    Timely (.or queries) ↔ ∀ query ∈ queries, Timely query := by
  constructor
  · intro timely query member single timestamp part
    exact timely single timestamp (.or member part)
  · rintro each single timestamp (_ | _ | ⟨member, part⟩)
    exact each _ member single timestamp part

theorem timely_not (query : SearchQuery) : Timely (.not query) ↔ Timely query := by
  constructor
  · intro timely single timestamp part
    exact timely single timestamp (.not part)
  · rintro timely single timestamp (_ | _ | _ | part)
    exact timely single timestamp part

theorem fillUnions_eq {query : SearchQuery} (filled : ¬Part (.or []) query) :
    query.fillUnions = query := by
  induction query using tree_induction with
  | condition single => rw [fillUnions]
  | and queries ih =>
      rw [fillUnions]
      congr 1
      refine (List.map_congr_left fun query member => ?_).trans (List.map_id _)
      exact ih query member fun part => filled (.and member part)
  | or queries ih =>
      rw [fillUnions, if_neg]
      · congr 1
        refine (List.map_congr_left fun query member => ?_).trans (List.map_id _)
        exact ih query member fun part => filled (.or member part)
      · intro empty
        rw [List.isEmpty_iff.mp empty] at filled
        exact filled .whole
  | not query ih => rw [fillUnions, ih fun part => filled (.not part)]
  | all => rw [fillUnions]
  | none => rw [fillUnions]

end SearchQuery

theorem searchQueryToTantivy_isSome (letters : CaseMapping) {schema : IndexSchema}
    (complete : ∀ field, field ∈ schema) (query : SearchQuery) :
    (searchQueryToTantivy letters schema query).isSome ↔ query.Timely := by
  induction query using SearchQuery.tree_induction with
  | condition single =>
      rw [searchQueryToTantivy, SearchQuery.timely_condition,
        translateCondition_isSome complete]
  | and queries ih =>
      rw [searchQueryToTantivy, SearchQuery.timely_and, ← forall₂_congr ih]
      split
      · rename_i empty
        simp [List.isEmpty_iff.mp empty]
      · rw [Option.isSome_map, translateEach_isSome]
  | or queries ih =>
      rw [searchQueryToTantivy, SearchQuery.timely_or, ← forall₂_congr ih]
      split
      · rename_i empty
        simp [List.isEmpty_iff.mp empty]
      · rw [Option.isSome_map, translateEach_isSome]
  | not query ih =>
      rw [searchQueryToTantivy, Option.isSome_map, SearchQuery.timely_not, ih]
  | all =>
      rw [searchQueryToTantivy]
      refine iff_of_true rfl ?_
      rintro single timestamp (_ | _)
  | none =>
      rw [searchQueryToTantivy, resolveField_complete complete]
      refine iff_of_true rfl ?_
      rintro single timestamp (_ | _)

/-- The query has a translation, and it matches the documents for which the query holds. -/
def SearchQuery.Translated (near : Nat → Text → Text → Prop) (letters : CaseMapping)
    (schema : IndexSchema) (query : SearchQuery) : Prop :=
  ∃ translated, searchQueryToTantivy letters schema query = some translated ∧
    ∀ document, translated.Matches near document ↔ query.Holds near document letters

def emptyDocument : IndexedDocument := ⟨[], [], [], [], [], [], 0⟩

theorem translated_iff (near : Nat → Text → Text → Prop) (letters : CaseMapping)
    {schema : IndexSchema} (complete : ∀ field, field ∈ schema) (query : SearchQuery) :
    query.Translated near letters schema ↔ query.Timely ∧
      ∀ document, query.fillUnions.Holds near document letters ↔
        query.Holds near document letters := by
  rw [← searchQueryToTantivy_isSome letters complete, Option.isSome_iff_exists]
  constructor
  · rintro ⟨translated, made, same⟩
    refine ⟨⟨translated, made⟩, fun document => ?_⟩
    rw [← same document, searchQueryToTantivy_matches complete query made]
  · rintro ⟨⟨translated, made⟩, same⟩
    refine ⟨translated, made, fun document => ?_⟩
    rw [searchQueryToTantivy_matches complete query made, same document]

/-- A query is translated exactly if its days end in time and its meaning does not change when
its empty unions are read as everything; all its parts are if it has no empty union. -/
theorem searchQuery_translated (near : Nat → Text → Text → Prop) (letters : CaseMapping)
    {schema : IndexSchema} (complete : ∀ field, field ∈ schema) (query : SearchQuery) :
    (query.Translated near letters schema ↔ query.Timely ∧
      ∀ document, query.fillUnions.Holds near document letters ↔
        query.Holds near document letters) ∧
    ((∀ part : SearchQuery, part.Part query → part.Translated near letters schema) ↔
      query.Timely ∧ ¬(SearchQuery.or []).Part query) := by
  refine ⟨translated_iff near letters complete query, ?_⟩
  constructor
  · intro each
    have timely := ((translated_iff near letters complete query).mp (each query .whole)).1
    refine ⟨timely, fun inside => ?_⟩
    have same := ((translated_iff near letters complete _).mp (each _ inside)).2 emptyDocument
    simp [SearchQuery.fillUnions, SearchQuery.Holds] at same
  · rintro ⟨timely, filled⟩ part inside
    rw [translated_iff near letters complete,
      SearchQuery.fillUnions_eq fun empty => filled (empty.trans inside)]
    exact ⟨fun single timestamp within => timely single timestamp (within.trans inside),
      fun document => Iff.rfl⟩

/-! JMAP filters. -/

section Filter

variable (near : Nat → Text → Text → Prop) (document : IndexedDocument) (letters : CaseMapping)

def FilterFinds (fields : List IndexField) (value : Option Text) : Prop :=
  ∀ text, value = some text → ∃ field ∈ fields,
    (parseSearchTerm letters text).FoundIn near (document.terms field)

structure JmapSearchFilter.Holds (filter : JmapSearchFilter) : Prop where
  text : FilterFinds near document letters fulltextFields filter.text
  «from» : FilterFinds near document letters [.from] filter.from
  «to» : FilterFinds near document letters [.to] filter.to
  subject : FilterFinds near document letters [.subject] filter.subject
  body : FilterFinds near document letters [.body] filter.body
  cc : FilterFinds near document letters [.headerValues] filter.cc
  bcc : FilterFinds near document letters [.headerValues] filter.bcc
  after : ∀ start, filter.after = some start → start.toInt ≤ document.date.toInt
  before : ∀ stop, filter.before = some stop → document.date.toInt < stop.toInt

variable {near document letters}

theorem parseSearchTerm_nil : parseSearchTerm letters [] = .exact [] := by
  have lower : letters.toLowercase [] = [] := letters.lowercase_ascii [] (by simp)
  simp [parseSearchTerm, quotedWords, fuzzyTerm, trim, trimStart, trimEnd, rsplitOnce, lower,
    splitWhitespace]

theorem textClause_matches {build : Text → Option TantivyQuery} {fields : List IndexField}
    (nonempty : fields ≠ [])
    (built : ∀ text, ((build text).getD .all).Matches near document ↔
      ∃ field ∈ fields, (parseSearchTerm letters text).FoundIn near (document.terms field))
    (value : Option Text) :
    (∀ clause ∈ textClause build value, clause.1 = .must ∧ clause.2.Matches near document) ↔
      FilterFinds near document letters fields value := by
  cases value with
  | none => simp [textClause, FilterFinds]
  | some text =>
      simp only [FilterFinds, Option.some.injEq, forall_eq', ← built, textClause]
      split
      · rename_i empty
        refine iff_of_true (by simp) ?_
        obtain ⟨field, member⟩ := List.exists_mem_of_ne_nil fields nonempty
        rw [List.isEmpty_iff.mp empty, built, parseSearchTerm_nil]
        exact ⟨field, member, Or.inl rfl⟩
      · cases build text with
        | none => simp [TantivyQuery.Matches]
        | some query => simp

theorem dateClause_matches {schema : IndexSchema} (complete : ∀ field, field ∈ schema)
    (after before : Option Int64) :
    (∀ clause ∈ dateClause schema after before,
      clause.1 = .must ∧ clause.2.Matches near document) ↔
      (∀ start, after = some start → start.toInt ≤ document.date.toInt) ∧
        ∀ stop, before = some stop → document.date.toInt < stop.toInt := by
  rw [dateClause]
  split
  · rename_i neither
    simp_all
  · rw [resolveField_complete complete]
    simp [matches_range]

theorem matches_clauses (clauses : List (Occur × TantivyQuery))
    (musts : ∀ clause ∈ clauses, clause.1 = .must) :
    (if clauses.isEmpty then TantivyQuery.all else .boolean clauses).Matches near document ↔
      ∀ clause ∈ clauses, clause.1 = .must ∧ clause.2.Matches near document := by
  cases clauses with
  | nil => simp [TantivyQuery.Matches]
  | cons first others =>
      rw [if_neg (by simp), TantivyQuery.Matches]
      constructor
      · rintro ⟨each, -, -⟩ clause member
        exact ⟨musts clause member, each clause member (musts clause member)⟩
      · intro each
        refine ⟨fun clause member _ => (each clause member).2, ?_,
          Or.inl ⟨first, List.mem_cons_self, musts first List.mem_cons_self⟩⟩
        intro clause member negative
        rw [musts clause member] at negative
        cases negative

theorem textClause_must (build : Text → Option TantivyQuery) (value : Option Text) :
    ∀ clause ∈ textClause build value, clause.1 = .must := by
  cases value with
  | none => simp [textClause]
  | some text =>
      rw [textClause]
      split
      · simp
      · intro clause member
        obtain ⟨query, -, rfl⟩ := List.mem_map.mp member
        rfl

theorem dateClause_must (schema : IndexSchema) (after before : Option Int64) :
    ∀ clause ∈ dateClause schema after before, clause.1 = .must := by
  rw [dateClause]
  split
  · simp
  · intro clause member
    obtain ⟨field, -, rfl⟩ := List.mem_map.mp member
    rfl

theorem jmapFilter_matches {schema : IndexSchema} (complete : ∀ field, field ∈ schema)
    (filter : JmapSearchFilter) :
    (jmapFilterToTantivy letters schema filter).Matches near document ↔
      filter.Holds near document letters := by
  have single : ∀ (name : IndexField) (text : Text),
      ((buildTextQuery letters schema name text).getD .all).Matches near document ↔
        ∃ field ∈ [name], (parseSearchTerm letters text).FoundIn near (document.terms field) := by
    intro name text
    rw [buildTextQuery_eq complete, getD_matches]
    simp
  have named : ∀ (name : IndexField) (value : Option Text), _ := fun name =>
    textClause_matches (List.cons_ne_nil name []) (single name)
  have whole := @textClause_matches near document letters
    (fun text => some (buildFulltextQuery letters schema text)) fulltextFields
    (List.cons_ne_nil _ _) fun text => fulltext_matches complete text
  rw [jmapFilterToTantivy, matches_clauses]
  · simp only [List.forall_mem_append, named, whole, dateClause_matches complete]
    constructor
    · rintro ⟨⟨⟨⟨⟨⟨⟨text, sender⟩, receiver⟩, subject⟩, body⟩, cc⟩, bcc⟩, after, before⟩
      exact ⟨text, sender, receiver, subject, body, cc, bcc, after, before⟩
    · rintro ⟨text, sender, receiver, subject, body, cc, bcc, after, before⟩
      exact ⟨⟨⟨⟨⟨⟨⟨text, sender⟩, receiver⟩, subject⟩, body⟩, cc⟩, bcc⟩, after, before⟩
  · simp only [List.forall_mem_append]
    exact ⟨⟨⟨⟨⟨⟨⟨textClause_must _ _, textClause_must _ _⟩, textClause_must _ _⟩,
      textClause_must _ _⟩, textClause_must _ _⟩, textClause_must _ _⟩, textClause_must _ _⟩,
      dateClause_must _ _ _⟩

end Filter

def wholeSchema : IndexSchema :=
  [.messageId, .from, .to, .subject, .body, .attachmentFilenames, .headerValues, .date]

theorem wholeSchema_complete (field : IndexField) : field ∈ wholeSchema := by
  cases field <;> decide

/-- A union of no queries matches every document, and the last day has no end. -/
theorem emptyUnion_matches :
    ¬(SearchQuery.or []).Translated (fun _ first second => first = second) asciiCase wholeSchema ∧
      ¬(SearchQuery.condition ⟨.subject, .dateOn Int64.maxValue⟩).Translated
        (fun _ first second => first = second) asciiCase wholeSchema := by
  rw [translated_iff _ _ wholeSchema_complete, translated_iff _ _ wholeSchema_complete]
  constructor
  · rintro ⟨-, same⟩
    simpa [SearchQuery.fillUnions, SearchQuery.Holds] using same emptyDocument
  · rintro ⟨timely, -⟩
    exact absurd (timely _ _ .whole rfl) (by decide)

def budgetQuery : SearchQuery :=
  .and [.condition ⟨.subject, .contains "Budget".toList⟩, .not (.or [.none])]

theorem budget_translated :
    budgetQuery.Translated (fun _ first second => first = second) asciiCase wholeSchema := by
  refine (searchQuery_translated _ _ wholeSchema_complete budgetQuery).2.mpr ⟨?_, ?_⟩ _ .whole
  · simp [budgetQuery, SearchQuery.timely_and, SearchQuery.timely_condition,
      SearchQuery.timely_not, SearchQuery.timely_or]
    rintro single timestamp (_ | _)
  · rintro (_ | ⟨member, inside⟩)
    simp only [List.mem_cons, List.not_mem_nil, or_false] at member
    rcases member with rfl | rfl
    · cases inside
    · rcases inside with _ | _ | _ | inside
      rcases inside with _ | _ | ⟨member, inside⟩
      rw [List.mem_singleton.mp member] at inside
      cases inside

theorem subjectFilter_matches :
    (jmapFilterToTantivy asciiCase wholeSchema { subject := some "Budget".toList }).Matches
        (fun _ first second => first = second) emptyDocument ↔
      ({ subject := some "Budget".toList } : JmapSearchFilter).Holds
        (fun _ first second => first = second) emptyDocument asciiCase :=
  jmapFilter_matches wholeSchema_complete _

end Rusmes
