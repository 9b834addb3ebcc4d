import Rusmes.Proto.Mime

/-!
The translation of search queries and of JMAP filters into Tantivy queries, from
`query_translator.rs`.
-/

namespace Rusmes

open WireText

inductive SearchField
  | subject
  | «from»
  | «to»
  | body
  | header (name : Text)
  | cc
  | bcc
  | fullText
  | attachmentFilenames
  deriving DecidableEq, Repr

inductive SearchComparator
  | contains (value : Text)
  | equals (value : Text)
  | dateSince (timestamp : Int64)
  | dateBefore (timestamp : Int64)
  | dateOn (timestamp : Int64)
  deriving DecidableEq, Repr

structure SearchCondition where
  field : SearchField
  comparator : SearchComparator
  deriving DecidableEq, Repr

inductive SearchQuery
  | condition (condition : SearchCondition)
  | and (queries : List SearchQuery)
  | or (queries : List SearchQuery)
  | not (query : SearchQuery)
  | all
  | none

structure JmapSearchFilter where
  text : Option Text := .none
  «from» : Option Text := .none
  «to» : Option Text := .none
  cc : Option Text := .none
  bcc : Option Text := .none
  subject : Option Text := .none
  body : Option Text := .none
  before : Option Int64 := .none
  after : Option Int64 := .none

inductive IndexField
  | messageId
  | «from»
  | «to»
  | subject
  | body
  | attachmentFilenames
  | headerValues
  | date
  deriving DecidableEq, Repr

abbrev IndexSchema := List IndexField

/-! The queries of Tantivy. -/

inductive Occur
  | must
  | mustNot
  | should
  deriving DecidableEq, Repr

inductive TantivyQuery
  | all
  | term (field : IndexField) (word : Text)
  | phrase (field : IndexField) (words : List Text)
  | fuzzy (field : IndexField) (word : Text) (distance : Nat)
  | range (field : IndexField) (since before : Option Int64)
  | boolean (clauses : List (Occur × TantivyQuery))
  | union (queries : List TantivyQuery) (minimumRequired : Nat)

inductive TermKind
  | exact (word : Text)
  | phrase (words : List Text)
  | fuzzy (term : Text) (distance : Nat)
  deriving DecidableEq, Repr

section Translate

variable (letters : CaseMapping)

def quotedWords (trimmed : Text) : List Text :=
  if trimmed.head? = some '"' ∧ trimmed.getLast? = some '"' ∧ 2 ≤ trimmed.length then
    (splitWhitespace trimmed.tail.dropLast).map letters.toLowercase
  else []

def fuzzyTerm (trimmed : Text) : Option TermKind :=
  match rsplitOnce '~' trimmed with
  | some (base, distance) =>
      if octetLength distance = 1 ∧ base ≠ [] then
        (parseUsize distance).map fun distance => .fuzzy (letters.toLowercase base) distance
      else none
  | none => none

def parseSearchTerm (value : Text) : TermKind :=
  let trimmed := trim value
  let quoted := quotedWords letters trimmed
  if quoted ≠ [] then .phrase quoted
  else
    match fuzzyTerm letters trimmed with
    | some kind => kind
    | none =>
        let lower := letters.toLowercase trimmed
        let words := splitWhitespace lower
        if 1 < words.length then .phrase words else .exact lower

def resolveField (schema : IndexSchema) (name : IndexField) : Option IndexField :=
  if name ∈ schema then some name else none

def termQuery (field : IndexField) : TermKind → Option TantivyQuery
  | .exact word => if word ≠ [] then some (.term field word) else none
  | .phrase [] => none
  | .phrase [word] => some (.term field word)
  | .phrase words => some (.phrase field words)
  | .fuzzy word distance => if word ≠ [] then some (.fuzzy field word distance) else none

def buildTextQuery (schema : IndexSchema) (name : IndexField) (value : Text) :
    Option TantivyQuery :=
  (resolveField schema name).bind fun field => termQuery field (parseSearchTerm letters value)

def fulltextFields : List IndexField := [.subject, .body, .headerValues]

def buildFulltextQuery (schema : IndexSchema) (value : Text) : TantivyQuery :=
  let clauses := fulltextFields.filterMap fun name => buildTextQuery letters schema name value
  if clauses.isEmpty then .all else .union clauses 1

def fieldNameFor : SearchField → IndexField
  | .subject => .subject
  | .from => .from
  | .to => .to
  | .body => .body
  | .header _ => .headerValues
  | .cc => .headerValues
  | .bcc => .headerValues
  | .fullText => .body
  | .attachmentFilenames => .attachmentFilenames

def secondsOfDay : Int64 := 86400

/-- `none` where the addition overflows. -/
def checkedDayAfter (timestamp : Int64) : Option Int64 :=
  if timestamp.toInt + secondsOfDay.toInt ≤ Int64.maxValue.toInt then some (timestamp + secondsOfDay)
  else none

def translateText (schema : IndexSchema) (field : SearchField) (value : Text) : TantivyQuery :=
  match field with
  | .fullText => buildFulltextQuery letters schema value
  | other => (buildTextQuery letters schema (fieldNameFor other) value).getD .all

def translateCondition (schema : IndexSchema) (condition : SearchCondition) :
    Option TantivyQuery :=
  match condition.comparator with
  | .contains value => some (translateText letters schema condition.field value)
  | .equals value => some (translateText letters schema condition.field value)
  | .dateSince timestamp =>
      match resolveField schema .date with
      | some field => some (.range field (some timestamp) none)
      | none => some .all
  | .dateBefore timestamp =>
      match resolveField schema .date with
      | some field => some (.range field none (some timestamp))
      | none => some .all
  | .dateOn timestamp =>
      match resolveField schema .date with
      | some field => (checkedDayAfter timestamp).map fun next =>
          .range field (some timestamp) (some next)
      | none => some .all

def noneSentinel : Text := '\x00' :: "__none__".toList ++ ['\x00']

mutual

/-- `none` where the arithmetic of a date overflows. -/
def searchQueryToTantivy (schema : IndexSchema) : SearchQuery → Option TantivyQuery
  | .all => some .all
  | .none =>
      match resolveField schema .messageId with
      | some field => some (.term field noneSentinel)
      | none => some .all
  | .condition condition => translateCondition letters schema condition
  | .and queries =>
      if queries.isEmpty then some .all
      else (translateEach schema queries).map fun clauses =>
        .boolean (clauses.map fun clause => (.must, clause))
  | .or queries =>
      if queries.isEmpty then some .all
      else (translateEach schema queries).map fun clauses => .union clauses 1
  | .not query => (searchQueryToTantivy schema query).map fun negative =>
      .boolean [(.must, .all), (.mustNot, negative)]

def translateEach (schema : IndexSchema) : List SearchQuery → Option (List TantivyQuery)
  | [] => some []
  | query :: queries =>
      (searchQueryToTantivy schema query).bind fun first =>
        (translateEach schema queries).map fun others => first :: others

end

def textClause (build : Text → Option TantivyQuery) : Option Text → List (Occur × TantivyQuery)
  | none => []
  | some value => if value.isEmpty then [] else (build value).toList.map fun query => (.must, query)

def dateClause (schema : IndexSchema) (after before : Option Int64) : List (Occur × TantivyQuery) :=
  if after.isNone && before.isNone then []
  else (resolveField schema .date).toList.map fun field => (.must, .range field after before)

def jmapFilterToTantivy (schema : IndexSchema) (filter : JmapSearchFilter) : TantivyQuery :=
  let clauses :=
    textClause (fun value => some (buildFulltextQuery letters schema value)) filter.text ++
    textClause (buildTextQuery letters schema .from) filter.from ++
    textClause (buildTextQuery letters schema .to) filter.to ++
    textClause (buildTextQuery letters schema .subject) filter.subject ++
    textClause (buildTextQuery letters schema .body) filter.body ++
    textClause (buildTextQuery letters schema .headerValues) filter.cc ++
    textClause (buildTextQuery letters schema .headerValues) filter.bcc ++
    dateClause schema filter.after filter.before
  if clauses.isEmpty then .all else .boolean clauses

end Translate

end Rusmes
