import Mathlib.Data.List.Nodup
import Rusmes.Proto.Scanner

/-!
Header fields written one to a line and parsed into a `HeaderMap`. Between the lines
and the map there is a table with one value for each name.
-/

namespace Rusmes

open WireText

def isTokenCharacter (character : Char) : Prop :=
  33 ≤ character.toNat ∧ character.toNat ≤ 126 ∧ character ≠ ':'

structure HeaderField where
  name : Text
  value : Text
  nonempty : name ≠ []
  token : ∀ character ∈ name, isTokenCharacter character
  carriage : '\r' ∉ value
  newline : '\n' ∉ value

def HeaderField.line (field : HeaderField) : Octets :=
  encodeUtf8 (field.name ++ ':' :: field.value)

def fieldBlock (fields : List HeaderField) : Octets :=
  fields.flatMap (fun field => field.line ++ [13, 10]) ++ [13, 10]

def HeaderMap.allValues (letters : CaseMapping) (headers : HeaderMap) (name : Text) :
    Option (List Text) :=
  headers.lookup (letters.toLowercase name)

def valuesOf (letters : CaseMapping) (fields : List HeaderField) (name : Text) : List Text :=
  (fields.filter fun field =>
    letters.toLowercase field.name = letters.toLowercase name).map HeaderField.value

/-! The lines are read as they were written. -/

theorem isWhitespace_token {character : Char} (token : isTokenCharacter character) :
    isWhitespace character = false := by
  obtain ⟨low, high, -⟩ := token
  simp only [isWhitespace, Bool.or_eq_false_iff, Bool.and_eq_false_iff, decide_eq_false_iff_not]
  omega

theorem trim_name (field : HeaderField) : trim field.name = field.name :=
  trim_solid fun character member => isWhitespace_token (field.token character member)

theorem newline_not_mem_line (field : HeaderField) : 10 ∉ field.line := by
  apply newline_not_mem_encodeUtf8
  simp only [List.mem_append, List.mem_cons, not_or]
  refine ⟨fun member => ?_, by decide, field.newline⟩
  exact absurd (field.token _ member).1 (by decide)

theorem trimCarriage_line (line : Octets) : trimCarriage (line ++ [13]) = line := by
  simp [trimCarriage]

theorem line_start (field : HeaderField) :
    ∃ character rest, isTokenCharacter character ∧ field.line = UInt8.ofNat character.toNat :: rest := by
  obtain ⟨character, rest, name⟩ := List.exists_cons_of_ne_nil field.nonempty
  have token := field.token character (by simp [name])
  have low : character.toNat < 128 := by
    have high := token.2.1
    omega
  refine ⟨character, encodeUtf8 (rest ++ ':' :: field.value), token, ?_⟩
  rw [HeaderField.line, name, List.cons_append, encodeUtf8_cons_ascii low]

theorem continuesField_line (field : HeaderField) : continuesField field.line = false := by
  obtain ⟨character, rest, ⟨low, high, -⟩, start⟩ := line_start field
  have code : (UInt8.ofNat character.toNat).toNat = character.toNat := by
    rw [UInt8.toNat_ofNat']
    omega
  rw [continuesField, start, Bool.or_eq_false_iff, decide_eq_false_iff_not, decide_eq_false_iff_not]
  constructor
  · intro same
    rw [List.head?_cons, Option.some.injEq] at same
    rw [same] at code
    simp at code
    omega
  · intro same
    rw [List.head?_cons, Option.some.injEq] at same
    rw [same] at code
    simp at code
    omega

theorem completeLines_fieldBlock (fields : List HeaderField) (body : Octets) :
    completeLines (fieldBlock fields ++ body) = fields.map HeaderField.line := by
  induction fields with
  | nil =>
      exact completeLines_line (by decide : (10 : UInt8) ∉ [13]) body
  | cons field fields ih =>
      have full : field.line ≠ [] := by
        obtain ⟨character, rest, -, start⟩ := line_start field
        rw [start]
        exact List.cons_ne_nil _ _
      have unbroken : 10 ∉ field.line ++ [13] := by simp [newline_not_mem_line field]
      have shape : fieldBlock (field :: fields) ++ body =
          (field.line ++ [13]) ++ 10 :: (fieldBlock fields ++ body) := by
        simp [fieldBlock]
      rw [shape, completeLines_line unbroken, trimCarriage_line, if_neg full, ih, List.map_cons]

theorem joinedFields_lines (letters : CaseMapping) (fields : List HeaderField) :
    joinedFields letters (fields.map HeaderField.line) =
      fields.map fun field => (letters.toLowercase field.name, field.value) := by
  induction fields with
  | nil => rfl
  | cons field fields ih =>
      have colon : ':' ∉ field.name := fun member => (field.token _ member).2.2 rfl
      have alone : joinedText (fields.map HeaderField.line) = [] := by
        cases fields with
        | nil => rfl
        | cons next fields => simp [joinedText, continuesField_line]
      rw [List.map_cons, joinedFields, if_neg (by simp [continuesField_line]), ih, alone,
        HeaderField.line, headerField_encodeUtf8 letters colon, trim_name, Option.map_some,
        List.append_nil, unfoldHeader, unfoldFrom_plain field.carriage field.newline]
      rfl

theorem parseHeaders_fieldBlock (letters : CaseMapping) (fields : List HeaderField) (body : Octets) :
    (parseHeaders letters (fieldBlock fields ++ body)).1 =
      storeFields ∅ (fields.map fun field => (letters.toLowercase field.name, field.value)) := by
  have parsed := parseFrom_fields letters ∅ none (fieldBlock fields ++ body)
  rw [completeLines_fieldBlock, joinedFields_lines] at parsed
  exact parsed

theorem parseHeaders_offset (letters : CaseMapping) (fields : List HeaderField) (body : Octets) :
    (parseHeaders letters (fieldBlock fields ++ body)).2 = (fieldBlock fields).length := by
  have offset : ∀ headers current,
      (parseFrom letters headers current (fieldBlock fields ++ body)).2 =
        (fieldBlock fields).length := by
    induction fields with
    | nil =>
        intro headers current
        have ended := parseFrom_empty letters headers current (by decide : (10 : UInt8) ∉ [13]) rfl body
        exact congrArg Prod.snd ended
    | cons field fields ih =>
        intro headers current
        have full : trimCarriage (field.line ++ [13]) ≠ [] := by
          obtain ⟨character, rest, -, start⟩ := line_start field
          rw [trimCarriage_line, start]
          exact List.cons_ne_nil _ _
        have unbroken : 10 ∉ field.line ++ [13] := by simp [newline_not_mem_line field]
        have shape : fieldBlock (field :: fields) ++ body =
            (field.line ++ [13]) ++ 10 :: (fieldBlock fields ++ body) := by
          simp [fieldBlock]
        rw [shape, parseFrom_next letters headers current unbroken full, ih]
        simp [fieldBlock]
        omega
  exact offset ∅ none

def fieldLines (fields : List HeaderField) : Octets :=
  fields.flatMap fun field => field.line ++ [13, 10]

theorem fieldLines_cons (field : HeaderField) (fields : List HeaderField) :
    fieldLines (field :: fields) = (field.line ++ [13]) ++ 10 :: fieldLines fields := by
  simp [fieldLines]

theorem completeLines_cut {fields : List HeaderField} {count : Nat}
    (short : count < (fieldLines fields).length) :
    ∃ kept, kept < fields.length ∧
      completeLines ((fieldLines fields).take count) = (fields.take kept).map HeaderField.line := by
  induction fields generalizing count with
  | nil => cases short
  | cons field fields ih =>
      have unbroken : 10 ∉ field.line ++ [13] := by simp [newline_not_mem_line field]
      rw [fieldLines_cons] at short ⊢
      by_cases within : count ≤ (field.line ++ [13]).length
      · refine ⟨0, by simp, ?_⟩
        rw [List.take_append_of_le_length within]
        exact completeLines_last fun member => unbroken (List.mem_of_mem_take member)
      · obtain ⟨more, rfl⟩ := Nat.exists_eq_add_of_le (Nat.lt_of_not_le within)
        have later : more < (fieldLines fields).length := by
          have whole := @List.length_append _ (field.line ++ [13]) (10 :: fieldLines fields)
          rw [List.length_cons] at whole
          omega
        obtain ⟨kept, bound, lines⟩ := ih later
        have full : field.line ≠ [] := by
          obtain ⟨character, rest, -, start⟩ := line_start field
          rw [start]
          exact List.cons_ne_nil _ _
        refine ⟨kept + 1, Nat.succ_lt_succ bound, ?_⟩
        rw [Nat.succ_add, ← Nat.add_succ, List.take_length_add_append, List.take_succ_cons,
          completeLines_line unbroken, trimCarriage_line, if_neg full, lines]
        rfl

theorem lookup_storeFields (headers : HeaderTable) (fields : List (Text × Text)) (name : Text) :
    (storeFields headers fields).lookup name =
      (((fields.filter fun field => field.1 = name).map Prod.snd).getLast?).or
        (headers.lookup name) := by
  induction fields generalizing headers with
  | nil => rfl
  | cons field fields ih =>
      rw [storeFields, List.foldl_cons, ← storeFields, ih, List.filter_cons]
      by_cases same : field.1 = name
      · subst same
        rw [AList.lookup_insert, if_pos (by simp), List.map_cons, List.getLast?_cons]
        cases ((fields.filter fun other => other.1 = field.1).map Prod.snd).getLast? <;> rfl
      · rw [AList.lookup_insert_ne (Ne.symm same), if_neg (by simp [same])]

theorem lookup_storeFields_nodup {fields : List (Text × Text)}
    (distinct : (fields.map Prod.fst).Nodup) {name value : Text} :
    (storeFields ∅ fields).lookup name = some value ↔ (name, value) ∈ fields := by
  have stored : ∀ headers : HeaderTable, (storeFields headers fields).lookup name = some value ↔
      (name, value) ∈ fields ∨ name ∉ fields.map Prod.fst ∧ headers.lookup name = some value := by
    induction fields with
    | nil => simp [storeFields]
    | cons field fields ih =>
        intro headers
        rw [List.map_cons, List.nodup_cons] at distinct
        have later := ih distinct.2 (AList.insert field.1 field.2 headers)
        rw [storeFields, List.foldl_cons, ← storeFields, later]
        by_cases same : name = field.1
        · subst same
          have single : (field.1, value) ∉ fields := fun member =>
            distinct.1 (List.mem_map.mpr ⟨_, member, rfl⟩)
          simp [single, distinct.1, Prod.ext_iff, eq_comm]
        · simp [AList.lookup_insert_ne same, same, Prod.ext_iff]
  simp [stored]

theorem allValues_fieldBlock (letters : CaseMapping) (fields : List HeaderField) (body : Octets)
    (name : Text) :
    (MimeMessage.parseFromBytes letters (fieldBlock fields ++ body)).headers.allValues letters name =
      (valuesOf letters fields name).getLast?.map fun value => [value] := by
  have values : ((fields.map fun field => (letters.toLowercase field.name, field.value)).filter
      fun field => field.1 = letters.toLowercase name).map Prod.snd =
        valuesOf letters fields name := by
    rw [List.filter_map, List.map_map]
    rfl
  rw [HeaderMap.allValues, headers_parseFromBytes, lookup_ofTable (parseHeaders_clean letters _),
    parseHeaders_fieldBlock, lookup_storeFields, values]
  exact congrArg _ (Option.or_none)

theorem length_valuesOf (letters : CaseMapping) (fields : List HeaderField) (name : Text) :
    (valuesOf letters fields name).length =
      (fields.map fun field => letters.toLowercase field.name).count (letters.toLowercase name) := by
  rw [valuesOf, List.length_map, List.count_eq_countP, List.countP_map, List.countP_eq_length_filter]
  congr 1
  apply List.filter_congr
  intro field _
  rw [Bool.eq_iff_iff]
  simp

/-- Every name keeps all its values exactly when no name is repeated. -/
theorem parseFromBytes_fieldBlock (letters : CaseMapping) (fields : List HeaderField)
    (body : Octets) :
    (∀ field ∈ fields,
        (MimeMessage.parseFromBytes letters (fieldBlock fields ++ body)).headers.allValues letters
          field.name = some (valuesOf letters fields field.name)) ↔
      (fields.map fun field => letters.toLowercase field.name).Nodup := by
  rw [List.nodup_iff_count_eq_one, List.forall_mem_map]
  refine forall_congr' fun field => forall_congr' fun member => ?_
  rw [allValues_fieldBlock, ← length_valuesOf]
  have more : valuesOf letters fields field.name ≠ [] := by
    apply List.ne_nil_of_mem
    exact List.mem_map.mpr ⟨field, List.mem_filter.mpr ⟨member, by simp⟩, rfl⟩
  rcases List.eq_nil_or_concat' (valuesOf letters fields field.name) with none | ⟨before, last, all⟩
  · exact absurd none more
  · rw [all, List.getLast?_concat, Option.map_some, Option.some.injEq]
    cases before with
    | nil => simp
    | cons first before => simp

def receivedField (hop : Char) (plain : hop ≠ '\r' ∧ hop ≠ '\n') : HeaderField where
  name := ['R', 'e', 'c', 'e', 'i', 'v', 'e', 'd']
  value := [hop]
  nonempty := List.cons_ne_nil _ _
  token := by simp [isTokenCharacter]
  carriage := by simp [Ne.symm plain.1]
  newline := by simp [Ne.symm plain.2]

def relayedFields : List HeaderField :=
  [receivedField 'a' (by decide), receivedField 'b' (by decide)]

/-- Of two `Received` fields the first one is lost. -/
theorem parseFromBytes_received :
    ¬∀ field ∈ relayedFields,
      (MimeMessage.parseFromBytes asciiCase (fieldBlock relayedFields ++ [])).headers.allValues
        asciiCase field.name = some (valuesOf asciiCase relayedFields field.name) := by
  intro kept
  have values := kept _ (List.mem_cons_self)
  rw [allValues_fieldBlock] at values
  exact absurd values (by decide)

end Rusmes
