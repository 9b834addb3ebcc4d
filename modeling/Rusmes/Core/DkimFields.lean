import Rusmes.Core.DkimValues
import Rusmes.Proto.Repeated

/-!
The fields a signature covers: those the mailet finds in its map, and those of the message from the
bottom.
-/

namespace Rusmes

open WireText

section Table

variable (letters : CaseMapping)

theorem decodeLossy_folds (octets : Octets) {folds : List Octets}
    (folded : ∀ fold ∈ folds, continuesField fold = true) :
    decodeLossy (octets ++ folds.flatten) = decodeLossy octets ++ folds.flatMap decodeLossy := by
  induction folds generalizing octets with
  | nil => simp
  | cons fold folds ih =>
      rw [List.forall_mem_cons] at folded
      obtain ⟨octet, more, rfl, low⟩ : ∃ octet more, fold = octet :: more ∧ octet.toNat < 128 := by
        have blank := folded.1
        rw [continuesField, Bool.or_eq_true, decide_eq_true_eq, decide_eq_true_eq] at blank
        rcases blank with head | head
        · obtain ⟨more, rfl⟩ := List.head?_eq_some_iff.mp head
          exact ⟨_, more, rfl, by decide⟩
        · obtain ⟨more, rfl⟩ := List.head?_eq_some_iff.mp head
          exact ⟨_, more, rfl, by decide⟩
      rw [List.flatten_cons, List.cons_append, decodeLossy_append_ascii octets low, ih more folded.2,
        List.flatMap_cons, decodeLossy_cons_char low, List.cons_append]

theorem joinedFields_raw (lines : List Octets) :
    joinedFields letters lines =
      (rawFields lines).map fun field => (fieldKey letters field.name, fieldText field.value) := by
  induction lines with
  | nil => rfl
  | cons line lines ih =>
      rw [joinedFields, rawFields]
      by_cases folded : continuesField line = true
      · rw [if_pos folded, if_pos (Or.inl folded), ih]
      · rw [if_neg folded, ih]
        by_cases colon : 58 ∈ line
        · have folds : ∀ fold ∈ lines.takeWhile continuesField, continuesField fold = true :=
            fun fold member => List.mem_takeWhile_imp member
          rw [if_neg (by simp [folded, colon]), headerField, if_pos colon, List.map_cons, fieldText,
            decodeLossy_folds _ folds]
          rfl
        · rw [if_pos (Or.inr colon), headerField, if_neg colon]
          rfl

def bottomField (data : Octets) (name : Text) : Option RawField :=
  (messageFields data).reverse.find? fun field => fieldKey letters field.name = name

theorem lookup_parseHeaders (data : Octets) (name : Text) :
    (parseHeaders letters data).1.lookup name =
      (bottomField letters data name).map fun field => fieldText field.value := by
  have stored : (parseHeaders letters data).1 =
      storeFields ∅ (joinedFields letters (completeLines data)) :=
    parseFrom_fields letters ∅ none data
  have last : ∀ fields : List RawField,
      (fields.filter fun field => fieldKey letters field.name = name).getLast? =
        fields.reverse.find? fun field => fieldKey letters field.name = name := by
    intro fields
    rw [← List.head?_reverse, ← List.filter_reverse, List.head?_filter]
  rw [stored, lookup_storeFields, joinedFields_raw, List.filter_map, List.map_map, List.getLast?_map,
    bottomField, ← last]
  exact Option.or_none

/-- The bottom signature field is the one the mailet checks. -/
theorem parseDkimSignatureHeader_bottom (data : Octets) :
    parseDkimSignatureHeader letters (MimeMessage.parseFromBytes letters data) =
      (bottomField letters data "dkim-signature".toList).map fun field => fieldText field.value := by
  have lowered : letters.toLowercase "dkim-signature".toList = "dkim-signature".toList := by
    rw [letters.lowercase_ascii]
    · decide
    · decide
  rw [parseDkimSignatureHeader, headers_parseFromBytes, getFirst_ofTable (parseHeaders_clean letters data),
    lowered, lookup_parseHeaders]

theorem parseHeaders_rawData (data : Octets) :
    (parseHeaders letters (getMessageRawData (MimeMessage.parseFromBytes letters data))).1 =
      (MimeMessage.parseFromBytes letters data).headers.fields.foldl (storeField letters) ∅ := by
  have clean : ∀ field ∈ (MimeMessage.parseFromBytes letters data).headers.fields,
      CleanField letters field := fun field member => cleanField_of_mem member
  generalize MimeMessage.parseFromBytes letters data = message at clean ⊢
  have plain : ∀ field ∈ message.headers.fields, '\n' ∉ field.1 ∧ '\n' ∉ field.2 :=
    fun field member => ⟨(clean field member).name.newline, (clean field member).newline⟩
  obtain ⟨body, whole⟩ : ∃ body, getMessageRawData message =
      message.headers.fields.flatMap (fun field => headerLine field.1 field.2) ++
        ([13, 10] ++ body) := ⟨_, List.append_assoc _ _ _⟩
  have blank : splitLines ([13, 10] ++ body) = [13, 10] :: splitLines body := by
    simp [splitLines]
  rw [parseHeaders_table, whole, splitLines_headers plain, blank,
    parseHeaderLines_fields letters fun field member => (clean field member).writable]
  rfl

theorem lookup_rawData (data : Octets) (name : Text) :
    (parseHeaders letters (getMessageRawData (MimeMessage.parseFromBytes letters data))).1.lookup
        name = ((parseHeaders letters data).1.lookup name).map (' ' :: ·) := by
  have clean := parseHeaders_clean letters data
  have keys : ∀ field ∈ (MimeMessage.parseFromBytes letters data).headers.fields,
      letters.toLowercase (trim field.1) = field.1 := by
    intro field member
    have parsed := (cleanField_of_mem member).name
    rw [parsed.trimmed, parsed.lower]
  have listed : ∀ value, (name, value) ∈ (MimeMessage.parseFromBytes letters data).headers.fields ↔
      (parseHeaders letters data).1.lookup name = some value := fun value => mem_fields_ofTable clean
  rw [parseHeaders_rawData]
  cases held : (parseHeaders letters data).1.lookup name with
  | none =>
      refine (lookup_storeField_other letters (fun field member same => ?_) ∅).trans rfl
      rw [keys field member] at same
      subst same
      rw [(listed field.2).mp member] at held
      cases held
  | some value =>
      have entry := clean ⟨_, value⟩ (Table.mem_entries.mpr held)
      have present := (listed value).mpr held
      have plain : unfoldHeader (' ' :: value) = ' ' :: value :=
        unfoldFrom_plain (by simp [entry.carriage]) (by simp [entry.newline])
      rw [lookup_storeField letters ∅ (fun field member same => ?_)
        (Or.inl ⟨_, present, keys _ present⟩), plain]
      · rfl
      · rw [keys field member] at same
        subst same
        rw [(listed field.2).mp member, Option.some.injEq] at held
        exact held

end Table

/-! Lines. -/

theorem ended_injective {first second : List Octets} {rest behind : Octets}
    (firstEnded : ∀ line ∈ first, ∃ content, line = content ++ [10] ∧ 10 ∉ content)
    (secondEnded : ∀ line ∈ second, ∃ content, line = content ++ [10] ∧ 10 ∉ content)
    (unbroken : 10 ∉ rest) (unended : 10 ∉ behind)
    (same : first.flatten ++ rest = second.flatten ++ behind) : first = second ∧ rest = behind := by
  induction first generalizing second with
  | nil =>
      cases second with
      | nil => exact ⟨rfl, same⟩
      | cons line second =>
          obtain ⟨content, rfl, -⟩ := secondEnded line List.mem_cons_self
          rw [List.flatten_nil, List.nil_append] at same
          rw [same] at unbroken
          simp at unbroken
  | cons line first ih =>
      rw [List.forall_mem_cons] at firstEnded
      obtain ⟨content, rfl, whole⟩ := firstEnded.1
      cases second with
      | nil =>
          rw [List.flatten_nil, List.nil_append] at same
          rw [← same] at unended
          simp at unended
      | cons other second =>
          rw [List.forall_mem_cons] at secondEnded
          obtain ⟨more, rfl, plain⟩ := secondEnded.1
          have cut := congrArg (List.splitOn 10) same
          rw [List.flatten_cons, List.flatten_cons, List.append_assoc, List.append_assoc,
            List.append_assoc, List.append_assoc, List.singleton_append, List.singleton_append,
            List.splitOn_append_cons_self_of_not_mem whole,
            List.splitOn_append_cons_self_of_not_mem plain, List.cons.injEq] at cut
          have later := congrArg (List.intercalate [10]) cut.2
          rw [List.intercalate_splitOn, List.intercalate_splitOn] at later
          obtain ⟨rfl, equal⟩ := ih firstEnded.2 secondEnded.2 later
          exact ⟨by rw [cut.1], equal⟩

theorem rawFields_unbroken {lines : List Octets} (unbroken : ∀ line ∈ lines, 10 ∉ line) :
    ∀ field ∈ rawFields lines, 10 ∉ field.name ∧ 10 ∉ field.value := by
  induction lines with
  | nil => exact fun _ member => nomatch member
  | cons line lines ih =>
      rw [List.forall_mem_cons] at unbroken
      intro field member
      rw [rawFields] at member
      split at member
      · exact ih unbroken.2 field member
      · rcases List.mem_cons.mp member with rfl | later
        · refine ⟨fun inside => unbroken.1 ((List.takeWhile_prefix _).subset inside), fun inside => ?_⟩
          rcases List.mem_append.mp inside with value | folds
          · exact unbroken.1 ((List.dropWhile_suffix _).subset (List.mem_of_mem_tail value))
          · obtain ⟨fold, among, octet⟩ := List.mem_flatten.mp folds
            exact unbroken.2 fold ((List.takeWhile_prefix _).subset among) octet
        · exact ih unbroken.2 field later

theorem messageFields_unbroken {data : Octets} :
    ∀ field ∈ messageFields data, 10 ∉ field.name ∧ 10 ∉ field.value :=
  rawFields_unbroken fun _ member => not_mem_completeLines member

theorem newline_not_mem_relaxValue {value : Octets} (unbroken : 10 ∉ value) : 10 ∉ relaxValue value := by
  intro member
  rcases mem_intercalate member with space | ⟨word, among, inside⟩
  · cases space
  · exact unbroken (subset_of_mem_wordsBy among inside)

section Lines

variable (letters : CaseMapping)

theorem newline_not_mem_fieldKey {name : Octets} (unbroken : 10 ∉ name) :
    '\n' ∉ fieldKey letters name := by
  intro member
  have inside := letters.lowercase_symbol _ '\n' (by decide) (by decide) member
  exact newline_not_mem_decodeLossy unbroken (mem_trim inside)

def fieldLine (name : Text) (value : Octets) : Octets :=
  encodeUtf8 name ++ 58 :: (value ++ [13, 10])

theorem fieldLine_ended {name : Text} {value : Octets} (plain : '\n' ∉ name) (unbroken : 10 ∉ value) :
    ∃ content, fieldLine name value = content ++ [10] ∧ 10 ∉ content := by
  refine ⟨encodeUtf8 name ++ 58 :: (value ++ [13]), by simp [fieldLine], ?_⟩
  simp [newline_not_mem_encodeUtf8 plain, unbroken]

theorem fieldLine_inj {name : Text} {first second : Octets} :
    fieldLine name first = fieldLine name second ↔ first = second := by
  simp [fieldLine]

def mailetLine (field : RawField) : Octets :=
  fieldLine (fieldKey letters field.name) (encodeUtf8 (joinWords (fieldText field.value)))

theorem newline_not_mem_joinWords (text : Text) : '\n' ∉ joinWords text :=
  fun member => absurd (joinWords_plain text '\n' member (by decide)) (by decide)

theorem mailetLines_eq (data : Octets) (names : List Text) :
    (names.flatMap fun name =>
      match (parseHeaders letters
          (getMessageRawData (MimeMessage.parseFromBytes letters data))).1.lookup name with
      | some value => canonicalizeHeader letters "relaxed".toList name value
      | none => []) =
      ((names.filterMap (bottomField letters data)).map (mailetLine letters)).flatten := by
  induction names with
  | nil => rfl
  | cons name names ih =>
      rw [List.flatMap_cons, ih, lookup_rawData, lookup_parseHeaders, List.filterMap_cons]
      cases found : bottomField letters data name with
      | none => rfl
      | some field =>
          have key : fieldKey letters field.name = name := by simpa using List.find?_some found
          have lower : letters.toLowercase name = name := by
            rw [← key, fieldKey, letters.lowercase_idempotent]
          have blank : joinWords (' ' :: fieldText field.value) = joinWords (fieldText field.value) :=
            congrArg (joinWith [' ']) (@splitWhitespace_blanks [' '] (by decide) _)
          have colon : encodeUtf8 (name ++ ':' :: joinWords (fieldText field.value)) =
              encodeUtf8 name ++ 58 :: encodeUtf8 (joinWords (fieldText field.value)) := by
            rw [encodeUtf8_append, encodeUtf8_cons_ascii (by decide)]
            rfl
          simp only [Option.map_some, canonicalizeHeader, if_true, lower, blank, colon]
          simp [mailetLine, fieldLine, key]

def namedFields (data : Octets) (name : Text) : List RawField :=
  (messageFields data).reverse.filter fun field => fieldKey letters field.name = name

theorem head?_namedFields (data : Octets) (name : Text) :
    (namedFields letters data name).head? = bottomField letters data name := List.head?_filter

/-- The field that is signed at a place is one the mailet writes the same line for. -/
def AgreesAt (data : Octets) (name : Text) (place : Nat) : Prop :=
  ∀ bottom, bottomField letters data name = some bottom →
    ∃ field, (namedFields letters data name)[place]? = some field ∧
      encodeUtf8 (joinWords (fieldText bottom.value)) = relaxValue field.value

def AgreesFrom (data : Octets) : List Text → List Text → Prop
  | _, [] => True
  | before, name :: names =>
      AgreesAt letters data name (before.count name) ∧ AgreesFrom data (name :: before) names

variable {letters}

theorem namedFields_key {data : Octets} {name : Text} {field : RawField}
    (member : field ∈ namedFields letters data name) : fieldKey letters field.name = name := by
  simpa using (List.mem_filter.mp member).2

theorem bottomField_key {data : Octets} {name : Text} {field : RawField}
    (found : bottomField letters data name = some field) : fieldKey letters field.name = name := by
  simpa using List.find?_some found

theorem signedFields_length (data : Octets) (before names : List Text) :
    (signedFields letters (messageFields data).reverse before names).length ≤
      (names.filterMap (bottomField letters data)).length := by
  induction names generalizing before with
  | nil => exact Nat.le_refl 0
  | cons name names ih =>
      have shorter := ih (name :: before)
      rw [signedFields, List.filterMap_cons, List.length_append]
      cases found : bottomField letters data name with
      | none =>
          have empty : namedFields letters data name = [] := by
            rw [← List.head?_eq_none_iff, head?_namedFields, found]
          rw [namedFields] at empty
          rw [empty]
          simpa using shorter
      | some field =>
          have single : ∀ choice : Option RawField, choice.toList.length ≤ 1 := by
            intro choice
            cases choice <;> simp
          have one := single ((List.filter (fun field => fieldKey letters field.name = name)
            (messageFields data).reverse)[before.count name]?)
          rw [List.length_cons]
          omega

theorem lines_eq_iff (data : Octets) (before names : List Text) :
    (names.filterMap (bottomField letters data)).map (mailetLine letters) =
        (signedFields letters (messageFields data).reverse before names).map (relaxField letters) ↔
      AgreesFrom letters data before names := by
  induction names generalizing before with
  | nil => simp [signedFields, AgreesFrom]
  | cons name names ih =>
      rw [AgreesFrom, ← ih, signedFields, List.filterMap_cons, AgreesAt, namedFields]
      cases found : bottomField letters data name with
      | none =>
          have empty : namedFields letters data name = [] := by
            rw [← List.head?_eq_none_iff, head?_namedFields, found]
          rw [namedFields] at empty
          simp [empty]
      | some bottom =>
          have key := bottomField_key found
          cases chosen : (List.filter (fun field => fieldKey letters field.name = name)
              (messageFields data).reverse)[before.count name]? with
          | none =>
              refine iff_of_false (fun same => ?_) fun agrees => ?_
              · have sizes := congrArg List.length same
                have shorter := @signedFields_length letters data (name :: before) names
                simp only [Option.toList_none, List.nil_append, List.map_cons, List.length_cons,
                  List.length_map] at sizes
                omega
              · obtain ⟨field, among, -⟩ := agrees.1 bottom rfl
                cases among
          | some field =>
              have named : fieldKey letters field.name = name :=
                @namedFields_key _ data _ _ (List.mem_of_getElem? chosen)
              have lines : mailetLine letters bottom = relaxField letters field ↔
                  encodeUtf8 (joinWords (fieldText bottom.value)) = relaxValue field.value := by
                have line : relaxField letters field = fieldLine name (relaxValue field.value) := by
                  rw [relaxField, named, fieldLine]
                rw [mailetLine, key, line, fieldLine_inj]
              simp [lines]

theorem agreesFrom_iff (data : Octets) (before names : List Text) :
    AgreesFrom letters data before names ↔ ∀ name place, before.count name ≤ place →
      place < before.count name + names.count name → AgreesAt letters data name place := by
  induction names generalizing before with
  | nil =>
      simp only [AgreesFrom, List.count_nil, Nat.add_zero, true_iff]
      intro name place low high
      omega
  | cons first names ih =>
      rw [AgreesFrom, ih]
      constructor
      · rintro ⟨here, later⟩ name place low high
        have rest := later name place
        by_cases same : first = name
        · subst same
          rw [List.count_cons_self] at high rest
          by_cases now : place = before.count first
          · rwa [now]
          · exact rest (by omega) (by omega)
        · rw [List.count_cons_of_ne same] at high rest
          exact rest low high
      · intro all
        refine ⟨all first _ (Nat.le_refl _) (by rw [List.count_cons_self]; omega), ?_⟩
        intro name place low high
        have here := all name place
        by_cases same : first = name
        · subst same
          rw [List.count_cons_self] at low high here
          exact here (by omega) (by omega)
        · rw [List.count_cons_of_ne same] at low high here
          exact here low high

/-- Every name that is listed has no field, or at least as many as it is listed times, the lowest
of them plain and all those of its relaxed form. -/
def FieldsAgree (letters : CaseMapping) (data : Octets) (names : List Text) : Prop :=
  ∀ name ∈ names, ∀ bottom, bottomField letters data name = some bottom →
    PlainValue bottom.value ∧ names.count name ≤ (namedFields letters data name).length ∧
      ∀ field ∈ (namedFields letters data name).take (names.count name),
        relaxValue field.value = relaxValue bottom.value

theorem fieldsAgree_iff (data : Octets) (names : List Text) :
    AgreesFrom letters data [] names ↔ FieldsAgree letters data names := by
  rw [agreesFrom_iff]
  simp only [List.count_nil, Nat.zero_le, Nat.zero_add, true_implies]
  constructor
  · intro all name member bottom found
    have head : (namedFields letters data name)[0]? = some bottom := by
      rw [← List.head?_eq_getElem?, head?_namedFields, found]
    have listed : 0 < names.count name := List.count_pos_iff.mpr member
    have agrees : ∀ place, place < names.count name → ∃ field,
        (namedFields letters data name)[place]? = some field ∧
          encodeUtf8 (joinWords (fieldText bottom.value)) = relaxValue field.value :=
      fun place low => all name place low bottom found
    have own : encodeUtf8 (joinWords (fieldText bottom.value)) = relaxValue bottom.value := by
      obtain ⟨field, among, same⟩ := agrees 0 listed
      rw [head, Option.some.injEq] at among
      rw [same, among]
    refine ⟨(relaxValue_eq_iff _).mp own, ?_, ?_⟩
    · obtain ⟨field, among, -⟩ := agrees (names.count name - 1) (by omega)
      have bound := (List.getElem?_eq_some_iff.mp among).1
      omega
    · intro field member
      obtain ⟨place, bound, rfl⟩ := List.getElem_of_mem member
      rw [List.length_take] at bound
      obtain ⟨field, among, same⟩ := agrees place (by omega)
      obtain ⟨_, here⟩ := List.getElem?_eq_some_iff.mp among
      rw [List.getElem_take, here, ← same, own]
  · intro agree name place low bottom found
    obtain ⟨plain, enough, same⟩ := agree name (List.count_pos_iff.mp (by omega)) bottom found
    have bound : place < (namedFields letters data name).length := by omega
    refine ⟨(namedFields letters data name)[place], List.getElem?_eq_getElem bound, ?_⟩
    rw [(relaxValue_eq_iff _).mpr plain]
    refine (same _ ?_).symm
    exact List.mem_take_iff_getElem.mpr ⟨place, by omega, rfl⟩

end Lines

end Rusmes
