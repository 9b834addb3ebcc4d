import Rusmes.Library.Table
import Rusmes.Library.Words
import Rusmes.Proto.Uuid

/-!
What the header parser makes of the octets the maildir writes. Every line that is
written holds a blank after its colon, and a blank is never part of an identifier.
-/

namespace Rusmes

open WireText

theorem lineContent_crlf (content : Octets) : lineContent (content ++ [13, 10]) = some content := by
  have shape : content ++ [13, 10] = (content ++ [13]) ++ [10] := by simp
  rw [shape, lineContent]
  simp

theorem newline_not_mem_encodeUtf8 {text : Text} (plain : '\n' ∉ text) : 10 ∉ encodeUtf8 text := by
  intro member
  exact plain ((ascii_mem_encodeUtf8 (by decide : ('\n' : Char).toNat < 128) text).mp member)

theorem splitLines_crlf {text : Text} (plain : '\n' ∉ text) (rest : Octets) :
    splitLines (encodeUtf8 text ++ [13, 10] ++ rest) =
      (encodeUtf8 text ++ [13, 10]) :: splitLines rest := by
  have unbroken : 10 ∉ encodeUtf8 text ++ [13] := by
    simp [newline_not_mem_encodeUtf8 plain]
  have shape : encodeUtf8 text ++ [13, 10] ++ rest = (encodeUtf8 text ++ [13]) ++ 10 :: rest := by
    simp
  rw [shape, splitLines_line unbroken]
  simp

theorem splitLines_headers {fields : List (Text × Text)}
    (plain : ∀ field ∈ fields, '\n' ∉ field.1 ∧ '\n' ∉ field.2) (rest : Octets) :
    splitLines (fields.flatMap (fun field => headerLine field.1 field.2) ++ rest) =
      fields.map (fun field => headerLine field.1 field.2) ++ splitLines rest := by
  induction fields with
  | nil => rfl
  | cons field fields ih =>
      have first := plain field List.mem_cons_self
      have later := ih fun other member => plain other (List.mem_cons_of_mem field member)
      have unbroken : '\n' ∉ field.1 ++ ": ".toList ++ field.2 := by
        simp [first.1, first.2]
      rw [List.flatMap_cons, List.map_cons, List.append_assoc, headerLine,
        splitLines_crlf unbroken, later]
      rfl

theorem headerField_encodeUtf8 (letters : CaseMapping) {name value : Text} (plain : ':' ∉ name) :
    headerField letters (encodeUtf8 (name ++ ':' :: value)) =
      some (letters.toLowercase (trim name), value) := by
  have low : (':' : Char).toNat < 128 := by decide
  have shape : encodeUtf8 (name ++ ':' :: value) = encodeUtf8 name ++ 58 :: encodeUtf8 value := by
    rw [encodeUtf8_append, encodeUtf8_cons_ascii low]
    rfl
  have before : ∀ octet ∈ encodeUtf8 name, decide (octet ≠ 58) = true := by
    intro octet member
    rw [decide_eq_true_eq]
    rintro rfl
    exact plain ((ascii_mem_encodeUtf8 low name).mp member)
  rw [headerField, shape, if_pos (by simp), List.takeWhile_append_of_pos before,
    List.dropWhile_append_of_pos before]
  simp

theorem mem_unfoldFrom {mode : Unfolding} {text : Text} {character : Char}
    (member : character ∈ unfoldFrom mode text) : character ≠ '\r' ∧ character ≠ '\n' := by
  induction text generalizing mode with
  | nil => cases member
  | cons first rest ih =>
      simp only [unfoldFrom] at member
      split at member
      · exact ih member
      · rename_i carriage
        split at member
        · exact ih member
        · rename_i newline
          split at member
          · rename_i blank
            cases mode with
            | plain =>
                rcases List.mem_cons.mp member with rfl | later
                · exact ⟨carriage, newline⟩
                · exact ih later
            | afterNewline =>
                rcases List.mem_cons.mp member with rfl | later
                · exact ⟨by decide, by decide⟩
                · exact ih later
            | skipping => exact ih member
          · rcases List.mem_cons.mp member with rfl | later
            · exact ⟨carriage, newline⟩
            · exact ih later

theorem unfoldFrom_append {text : Text} (carriage : '\r' ∉ text) (newline : '\n' ∉ text)
    (rest : Text) : unfoldFrom .plain (text ++ rest) = text ++ unfoldFrom .plain rest := by
  induction text with
  | nil => rfl
  | cons first text ih =>
      rw [List.mem_cons, not_or] at carriage newline
      have later := ih carriage.2 newline.2
      simp only [List.cons_append, unfoldFrom, Ne.symm carriage.1, Ne.symm newline.1, if_false, later]
      split <;> rfl

theorem unfoldFrom_plain {text : Text} (carriage : '\r' ∉ text) (newline : '\n' ∉ text) :
    unfoldFrom .plain text = text := by
  have whole := unfoldFrom_append carriage newline []
  rwa [List.append_nil, unfoldFrom, List.append_nil] at whole

theorem space_mem_unfoldFrom {text : Text} (newline : '\n' ∉ text) (space : ' ' ∈ text) :
    ' ' ∈ unfoldFrom .plain text := by
  induction text with
  | nil => cases space
  | cons first rest ih =>
      rw [List.mem_cons, not_or] at newline
      by_cases blank : first = ' '
      · subst blank
        simp [unfoldFrom]
      · have later := ih newline.2 (by simpa [Ne.symm blank] using space)
        simp only [unfoldFrom, Ne.symm newline.1, if_false]
        split
        · exact later
        · split
          · exact List.mem_cons_of_mem _ later
          · exact List.mem_cons_of_mem _ later

theorem space_after_colon {name value before after : Text}
    (split : name ++ ':' :: ' ' :: value = before ++ ':' :: after) (first : ':' ∉ before) :
    ' ' ∈ after := by
  rcases List.append_eq_append_iff.mp split with ⟨gap, whole, rest⟩ | ⟨gap, whole, rest⟩
  · cases gap with
    | nil =>
        rw [List.nil_append, List.cons.injEq] at rest
        simp [← rest.2]
    | cons colon gap =>
        rw [List.cons_append, List.cons.injEq] at rest
        rw [whole, ← rest.1] at first
        simp at first
  · cases gap with
    | nil =>
        rw [List.nil_append, List.cons.injEq] at rest
        simp [rest.2]
    | cons colon gap =>
        rw [List.cons_append, List.cons.injEq] at rest
        simp [rest.2]

def SpacedValue (value : Text) : Prop := ' ' ∈ value ∧ '\n' ∉ value

theorem flush_spaced {table : HeaderTable} {current : Option (Text × Text)}
    (stored : ∀ entry ∈ table.entries, ' ' ∈ entry.2)
    (reading : ∀ field, current = some field → SpacedValue field.2) :
    ∀ entry ∈ (table.flush current).entries, ' ' ∈ entry.2 := by
  cases current with
  | none => exact stored
  | some field =>
      obtain ⟨space, newline⟩ := reading field rfl
      intro entry member
      rw [HeaderTable.flush, AList.entries_insert] at member
      rcases List.mem_cons.mp member with rfl | later
      · exact space_mem_unfoldFrom newline space
      · exact stored entry ((List.kerase_sublist _ _).subset later)

/-- Header lines without line feeds in names or values leave the body after the blank
line, and nothing but values with a blank in them. -/
theorem parseHeaderLines_spaced (letters : CaseMapping) {fields : List (Text × Text)}
    (plain : ∀ field ∈ fields, '\n' ∉ field.1 ∧ '\n' ∉ field.2) {table : HeaderTable}
    {current : Option (Text × Text)} (stored : ∀ entry ∈ table.entries, ' ' ∈ entry.2)
    (reading : ∀ field, current = some field → SpacedValue field.2) (rest : List Octets) :
    let parsed := parseHeaderLines letters table current
      (fields.map (fun field => headerLine field.1 field.2) ++ [13, 10] :: rest)
    parsed.2 = rest.flatten ∧ ∀ entry ∈ parsed.1.entries, ' ' ∈ entry.2 := by
  induction fields generalizing table current with
  | nil =>
      have blank : lineContent [13, 10] = some [] := lineContent_crlf []
      simp only [List.map_nil, List.nil_append, parseHeaderLines, blank, if_true]
      exact ⟨trivial, flush_spaced stored reading⟩
  | cons field fields ih =>
      obtain ⟨name, value⟩ := field
      have first := plain (name, value) List.mem_cons_self
      have later := fun other member => plain other (List.mem_cons_of_mem (name, value) member)
      have content : lineContent (headerLine name value) =
          some (encodeUtf8 (name ++ ": ".toList ++ value)) := lineContent_crlf _
      have shape : name ++ ": ".toList ++ value = name ++ ':' :: ' ' :: value := by simp
      have unbroken : '\n' ∉ name ++ ':' :: ' ' :: value := by simp [first.1, first.2]
      have full : encodeUtf8 (name ++ ':' :: ' ' :: value) ≠ [] := by
        intro empty
        have octet := (ascii_mem_encodeUtf8 (by decide : (':' : Char).toNat < 128)
          (name ++ ':' :: ' ' :: value)).mpr (by simp)
        rw [empty] at octet
        cases octet
      rw [shape] at content
      simp only [List.map_cons, List.cons_append, parseHeaderLines, content, full, if_false]
      split
      · apply ih later stored
        intro grown extended
        obtain ⟨old, held, rfl⟩ := Option.map_eq_some_iff.mp extended
        obtain ⟨space, newline⟩ := reading old held
        rw [decodeLossy_encodeUtf8]
        refine ⟨List.mem_append_left _ space, ?_⟩
        rw [List.mem_append, not_or]
        exact ⟨newline, unbroken⟩
      · apply ih later (flush_spaced stored reading)
        intro started read
        have colon : ':' ∈ name ++ ':' :: ' ' :: value := by simp
        obtain ⟨before, after, split, absent⟩ := List.eq_append_cons_of_mem colon
        rw [split, headerField_encodeUtf8 letters absent, Option.some.injEq] at read
        rw [← read]
        refine ⟨space_after_colon split absent, ?_⟩
        intro newline
        rw [split] at unbroken
        exact unbroken (by simp [newline])

structure ParsedName (letters : CaseMapping) (name : Text) : Prop where
  lower : letters.toLowercase name = name
  trimmed : trim name = name
  colon : ':' ∉ name
  newline : '\n' ∉ name

theorem headerField_parsed {letters : CaseMapping} {line : Octets} {field : Text × Text}
    (unbroken : 10 ∉ line) (read : headerField letters line = some field) :
    ParsedName letters field.1 := by
  rw [headerField] at read
  split at read
  · rw [Option.some.injEq] at read
    rw [← read]
    have symbol : ∀ character : Char, character.toNat < 128 → character.isAlpha = false →
        UInt8.ofNat character.toNat ∉ line.takeWhile (· ≠ 58) →
        character ∉ letters.toLowercase (trim (decodeLossy (line.takeWhile (· ≠ 58)))) := by
      intro character low plain absent member
      have source := letters.lowercase_symbol _ character low plain member
      exact absent (ascii_mem_decodeLossy low (mem_trim source))
    refine ⟨letters.lowercase_idempotent _, ?_, ?_, ?_⟩
    · rw [letters.lowercase_trim, trim_trim]
    · refine symbol ':' (by decide) (by decide) ?_
      intro member
      have different := List.mem_takeWhile_imp member
      simp at different
    · refine symbol '\n' (by decide) (by decide) ?_
      intro member
      exact unbroken ((List.takeWhile_prefix _).subset member)
  · cases read

structure CleanField (letters : CaseMapping) (field : Text × Text) : Prop where
  name : ParsedName letters field.1
  carriage : '\r' ∉ field.2
  newline : '\n' ∉ field.2

def CleanTable (letters : CaseMapping) (table : HeaderTable) : Prop :=
  ∀ entry ∈ table.entries, CleanField letters (entry.1, entry.2)

theorem flush_clean {letters : CaseMapping} {table : HeaderTable}
    {current : Option (Text × Text)} (clean : CleanTable letters table)
    (reading : ∀ field, current = some field → ParsedName letters field.1) :
    CleanTable letters (table.flush current) := by
  cases current with
  | none => exact clean
  | some field =>
      intro entry member
      rw [HeaderTable.flush, AList.entries_insert] at member
      rcases List.mem_cons.mp member with rfl | later
      · exact ⟨reading field rfl, fun inside => (mem_unfoldFrom inside).1 rfl,
          fun inside => (mem_unfoldFrom inside).2 rfl⟩
      · exact clean entry ((List.kerase_sublist _ _).subset later)

theorem lineContent_unbroken {line content : Octets} (unbroken : 10 ∉ line.dropLast)
    (complete : lineContent line = some content) : 10 ∉ content := by
  simp only [lineContent] at complete
  split at complete
  · rw [Option.some.injEq] at complete
    rw [← complete]
    split
    · intro member
      exact unbroken (List.dropLast_subset _ member)
    · exact unbroken
  · cases complete

theorem parseHeaderLines_clean (letters : CaseMapping) {lines : List Octets}
    (unbroken : ∀ line ∈ lines, 10 ∉ line.dropLast) {table : HeaderTable}
    {current : Option (Text × Text)} (clean : CleanTable letters table)
    (reading : ∀ field, current = some field → ParsedName letters field.1) :
    CleanTable letters (parseHeaderLines letters table current lines).1 := by
  induction lines generalizing table current with
  | nil => exact flush_clean clean reading
  | cons line lines ih =>
      have later := fun other member => unbroken other (List.mem_cons_of_mem line member)
      rw [parseHeaderLines]
      cases complete : lineContent line with
      | none => exact flush_clean clean reading
      | some content =>
          dsimp only
          split
          · exact flush_clean clean reading
          · split
            · apply ih later clean
              intro grown extended
              obtain ⟨old, held, rfl⟩ := Option.map_eq_some_iff.mp extended
              exact reading old held
            · apply ih later (flush_clean clean reading)
              intro field read
              exact headerField_parsed
                (lineContent_unbroken (unbroken line List.mem_cons_self) complete) read

theorem parseHeaders_clean (letters : CaseMapping) (data : Octets) :
    CleanTable letters (parseHeaders letters data).1 := by
  apply parseHeaderLines_clean letters fun line member => splitLines_unbroken member
  · intro entry member
    cases member
  · intro field held
    cases held

theorem lookup_foldl_insert (letters : CaseMapping) {entries : List (Sigma fun _ : Text => Text)}
    (distinct : entries.NodupKeys) (lower : ∀ entry ∈ entries, letters.toLowercase entry.1 = entry.1)
    (headers : HeaderMap) (name : Text) :
    (entries.foldl (fun headers entry => headers.insert letters.toLowercase entry.1 entry.2)
        headers).lookup name =
      match entries.dlookup name with
      | none => headers.lookup name
      | some value => some ((headers.lookup name).getD [] ++ [value]) := by
  induction entries generalizing headers with
  | nil => rfl
  | cons entry entries ih =>
      obtain ⟨first, value⟩ := entry
      have kept : letters.toLowercase first = first := lower ⟨first, value⟩ List.mem_cons_self
      rw [List.nodupKeys_cons] at distinct
      rw [List.foldl_cons, ih distinct.2 fun other member => lower other (List.mem_cons_of_mem _ member)]
      simp only [HeaderMap.insert, kept]
      by_cases same : name = first
      · subst same
        rw [List.dlookup_eq_none.mpr distinct.1]
        simp only [AList.lookup_insert, List.dlookup_cons_eq]
        rw [kept]
      · rw [List.dlookup_cons_ne _ _ same, AList.lookup_insert_ne same]

theorem lookup_ofTable {letters : CaseMapping} {table : HeaderTable}
    (clean : CleanTable letters table) (name : Text) :
    (HeaderMap.ofTable letters table).lookup name = (table.lookup name).map fun value => [value] := by
  rw [HeaderMap.ofTable, lookup_foldl_insert letters table.nodupKeys
    fun entry member => (clean entry member).name.lower]
  change (match table.lookup name with | none => _ | some value => _) = _
  cases table.lookup name with
  | none => rfl
  | some value => rfl

theorem getFirst_ofTable {letters : CaseMapping} {table : HeaderTable}
    (clean : CleanTable letters table) (name : Text) :
    (HeaderMap.ofTable letters table).getFirst letters name =
      table.lookup (letters.toLowercase name) := by
  rw [HeaderMap.getFirst, lookup_ofTable clean]
  cases table.lookup (letters.toLowercase name) with
  | none => rfl
  | some value => rfl

def Mail.fieldsWritten (mail : Mail) : List (Text × Text) :=
  ("X-Rusmes-Message-Id".toList, mail.messageId.display) :: mail.message.headers.fields

def Mail.PlainHeaders (mail : Mail) : Prop :=
  ∀ field ∈ mail.message.headers.fields, '\n' ∉ field.1 ∧ '\n' ∉ field.2

theorem display_solid (id : MessageId) {character : Char} (member : character ∈ id.display) :
    isWhitespace character = false :=
  parseUuid_solid (parseUuid_display id) member

theorem display_whole (id : MessageId) {blank : Char} (white : isWhitespace blank = true) :
    blank ∉ id.display := by
  intro member
  rw [display_solid id member] at white
  cases white

theorem Mail.PlainHeaders.fieldsWritten {mail : Mail} (plain : mail.PlainHeaders) :
    ∀ field ∈ mail.fieldsWritten, '\n' ∉ field.1 ∧ '\n' ∉ field.2 := by
  intro field member
  rcases List.mem_cons.mp member with rfl | later
  · refine ⟨?_, ?_⟩
    · dsimp only
      decide
    · exact display_whole mail.messageId rfl
  · exact plain field later

theorem splitLines_serialize {mail : Mail} (plain : mail.PlainHeaders) :
    splitLines (serializeMessageToBytes mail) =
      mail.fieldsWritten.map (fun field => headerLine field.1 field.2) ++
        [13, 10] :: splitLines mail.message.body.octets := by
  have shape : serializeMessageToBytes mail =
      mail.fieldsWritten.flatMap (fun field => headerLine field.1 field.2) ++
        ([13, 10] ++ mail.message.body.octets) := by
    simp [serializeMessageToBytes, Mail.fieldsWritten]
  have blank : splitLines ([13, 10] ++ mail.message.body.octets) =
      [13, 10] :: splitLines mail.message.body.octets := by
    simp [splitLines]
  rw [shape, splitLines_headers plain.fieldsWritten, blank]

theorem parseHeaders_table (letters : CaseMapping) (data : Octets) :
    (parseHeaders letters data).1 = (parseHeaderLines letters ∅ none (splitLines data)).1 := rfl

theorem parse_serialize_spaced (letters : CaseMapping) {mail : Mail} (plain : mail.PlainHeaders) :
    (parseHeaderLines letters ∅ none (splitLines (serializeMessageToBytes mail))).2 =
        mail.message.body.octets ∧
      ∀ entry ∈ (parseHeaderLines letters ∅ none
        (splitLines (serializeMessageToBytes mail))).1.entries, ' ' ∈ entry.2 := by
  have stored : ∀ entry ∈ (∅ : HeaderTable).entries, ' ' ∈ entry.2 := by
    intro entry member
    cases member
  have reading : ∀ field : Text × Text, none = some field → SpacedValue field.2 := by
    intro field held
    cases held
  have parsed := parseHeaderLines_spaced letters plain.fieldsWritten stored reading
    (splitLines mail.message.body.octets)
  rw [splitLines_flatten, ← splitLines_serialize plain] at parsed
  exact parsed

theorem body_serialize (letters : CaseMapping) {mail : Mail} (plain : mail.PlainHeaders) :
    (MimeMessage.parseFromBytes letters (serializeMessageToBytes mail)).body =
      .small mail.message.body.octets := by
  have body := (parse_serialize_spaced letters plain).1
  have offset : (parseHeaders letters (serializeMessageToBytes mail)).2 =
      (serializeMessageToBytes mail).length - mail.message.body.octets.length := by
    rw [parseHeaders, ← body]
  rw [MimeMessage.parseFromBytes]
  dsimp only
  rw [offset, serializeMessageToBytes, List.length_append, Nat.add_sub_cancel, List.drop_left]

theorem listedId_serialize (letters : CaseMapping) {mail : Mail} (plain : mail.PlainHeaders) :
    (MimeMessage.parseFromBytes letters (serializeMessageToBytes mail)).listedId letters = none := by
  have spaced := (parse_serialize_spaced letters plain).2
  rw [← parseHeaders_table] at spaced
  rw [MimeMessage.listedId, MimeMessage.parseFromBytes]
  dsimp only
  rw [getFirst_ofTable (parseHeaders_clean letters _)]
  cases found : (parseHeaders letters (serializeMessageToBytes mail)).1.lookup
      (letters.toLowercase rusmesMessageId) with
  | none => rfl
  | some value =>
      have space := spaced ⟨_, value⟩ (AList.mem_lookup_iff.mp found)
      cases read : parseUuid value with
      | none => simp [read]
      | some uuid => exact absurd (parseUuid_solid read space) (by decide)

structure Writable (field : Text × Text) : Prop where
  colon : ':' ∉ field.1
  start : ∀ first rest, field.1 = first :: rest → isWhitespace first = false
  name : '\n' ∉ field.1
  value : '\n' ∉ field.2

def storeField (letters : CaseMapping) (table : HeaderTable) (field : Text × Text) : HeaderTable :=
  AList.insert (letters.toLowercase (trim field.1)) (unfoldHeader (' ' :: field.2)) table

theorem continuesField_writable {field : Text × Text} (writable : Writable field) :
    continuesField (encodeUtf8 (field.1 ++ ':' :: ' ' :: field.2)) = false := by
  have absent : ∀ blank : Char, blank.toNat < 128 → blank ≠ ':' → isWhitespace blank = true →
      (encodeUtf8 (field.1 ++ ':' :: ' ' :: field.2)).head? ≠ some (UInt8.ofNat blank.toNat) := by
    intro blank low other space found
    obtain ⟨octets, encoded⟩ := List.head?_eq_some_iff.mp found
    obtain ⟨rest, text, -⟩ := encodeUtf8_eq_cons_ascii low encoded
    cases name : field.1 with
    | nil =>
        rw [name, List.nil_append, List.cons.injEq] at text
        exact other text.1.symm
    | cons first later =>
        rw [name, List.cons_append, List.cons.injEq] at text
        have solid := writable.start first later name
        rw [text.1, space] at solid
        cases solid
  rw [continuesField, Bool.or_eq_false_iff, decide_eq_false_iff_not, decide_eq_false_iff_not]
  exact ⟨absent ' ' (by decide) (by decide) (by decide),
    absent '\t' (by decide) (by decide) (by decide)⟩

theorem parseHeaderLines_fields (letters : CaseMapping) {fields : List (Text × Text)}
    (writable : ∀ field ∈ fields, Writable field) (table : HeaderTable)
    (current : Option (Text × Text)) (rest : List Octets) :
    (parseHeaderLines letters table current
      (fields.map (fun field => headerLine field.1 field.2) ++ [13, 10] :: rest)).1 =
      fields.foldl (storeField letters) (table.flush current) := by
  induction fields generalizing table current with
  | nil =>
      have blank : lineContent [13, 10] = some [] := lineContent_crlf []
      simp only [List.map_nil, List.nil_append, parseHeaderLines, blank, if_true, List.foldl_nil]
  | cons field fields ih =>
      have first := writable field List.mem_cons_self
      have shape : field.1 ++ ": ".toList ++ field.2 = field.1 ++ ':' :: ' ' :: field.2 := by simp
      have content : lineContent (headerLine field.1 field.2) =
          some (encodeUtf8 (field.1 ++ ':' :: ' ' :: field.2)) := by
        rw [← shape]
        exact lineContent_crlf _
      have full : encodeUtf8 (field.1 ++ ':' :: ' ' :: field.2) ≠ [] := by
        intro empty
        have octet := (ascii_mem_encodeUtf8 (by decide : (':' : Char).toNat < 128)
          (field.1 ++ ':' :: ' ' :: field.2)).mpr (by simp)
        rw [empty] at octet
        cases octet
      simp only [List.map_cons, List.cons_append, parseHeaderLines, content, full, if_false,
        continuesField_writable first, Bool.false_eq_true, List.foldl_cons]
      rw [ih fun other member => writable other (List.mem_cons_of_mem _ member),
        headerField_encodeUtf8 letters first.colon]
      rfl

theorem lookup_storeField_other (letters : CaseMapping) {fields : List (Text × Text)} {name : Text}
    (absent : ∀ field ∈ fields, letters.toLowercase (trim field.1) ≠ name) (table : HeaderTable) :
    (fields.foldl (storeField letters) table).lookup name = table.lookup name := by
  induction fields generalizing table with
  | nil => rfl
  | cons field fields ih =>
      rw [List.foldl_cons, ih fun other member => absent other (List.mem_cons_of_mem _ member)]
      exact AList.lookup_insert_ne (Ne.symm (absent field List.mem_cons_self))

theorem lookup_storeField (letters : CaseMapping) {fields : List (Text × Text)}
    {name value : Text} (table : HeaderTable)
    (only : ∀ field ∈ fields, letters.toLowercase (trim field.1) = name → field.2 = value)
    (stored : (∃ field ∈ fields, letters.toLowercase (trim field.1) = name) ∨
      table.lookup name = some (unfoldHeader (' ' :: value))) :
    (fields.foldl (storeField letters) table).lookup name =
      some (unfoldHeader (' ' :: value)) := by
  induction fields generalizing table with
  | nil =>
      rcases stored with ⟨field, member, _⟩ | held
      · cases member
      · exact held
  | cons field fields ih =>
      apply ih _ fun other member => only other (List.mem_cons_of_mem _ member)
      by_cases same : letters.toLowercase (trim field.1) = name
      · right
        have equal := only field List.mem_cons_self same
        subst same
        rw [← equal]
        exact AList.lookup_insert _
      · rcases stored with ⟨other, member, match_⟩ | held
        · rcases List.mem_cons.mp member with rfl | later
          · exact absurd match_ same
          · exact Or.inl ⟨other, later, match_⟩
        · right
          rw [← held]
          exact AList.lookup_insert_ne (Ne.symm same)

/-! A parsed message written again, as a copy is. -/

theorem lowercase_rusmesMessageId (letters : CaseMapping) :
    letters.toLowercase rusmesMessageId = rusmesMessageId := by
  rw [letters.lowercase_ascii]
  · decide
  · have low : rusmesMessageId.all (fun character => decide (character.toNat < 128)) = true := by
      decide
    intro character member
    simpa using List.all_eq_true.mp low character member

theorem lowercase_written (letters : CaseMapping) :
    letters.toLowercase (trim "X-Rusmes-Message-Id".toList) = rusmesMessageId := by
  have trimmed : trim "X-Rusmes-Message-Id".toList = "X-Rusmes-Message-Id".toList := by decide
  rw [trimmed, letters.lowercase_ascii]
  · decide
  · have low : "X-Rusmes-Message-Id".toList.all
        (fun character => decide (character.toNat < 128)) = true := by
      decide
    intro character member
    simpa using List.all_eq_true.mp low character member

theorem mem_fields_ofTable {letters : CaseMapping} {table : HeaderTable}
    (clean : CleanTable letters table) {name value : Text} :
    (name, value) ∈ (HeaderMap.ofTable letters table).fields ↔ table.lookup name = some value := by
  rw [HeaderMap.fields, List.mem_flatMap]
  constructor
  · rintro ⟨⟨key, values⟩, member, inside⟩
    obtain ⟨held, among, same⟩ := List.mem_map.mp inside
    have found : (HeaderMap.ofTable letters table).lookup key = some values :=
      AList.mem_lookup_iff.mpr member
    rw [lookup_ofTable clean] at found
    obtain ⟨stored, looked, single⟩ := Option.map_eq_some_iff.mp found
    rw [← single, List.mem_singleton] at among
    rw [Prod.mk.injEq] at same
    rw [← same.1, ← same.2, among]
    exact looked
  · intro looked
    refine ⟨⟨name, [value]⟩, ?_, by simp⟩
    apply AList.mem_lookup_iff.mp
    rw [lookup_ofTable clean, looked]
    rfl

theorem CleanField.writable {letters : CaseMapping} {field : Text × Text}
    (clean : CleanField letters field) : Writable field where
  colon := clean.name.colon
  start _ _ shape := trim_head (clean.name.trimmed.trans shape)
  name := clean.name.newline
  value := clean.newline

theorem headers_parseFromBytes (letters : CaseMapping) (data : Octets) :
    (MimeMessage.parseFromBytes letters data).headers =
      HeaderMap.ofTable letters (parseHeaders letters data).1 := rfl

theorem cleanField_of_mem {letters : CaseMapping} {data : Octets} {field : Text × Text}
    (member : field ∈ (MimeMessage.parseFromBytes letters data).headers.fields) :
    CleanField letters field := by
  have clean := parseHeaders_clean letters data
  exact clean ⟨field.1, field.2⟩ (Table.mem_entries.mpr ((mem_fields_ofTable clean).mp member))

theorem plainHeaders_of_parsed {letters : CaseMapping} {data : Octets} {mail : Mail}
    (parsed : mail.message.headers = (MimeMessage.parseFromBytes letters data).headers) :
    mail.PlainHeaders := by
  intro field member
  rw [parsed] at member
  have clean := cleanField_of_mem member
  exact ⟨clean.name.newline, clean.newline⟩

theorem fieldsWritten_writable {letters : CaseMapping} {data : Octets} {mail : Mail}
    (parsed : mail.message.headers = (MimeMessage.parseFromBytes letters data).headers) :
    ∀ field ∈ mail.fieldsWritten, Writable field := by
  intro field member
  rcases List.mem_cons.mp member with rfl | later
  · refine ⟨?_, ?_, ?_, ?_⟩
    · dsimp only
      decide
    · intro _ _ shape
      cases shape
      decide
    · dsimp only
      decide
    · exact display_whole mail.messageId rfl
  · rw [parsed] at later
    exact (cleanField_of_mem later).writable

theorem storedId_reserialize {letters : CaseMapping} {data : Octets} {mail : Mail}
    (parsed : mail.message.headers = (MimeMessage.parseFromBytes letters data).headers) :
    (MimeMessage.parseFromBytes letters (serializeMessageToBytes mail)).storedId letters =
      match (MimeMessage.parseFromBytes letters data).headers.getFirst letters rusmesMessageId with
      | none => some mail.messageId
      | some _ => (MimeMessage.parseFromBytes letters data).storedId letters := by
  have clean := parseHeaders_clean letters data
  have plain := plainHeaders_of_parsed parsed
  have table : (parseHeaders letters (serializeMessageToBytes mail)).1 =
      mail.fieldsWritten.foldl (storeField letters) ∅ := by
    rw [parseHeaders_table, splitLines_serialize plain,
      parseHeaderLines_fields letters (fieldsWritten_writable parsed)]
    rfl
  have keys : ∀ field ∈ mail.message.headers.fields,
      letters.toLowercase (trim field.1) = field.1 := by
    intro field member
    rw [parsed] at member
    have name := (cleanField_of_mem member).name
    rw [name.trimmed, name.lower]
  have trimmed : ∀ value, trim (' ' :: value) = trim value := trim_cons_blank rfl
  have solid : ∀ value : Text, '\r' ∉ value → '\n' ∉ value →
      unfoldHeader (' ' :: value) = ' ' :: value := by
    intro value carriage newline
    apply unfoldFrom_plain
    · simp [carriage]
    · simp [newline]
  have first : (storeField letters ∅ ("X-Rusmes-Message-Id".toList, mail.messageId.display)).lookup
      rusmesMessageId = some (' ' :: mail.messageId.display) := by
    rw [storeField, lowercase_written, AList.lookup_insert, solid]
    · exact display_whole mail.messageId rfl
    · exact display_whole mail.messageId rfl
  have original : (MimeMessage.parseFromBytes letters data).headers.getFirst letters
      rusmesMessageId = (parseHeaders letters data).1.lookup rusmesMessageId := by
    rw [headers_parseFromBytes, getFirst_ofTable clean, lowercase_rusmesMessageId]
  have copy : (MimeMessage.parseFromBytes letters (serializeMessageToBytes mail)).headers.getFirst
      letters rusmesMessageId =
        (mail.message.headers.fields.foldl (storeField letters)
          (storeField letters ∅ ("X-Rusmes-Message-Id".toList, mail.messageId.display))).lookup
            rusmesMessageId := by
    rw [headers_parseFromBytes, getFirst_ofTable (parseHeaders_clean letters _), table,
      lowercase_rusmesMessageId]
    rfl
  rw [MimeMessage.storedId, MimeMessage.storedId, copy, original]
  cases held : (parseHeaders letters data).1.lookup rusmesMessageId with
  | none =>
      have absent : ∀ field ∈ mail.message.headers.fields,
          letters.toLowercase (trim field.1) ≠ rusmesMessageId := by
        intro field member same
        rw [keys field member] at same
        rw [parsed, headers_parseFromBytes] at member
        have looked := (mem_fields_ofTable clean).mp member
        rw [same, held] at looked
        cases looked
      rw [lookup_storeField_other letters absent, first, Option.bind_some, trimmed,
        trim_solid fun character => display_solid mail.messageId, parseUuid_display]
      rfl
  | some value =>
      have entry := clean ⟨_, value⟩ (Table.mem_entries.mpr held)
      have only : ∀ field ∈ mail.message.headers.fields,
          letters.toLowercase (trim field.1) = rusmesMessageId → field.2 = value := by
        intro field member same
        rw [keys field member] at same
        rw [parsed, headers_parseFromBytes] at member
        have looked := (mem_fields_ofTable clean).mp member
        rw [same, held, Option.some.injEq] at looked
        exact looked.symm
      have present : (rusmesMessageId, value) ∈ mail.message.headers.fields := by
        rw [parsed, headers_parseFromBytes]
        exact (mem_fields_ofTable clean).mpr held
      rw [lookup_storeField letters _ only (Or.inl ⟨_, present, keys _ present⟩),
        solid value entry.carriage entry.newline, Option.bind_some, trimmed]
      rfl

def smuggledId (id : MessageId) : Text := '\n' :: ("X-Rusmes-Message-Id:".toList ++ id.display)

def smuggling (id : MessageId) : Mail :=
  Mail.new ⟨0⟩ id (some alice) [] ⟨AList.singleton "subject".toList [smuggledId id], .small []⟩
    none none

theorem splitLines_smuggling (id : MessageId) :
    splitLines (serializeMessageToBytes (smuggling id)) =
      [encodeUtf8 ("X-Rusmes-Message-Id".toList ++ ':' :: ' ' :: id.display) ++ [13, 10],
        encodeUtf8 ("subject".toList ++ [':', ' ']) ++ [10],
        encodeUtf8 ("X-Rusmes-Message-Id".toList ++ ':' :: id.display) ++ [13, 10], [13, 10]] := by
  have display : '\n' ∉ id.display := display_whole id rfl
  have data : serializeMessageToBytes (smuggling id) =
      encodeUtf8 ("X-Rusmes-Message-Id".toList ++ ':' :: ' ' :: id.display) ++ [13, 10] ++
        (encodeUtf8 ("subject".toList ++ [':', ' ']) ++ 10 ::
          (encodeUtf8 ("X-Rusmes-Message-Id".toList ++ ':' :: id.display) ++ [13, 10] ++
            [13, 10])) := by
    have fields : (smuggling id).message.headers.fields = [("subject".toList, smuggledId id)] := rfl
    have first : headerLine "X-Rusmes-Message-Id".toList id.display =
        encodeUtf8 ("X-Rusmes-Message-Id".toList ++ ':' :: ' ' :: id.display) ++ [13, 10] := by
      rw [headerLine, List.append_assoc]
      rfl
    have second : headerLine "subject".toList (smuggledId id) =
        encodeUtf8 ("subject".toList ++ [':', ' ']) ++ 10 ::
          (encodeUtf8 ("X-Rusmes-Message-Id".toList ++ ':' :: id.display) ++ [13, 10]) := by
      have named : "X-Rusmes-Message-Id:".toList = "X-Rusmes-Message-Id".toList ++ [':'] := rfl
      have separator : ": ".toList = [':', ' '] := rfl
      rw [headerLine, smuggledId, encodeUtf8_append, encodeUtf8_cons_ascii (by decide),
        List.append_assoc, named, separator, List.append_assoc, List.cons_append]
      rfl
    rw [serializeMessageToBytes, fields, List.flatMap_singleton, second]
    change headerLine "X-Rusmes-Message-Id".toList id.display ++ _ ++ [13, 10] ++ [] = _
    rw [first]
    simp only [List.append_assoc, List.cons_append, List.append_nil]
  rw [data, splitLines_crlf, splitLines_line, splitLines_crlf]
  · rfl
  · simp [display]
  · exact newline_not_mem_encodeUtf8 (by decide)
  · simp [display]

theorem listedId_smuggling (letters : CaseMapping) (id : MessageId) :
    (MimeMessage.parseFromBytes letters (serializeMessageToBytes (smuggling id))).listedId letters =
      some id := by
  have full : ∀ text : Text, ':' ∈ text → encodeUtf8 text ≠ [] := by
    intro text colon empty
    have octet := (ascii_mem_encodeUtf8 (by decide : (':' : Char).toNat < 128) text).mpr colon
    rw [empty] at octet
    cases octet
  have starts : ∀ rest : Text, continuesField (encodeUtf8 ("X-Rusmes-Message-Id".toList ++ rest)) =
      false := by
    intro rest
    rw [encodeUtf8_append]
    rfl
  have table : ∃ others : HeaderTable,
      (parseHeaders letters (serializeMessageToBytes (smuggling id))).1 =
        AList.insert rusmesMessageId (unfoldHeader id.display) others := by
    have bare : lineContent (encodeUtf8 ("subject".toList ++ [':', ' ']) ++ [10]) =
        some (encodeUtf8 ("subject".toList ++ [':', ' '])) := rfl
    have subject : continuesField (encodeUtf8 ("subject".toList ++ [':', ' '])) = false := rfl
    have blank : lineContent [13, 10] = some [] := rfl
    rw [parseHeaders_table, splitLines_smuggling]
    simp only [parseHeaderLines, lineContent_crlf, bare, blank, starts, subject, if_false, if_true,
      Bool.false_eq_true]
    rw [if_neg (full _ (by simp)), if_neg (full _ (by simp)), if_neg (full _ (by simp)),
      headerField_encodeUtf8 letters (by decide), headerField_encodeUtf8 letters (by decide),
      headerField_encodeUtf8 letters (by decide), lowercase_written]
    exact ⟨_, rfl⟩
  obtain ⟨others, shape⟩ := table
  have unfolded : unfoldHeader id.display = id.display :=
    unfoldFrom_plain (display_whole id rfl) (display_whole id rfl)
  rw [MimeMessage.listedId, headers_parseFromBytes, getFirst_ofTable (parseHeaders_clean letters _),
    shape, lowercase_rusmesMessageId, AList.lookup_insert, unfolded, Option.bind_some,
    parseUuid_display]
  rfl

end Rusmes
