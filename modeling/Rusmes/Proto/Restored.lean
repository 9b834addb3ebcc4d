import Mathlib.Data.List.Flatten
import Mathlib.Data.List.Perm.Subperm
import Rusmes.Proto.Repeated

/-!
A mail that is written, read back and written again under its identifier. What was written
as the line of the identifier comes back as a field, and every value comes back with a blank
before it, so the second file is longer than the first.
-/

namespace Rusmes

open WireText

def Mail.reading (letters : CaseMapping) (mail : Mail) (data : Octets) : Mail :=
  { mail with message := MimeMessage.parseFromBytes letters data }

def Mail.restored (letters : CaseMapping) (mail : Mail) : Mail :=
  mail.reading letters (serializeMessageToBytes mail)

def Mail.fileInOrder (mail : Mail) (fields : List (Text × Text)) : Octets :=
  headerLine "X-Rusmes-Message-Id".toList mail.messageId.display ++
    fields.flatMap (fun field => headerLine field.1 field.2) ++ [13, 10] ++ mail.message.body.octets

structure Mail.Restores (letters : CaseMapping) (mail : Mail) : Prop where
  file : ∃ fields : List (Text × Text),
    fields.Perm (mail.restored letters).message.headers.fields ∧
      (mail.restored letters).fileInOrder fields = serializeMessageToBytes mail
  firstBody : (mail.restored letters).message.body.octets = mail.message.body.octets
  secondBody : ((mail.restored letters).restored letters).message.body.octets =
    mail.message.body.octets

/-! Fields that were parsed, written and parsed again. -/

theorem headers_reading (letters : CaseMapping) (mail : Mail) (data : Octets) :
    (mail.reading letters data).message.headers =
      (MimeMessage.parseFromBytes letters data).headers := rfl

theorem parseHeaders_serialize {letters : CaseMapping} {data : Octets} {mail : Mail}
    (parsed : mail.message.headers = (MimeMessage.parseFromBytes letters data).headers) :
    (parseHeaders letters (serializeMessageToBytes mail)).1 =
      mail.fieldsWritten.foldl (storeField letters) ∅ := by
  rw [parseHeaders_table, splitLines_serialize (plainHeaders_of_parsed parsed),
    parseHeaderLines_fields letters (fieldsWritten_writable parsed)]
  rfl

theorem unfoldHeader_spaced {value : Text} (carriage : '\r' ∉ value) (newline : '\n' ∉ value) :
    unfoldHeader (' ' :: value) = ' ' :: value := by
  apply unfoldFrom_plain
  · simp [carriage]
  · simp [newline]

def fieldOctets (fields : List (Text × Text)) : Nat :=
  (fields.flatMap fun field => headerLine field.1 field.2).length

def blanked (field : Text × Text) : Text × Text := (field.1, ' ' :: field.2)

@[simp] theorem fieldOctets_cons (field : Text × Text) (fields : List (Text × Text)) :
    fieldOctets (field :: fields) = (headerLine field.1 field.2).length + fieldOctets fields := by
  simp [fieldOctets]

theorem fieldOctets_blanked (fields : List (Text × Text)) :
    fieldOctets (fields.map blanked) = fieldOctets fields + fields.length := by
  induction fields with
  | nil => rfl
  | cons field fields ih =>
      have longer : (headerLine field.1 (' ' :: field.2)).length =
          (headerLine field.1 field.2).length + 1 := by
        simp only [headerLine, encodeUtf8_append, List.length_append,
          encodeUtf8_cons_ascii (by decide : (' ' : Char).toNat < 128), List.length_cons]
        omega
      rw [List.map_cons, fieldOctets_cons, fieldOctets_cons, ih, blanked, longer, List.length_cons]
      omega

section Read

variable {letters : CaseMapping} {mail : Mail} {data : Octets}

theorem field_named {field : Text × Text}
    (member : field ∈ (mail.reading letters data).message.headers.fields) :
    letters.toLowercase (trim field.1) = field.1 := by
  have clean := (cleanField_of_mem member).name
  rw [clean.trimmed, clean.lower]

theorem field_value {first second : Text × Text}
    (member : first ∈ (mail.reading letters data).message.headers.fields)
    (other : second ∈ (mail.reading letters data).message.headers.fields)
    (same : first.1 = second.1) : first.2 = second.2 := by
  have clean := parseHeaders_clean letters data
  rw [headers_reading, headers_parseFromBytes] at member other
  have found := (mem_fields_ofTable clean).mp member
  rw [same, (mem_fields_ofTable clean).mp other, Option.some.injEq] at found
  exact found.symm

theorem fields_nodup : ((mail.reading letters data).message.headers.fields.map Prod.fst).Nodup := by
  have clean := parseHeaders_clean letters data
  have entries : ∀ entry ∈ (HeaderMap.ofTable letters (parseHeaders letters data).1).entries,
      entry.2.length = 1 := by
    intro entry member
    have found : (HeaderMap.ofTable letters (parseHeaders letters data).1).lookup entry.1 =
      some entry.2 := Table.mem_entries.mp member
    rw [lookup_ofTable clean] at found
    obtain ⟨value, -, single⟩ := Option.map_eq_some_iff.mp found
    rw [← single, List.length_singleton]
  have names : (mail.reading letters data).message.headers.fields.map Prod.fst =
      (HeaderMap.ofTable letters (parseHeaders letters data).1).keys := by
    rw [headers_reading, headers_parseFromBytes, HeaderMap.fields, AList.keys, List.keys]
    generalize (HeaderMap.ofTable letters (parseHeaders letters data).1).entries = table at entries
    induction table with
    | nil => rfl
    | cons entry table ih =>
        obtain ⟨value, single⟩ := List.length_eq_one_iff.mp (entries entry List.mem_cons_self)
        rw [List.flatMap_cons, List.map_append,
          ih fun other member => entries other (List.mem_cons_of_mem _ member), single]
        rfl
  rw [names]
  exact AList.keys_nodup _

theorem field_restored {field : Text × Text}
    (member : field ∈ (mail.reading letters data).message.headers.fields) :
    (field.1, ' ' :: field.2) ∈
      ((mail.reading letters data).restored letters).message.headers.fields := by
  have clean := cleanField_of_mem member
  rw [Mail.restored, headers_reading, headers_parseFromBytes,
    mem_fields_ofTable (parseHeaders_clean letters _),
    parseHeaders_serialize (headers_reading letters mail data), Mail.fieldsWritten, List.foldl_cons,
    lookup_storeField letters _ _ (Or.inl ⟨field, member, field_named member⟩),
    unfoldHeader_spaced clean.carriage clean.newline]
  intro other inside same
  rw [field_named inside] at same
  exact field_value inside member same

theorem id_restored (absent : ∀ field ∈ (mail.reading letters data).message.headers.fields,
    field.1 ≠ rusmesMessageId) :
    (rusmesMessageId, ' ' :: mail.messageId.display) ∈
      ((mail.reading letters data).restored letters).message.headers.fields := by
  have other : ∀ field ∈ (mail.reading letters data).message.headers.fields,
      letters.toLowercase (trim field.1) ≠ rusmesMessageId := by
    intro field member
    rw [field_named member]
    exact absent field member
  rw [Mail.restored, headers_reading, headers_parseFromBytes,
    mem_fields_ofTable (parseHeaders_clean letters _),
    parseHeaders_serialize (headers_reading letters mail data), Mail.fieldsWritten, List.foldl_cons,
    lookup_storeField_other letters other, storeField, lowercase_written, AList.lookup_insert]
  rw [unfoldHeader_spaced (display_whole _ rfl) (display_whole _ rfl)]
  rfl

theorem written_again : ∃ again : List (Text × Text),
    (again.map Prod.fst).Nodup ∧
      again ⊆ ((mail.reading letters data).restored letters).message.headers.fields ∧
      fieldOctets (mail.reading letters data).message.headers.fields < fieldOctets again := by
  have distinct := @fields_nodup letters mail data
  have each := @field_restored letters mail data
  have first := @id_restored letters mail data
  generalize (mail.reading letters data).message.headers.fields = fields at distinct each first
  have kept : fields.map blanked ⊆
      ((mail.reading letters data).restored letters).message.headers.fields := by
    intro field member
    obtain ⟨old, inside, rfl⟩ := List.mem_map.mp member
    exact each inside
  have names : (fields.map blanked).map Prod.fst = fields.map Prod.fst := by
    rw [List.map_map]
    rfl
  by_cases named : ∃ field ∈ fields, field.1 = rusmesMessageId
  · obtain ⟨field, member, -⟩ := named
    refine ⟨fields.map blanked, by rwa [names], kept, ?_⟩
    have some := List.length_pos_of_mem member
    rw [fieldOctets_blanked]
    omega
  · have absent : ∀ field ∈ fields, field.1 ≠ rusmesMessageId :=
      fun field member same => named ⟨field, member, same⟩
    refine ⟨(rusmesMessageId, ' ' :: mail.messageId.display) :: fields.map blanked, ?_, ?_, ?_⟩
    · rw [List.map_cons, names, List.nodup_cons]
      refine ⟨?_, distinct⟩
      intro member
      obtain ⟨field, inside, same⟩ := List.mem_map.mp member
      exact absent field inside same
    · exact List.cons_subset.mpr ⟨first absent, kept⟩
    · rw [fieldOctets_cons, fieldOctets_blanked, headerLine, List.length_append]
      have ended : [(13 : UInt8), 10].length = 2 := rfl
      omega

end Read

theorem fieldOctets_le {first second : List (Text × Text)} (distinct : (first.map Prod.fst).Nodup)
    (kept : first ⊆ second) : fieldOctets first ≤ fieldOctets second := by
  obtain ⟨among, same, sublist⟩ := List.subperm_of_subset (List.Nodup.of_map _ distinct) kept
  rw [fieldOctets, ← (same.flatMap_right _).length_eq]
  exact (sublist.flatMap _).length_le

theorem fileInOrder_length (mail : Mail) (fields : List (Text × Text)) :
    (mail.fileInOrder fields).length =
      (headerLine "X-Rusmes-Message-Id".toList mail.messageId.display).length + fieldOctets fields +
        2 + mail.message.body.octets.length := by
  simp only [Mail.fileInOrder, List.length_append, fieldOctets]
  rfl

theorem fileInOrder_fields (mail : Mail) :
    mail.fileInOrder mail.message.headers.fields = serializeMessageToBytes mail := rfl

section Files

variable (letters : CaseMapping) (mail : Mail) (data : Octets)

theorem body_restored :
    ((mail.reading letters data).restored letters).message.body.octets =
      (mail.reading letters data).message.body.octets := by
  have body := body_serialize letters
    (plainHeaders_of_parsed (headers_reading letters mail data))
  rw [Mail.restored, Mail.reading, body]
  rfl

theorem restored_longer {fields : List (Text × Text)}
    (same : fields.Perm ((mail.reading letters data).restored letters).message.headers.fields) :
    (serializeMessageToBytes (mail.reading letters data)).length <
      (((mail.reading letters data).restored letters).fileInOrder fields).length := by
  obtain ⟨again, distinct, kept, more⟩ := @written_again letters mail data
  have all := fieldOctets_le distinct fun field member => same.symm.subset (kept member)
  rw [← fileInOrder_fields, fileInOrder_length, fileInOrder_length, body_restored]
  have identifier : ((mail.reading letters data).restored letters).messageId =
      (mail.reading letters data).messageId := rfl
  rw [identifier]
  omega

theorem restored_differs : ¬∃ fields : List (Text × Text),
    fields.Perm ((mail.reading letters data).restored letters).message.headers.fields ∧
      ((mail.reading letters data).restored letters).fileInOrder fields =
        serializeMessageToBytes (mail.reading letters data) := by
  rintro ⟨fields, order, same⟩
  have longer := restored_longer letters mail data order
  rw [same] at longer
  exact Nat.lt_irrefl _ longer

/-- No mail that was parsed comes out of its file as it went in, though its body does. -/
theorem restores_never : ¬(mail.reading letters data).Restores letters := by
  intro restores
  exact restored_differs letters mail data restores.file

end Files

theorem subject_grows :
    ¬((noteFromAlice []).reading asciiCase
      (encodeUtf8 "Subject: hi\r\n\r\nhello".toList)).Restores asciiCase := by
  intro restores
  exact restored_differs asciiCase _ _ restores.file

end Rusmes
