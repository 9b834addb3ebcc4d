import Rusmes.Library.Words
import Rusmes.Proto.Repeated

/-!
The identifier of a stored mail. It is written first, and the header fields of the mail are
written behind it, so a field of the mail can take its place.
-/

namespace Rusmes

open WireText

def Mail.IdKept (letters : CaseMapping) (mail : Mail) : Prop :=
  (MimeMessage.parseFromBytes letters (serializeMessageToBytes mail)).storedId letters =
    some mail.messageId

def Mail.headerText (mail : Mail) : Octets :=
  mail.message.headers.fields.flatMap fun field => headerLine field.1 field.2

def Mail.headerLines (mail : Mail) : List Octets :=
  completeLines (mail.headerText ++ [13, 10])

def Mail.claimedIds (letters : CaseMapping) (mail : Mail) : List Text :=
  ((joinedFields letters mail.headerLines).filter fun field =>
    field.1 = rusmesMessageId).map Prod.snd

structure Mail.Unforged (letters : CaseMapping) (mail : Mail) : Prop where
  /-- The last identifier among the fields is that of the mail. -/
  last : ∀ value, (mail.claimedIds letters).getLast? = some value →
    parseUuid (trim value) = some mail.messageId.uuid
  /-- If there is none, the line of the identifier is continued with blanks only. -/
  first : mail.claimedIds letters = [] → ∀ character ∈ joinedText mail.headerLines,
    isWhitespace character = true

theorem headerText_ends (mail : Mail) :
    mail.headerText = [] ∨ mail.headerText.getLast? = some 10 := by
  rw [Mail.headerText]
  rcases List.eq_nil_or_concat' mail.message.headers.fields with none | ⟨others, field, all⟩
  · exact Or.inl (by rw [none]; rfl)
  · exact Or.inr (by simp [all, headerLine])

theorem completeLines_body {head : Octets} (ends : head = [] ∨ head.getLast? = some 10)
    (body : Octets) : completeLines (head ++ [13, 10] ++ body) = completeLines (head ++ [13, 10]) := by
  have blank : ∀ rest : Octets, completeLines ([13] ++ 10 :: rest) = [] :=
    fun rest => completeLines_line (by decide) rest
  induction head using pieces_induction (10 : UInt8) with
  | last line unbroken =>
      have empty : line = [] :=
        ends.resolve_right fun final => unbroken (List.mem_of_getLast? final)
      rw [empty]
      exact (blank body).trans (blank []).symm
  | next line rest unbroken ih =>
      have behind : rest = [] ∨ rest.getLast? = some 10 := by
        rcases rest with _ | ⟨first, rest⟩
        · exact Or.inl rfl
        · right
          have final := ends.resolve_left (by simp)
          rwa [List.getLast?_append_of_ne_nil _ (List.cons_ne_nil _ _), List.getLast?_cons_cons]
            at final
      have shape : ∀ tail : Octets, (line ++ 10 :: rest) ++ tail = line ++ 10 :: (rest ++ tail) := by
        simp
      rw [List.append_assoc, shape, shape, completeLines_line unbroken, completeLines_line unbroken,
        ← List.append_assoc, ih behind]

def idLine (id : MessageId) : Octets :=
  encodeUtf8 ("X-Rusmes-Message-Id".toList ++ ':' :: ' ' :: id.display)

theorem idLine_unbroken (id : MessageId) : 10 ∉ idLine id ++ [13] := by
  have display : '\n' ∉ id.display := display_whole id rfl
  have written : '\n' ∉ "X-Rusmes-Message-Id".toList ++ ':' :: ' ' :: id.display := by
    simp [display]
  simpa [idLine] using newline_not_mem_encodeUtf8 written

theorem idLine_field (letters : CaseMapping) (id : MessageId) :
    continuesField (idLine id) = false ∧
      headerField letters (idLine id) = some (rusmesMessageId, ' ' :: id.display) := by
  constructor
  · rw [idLine, encodeUtf8_append]
    rfl
  · have read := @headerField_encodeUtf8 letters "X-Rusmes-Message-Id".toList (' ' :: id.display)
      (by decide)
    rwa [lowercase_written] at read

theorem completeLines_serialize (mail : Mail) :
    completeLines (serializeMessageToBytes mail) = idLine mail.messageId :: mail.headerLines := by
  have full : idLine mail.messageId ≠ [] := by
    rw [idLine, encodeUtf8_append]
    exact List.append_ne_nil_of_left_ne_nil (by decide) _
  have shape : serializeMessageToBytes mail = (idLine mail.messageId ++ [13]) ++
      10 :: (mail.headerText ++ [13, 10] ++ mail.message.body.octets) := by
    rw [serializeMessageToBytes, headerLine, Mail.headerText, List.append_assoc _ ": ".toList, idLine]
    simp only [List.append_assoc, List.cons_append, List.nil_append]
    rfl
  rw [shape, completeLines_line (idLine_unbroken mail.messageId), trimCarriage_line, if_neg full,
    completeLines_body (headerText_ends mail), Mail.headerLines]

/-! The value that is read. -/

theorem joinedText_starts {lines : List Octets} {first : Char}
    (starts : (joinedText lines).head? = some first) :
    isWhitespace first = true ∧ first ≠ '\r' := by
  rw [joinedText] at starts
  cases folds : lines.takeWhile continuesField with
  | nil =>
      rw [folds] at starts
      cases starts
  | cons line rest =>
      have folded : continuesField line = true :=
        List.mem_takeWhile_imp (by rw [folds]; exact List.mem_cons_self)
      obtain ⟨blank, later, text, white, other⟩ := decodeLossy_folded folded
      rw [folds, List.flatMap_cons, text] at starts
      rw [← Option.some.inj starts]
      exact ⟨white, other⟩

theorem newline_not_mem_joinedText {lines : List Octets} (unbroken : ∀ line ∈ lines, 10 ∉ line) :
    '\n' ∉ joinedText lines := by
  intro member
  obtain ⟨line, folded, inside⟩ := List.mem_flatMap.mp member
  exact newline_not_mem_decodeLossy (unbroken line ((List.takeWhile_prefix _).subset folded)) inside

theorem blank_filter {joined : Text} : (∀ character ∈ joined.filter (· ≠ '\r'),
    isWhitespace character = true) ↔ ∀ character ∈ joined, isWhitespace character = true := by
  constructor
  · intro blank character member
    by_cases carriage : character = '\r'
    · rw [carriage]
      rfl
    · exact blank character (List.mem_filter.mpr ⟨member, decide_eq_true carriage⟩)
  · intro blank character member
    exact blank character (List.mem_of_mem_filter member)

theorem trimEnd_blank_iff {text : Text} (starts : ∀ first, text.head? = some first →
    isWhitespace first = true) :
    (∀ character ∈ trimEnd text, isWhitespace character = false) ↔
      ∀ character ∈ text, isWhitespace character = true := by
  obtain ⟨blanks, whole, white⟩ := trimEnd_whole text
  constructor
  · intro solid
    cases trimmed : trimEnd text with
    | nil =>
        rw [trimmed, List.nil_append] at whole
        rwa [whole]
    | cons first rest =>
        rw [trimmed] at whole solid
        have blank := starts first (by rw [whole]; rfl)
        rw [solid first List.mem_cons_self] at blank
        cases blank
  · intro blank character member
    have nothing : trimEnd text = [] := List.rdropWhile_eq_nil_iff.mpr blank
    rw [nothing] at member
    cases member

theorem parseUuid_joined (id : MessageId) {joined : Text} (newline : '\n' ∉ joined)
    (starts : ∀ first, joined.head? = some first → isWhitespace first = true ∧ first ≠ '\r') :
    parseUuid (trim (unfoldHeader (' ' :: id.display ++ joined))) = some id.uuid ↔
      ∀ character ∈ joined, isWhitespace character = true := by
  have read := parseUuid_display id
  have nonempty : id.display ≠ [] := by
    intro empty
    rw [empty] at read
    cases read
  have unfolded : unfoldHeader (' ' :: id.display ++ joined) =
      ' ' :: (id.display ++ joined.filter (· ≠ '\r')) := by
    have carriage : '\r' ∉ ' ' :: id.display := by
      rw [List.mem_cons, not_or]
      exact ⟨by decide, display_whole id rfl⟩
    have newlines : '\n' ∉ ' ' :: id.display := by
      rw [List.mem_cons, not_or]
      exact ⟨by decide, display_whole id rfl⟩
    rw [unfoldHeader, unfoldFrom_append carriage newlines, unfoldFrom_newline_free newline]
    rfl
  have trimmed : trim (' ' :: (id.display ++ joined.filter (· ≠ '\r'))) =
      id.display ++ trimEnd (joined.filter (· ≠ '\r')) := by
    rw [trim_cons_blank rfl, trim_word nonempty fun _ => display_solid id]
  have begins : ∀ first, (joined.filter (· ≠ '\r')).head? = some first →
      isWhitespace first = true := by
    intro first head
    cases joined with
    | nil => cases head
    | cons character rest =>
        have facts := starts character rfl
        rw [List.filter_cons, if_pos (decide_eq_true facts.2)] at head
        rw [← Option.some.inj head]
        exact facts.1
  rw [unfolded, trimmed, ← blank_filter, ← trimEnd_blank_iff begins]
  constructor
  · intro parsed character member
    exact parseUuid_solid parsed (List.mem_append_right _ member)
  · intro solid
    have blank := (trimEnd_blank_iff begins).mp solid
    have nothing : trimEnd (joined.filter (· ≠ '\r')) = [] := List.rdropWhile_eq_nil_iff.mpr blank
    rw [nothing, List.append_nil, read]

theorem parseHeaders_lines (letters : CaseMapping) (mail : Mail) :
    (parseHeaders letters (serializeMessageToBytes mail)).1 =
      storeFields ∅ ((rusmesMessageId, unfoldHeader (' ' :: mail.messageId.display ++
        joinedText mail.headerLines)) :: joinedFields letters mail.headerLines) := by
  obtain ⟨separate, field⟩ := idLine_field letters mail.messageId
  have parsed := parseFrom_fields letters ∅ none (serializeMessageToBytes mail)
  rw [parseFrom, completeLines_serialize, joinedFields, separate, field] at parsed
  simp only [closeField, Option.map_none, Option.toList_none, List.nil_append, Bool.false_eq_true,
    if_false, Option.map_some, Option.toList_some, List.singleton_append] at parsed
  rw [parseHeaders_table]
  exact parsed

theorem getFirst_serialize (letters : CaseMapping) (mail : Mail) :
    (MimeMessage.parseFromBytes letters (serializeMessageToBytes mail)).headers.getFirst letters
        rusmesMessageId =
      (unfoldHeader (' ' :: mail.messageId.display ++ joinedText mail.headerLines) ::
        mail.claimedIds letters).getLast? := by
  rw [headers_parseFromBytes, getFirst_ofTable (parseHeaders_clean letters _),
    lowercase_rusmesMessageId, parseHeaders_lines, lookup_storeFields, List.filter_cons,
    if_pos (decide_eq_true rfl), List.map_cons, Mail.claimedIds]
  exact Option.or_none

theorem idKept_last (letters : CaseMapping) (mail : Mail) : mail.IdKept letters ↔
    ∃ value, (unfoldHeader (' ' :: mail.messageId.display ++ joinedText mail.headerLines) ::
      mail.claimedIds letters).getLast? = some value ∧
        parseUuid (trim value) = some mail.messageId.uuid := by
  rw [Mail.IdKept, MimeMessage.storedId, getFirst_serialize, Option.bind_eq_some_iff]
  constructor
  · rintro ⟨value, last, made⟩
    obtain ⟨uuid, read, same⟩ := Option.map_eq_some_iff.mp made
    exact ⟨value, last, by rw [read, ← same]⟩
  · rintro ⟨value, last, read⟩
    exact ⟨value, last, by rw [read]; rfl⟩

theorem parseUuid_written (mail : Mail) :
    parseUuid (trim (unfoldHeader (' ' :: mail.messageId.display ++ joinedText mail.headerLines))) =
        some mail.messageId.uuid ↔
      ∀ character ∈ joinedText mail.headerLines, isWhitespace character = true :=
  parseUuid_joined mail.messageId
    (newline_not_mem_joinedText fun _ member => not_mem_completeLines member)
    fun _ => joinedText_starts

theorem Mail.Unforged.kept {letters : CaseMapping} {mail : Mail} (unforged : mail.Unforged letters) :
    mail.IdKept letters := by
  rw [idKept_last]
  rcases List.eq_nil_or_concat' (mail.claimedIds letters) with none | ⟨others, value, all⟩
  · exact ⟨_, by rw [none]; rfl, (parseUuid_written mail).mpr (unforged.first none)⟩
  · refine ⟨value, ?_, unforged.last value (by rw [all, List.getLast?_concat])⟩
    rw [all, ← List.cons_append, List.getLast?_concat]

theorem Mail.IdKept.unforged {letters : CaseMapping} {mail : Mail} (kept : mail.IdKept letters) :
    mail.Unforged letters := by
  obtain ⟨stored, final, read⟩ := (idKept_last letters mail).mp kept
  constructor
  · intro value last
    have nonempty : mail.claimedIds letters ≠ [] := by
      intro none
      rw [none] at last
      cases last
    rw [List.getLast?_cons, List.getLast?_eq_some_getLast nonempty, Option.getD_some,
      Option.some.injEq] at final
    rw [List.getLast?_eq_some_getLast nonempty, Option.some.injEq] at last
    rwa [← last, final]
  · intro none
    rw [none, List.getLast?_singleton, Option.some.injEq] at final
    rw [← final] at read
    exact (parseUuid_written mail).mp read

theorem idKept_iff (letters : CaseMapping) (mail : Mail) :
    mail.IdKept letters ↔ mail.Unforged letters :=
  ⟨Mail.IdKept.unforged, Mail.Unforged.kept⟩

section Writable

variable {mail : Mail} (writable : ∀ field ∈ mail.message.headers.fields, Writable field)
include writable

end Writable

def claiming (claimed : MessageId) : Mail :=
  Mail.new ⟨0⟩ ⟨1⟩ (some alice) [] ⟨AList.singleton rusmesMessageId [claimed.display], .small []⟩
    none none

theorem claiming_other : ¬(claiming ⟨2⟩).IdKept asciiCase := by
  have stored : (MimeMessage.parseFromBytes asciiCase
      (serializeMessageToBytes (claiming ⟨2⟩))).storedId asciiCase = some ⟨2⟩ := by decide +kernel
  rw [Mail.IdKept, stored]
  decide

end Rusmes
