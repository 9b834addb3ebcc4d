import Rusmes.Library.WireText

/-!
The quoted-printable coder of `mime.rs`. The writer counts the characters of the
current line and breaks it softly; the reader looks up to three octets ahead, as
far as the data goes.
-/

namespace Rusmes

open WireText

/-- `hex_value` of `mime.rs`. -/
def mimeHexValue (octet : UInt8) : Option UInt8 :=
  if 48 ≤ octet ∧ octet ≤ 57 then some (octet - 48)
  else if 65 ≤ octet ∧ octet ≤ 70 then some (octet - 65 + 10)
  else if 97 ≤ octet ∧ octet ≤ 102 then some (octet - 97 + 10)
  else none

/-- The loop of `decode_quoted_printable`. A sign of equality that starts nothing is
passed through. -/
def decodeQuoted : Octets → Octets
  | [] => []
  | 61 :: c1 :: c2 :: rest =>
      if c1 = 13 ∧ rest ≠ [] ∧ c2 = 10 then decodeQuoted rest
      else if c1 = 10 then decodeQuoted (c2 :: rest)
      else
        match mimeHexValue c1, mimeHexValue c2 with
        | some h1, some h2 => ((h1 <<< 4) ||| h2) :: decodeQuoted rest
        | _, _ => 61 :: decodeQuoted (c1 :: c2 :: rest)
  | octet :: rest => octet :: decodeQuoted rest

def decodeQuotedPrintable (data : Octets) : Except Text Octets :=
  .ok (decodeQuoted data)

def hexDigit (value : Nat) : Char :=
  (Nat.digitChar value).toUpper

/-- `format!("={:02X}", byte)`. -/
def hexEscape (octet : UInt8) : Text :=
  ['=', hexDigit (octet.toNat / 16), hexDigit (octet.toNat % 16)]

def needsEncoding (octet : UInt8) : Bool :=
  !(33 ≤ octet && octet ≤ 126) || octet = 61

def softBreak : Text := ['=', '\r', '\n']

/-- The loop of `encode_quoted_printable`, with the length of the current line. -/
def encodeQuotedFrom (lineLen : Nat) : Octets → Text
  | [] => []
  | octet :: rest =>
      if needsEncoding octet then
        let encoded := hexEscape octet
        if lineLen + encoded.length > 76 then
          softBreak ++ encoded ++ encodeQuotedFrom encoded.length rest
        else encoded ++ encodeQuotedFrom (lineLen + encoded.length) rest
      else if lineLen ≥ 76 then
        softBreak ++ Char.ofUInt8 octet :: encodeQuotedFrom 1 rest
      else Char.ofUInt8 octet :: encodeQuotedFrom (lineLen + 1) rest

def encodeQuotedPrintable (data : Octets) : Text :=
  encodeQuotedFrom 0 data

theorem decodeQuoted_literal {octet : UInt8} (plain : octet ≠ 61) (rest : Octets) :
    decodeQuoted (octet :: rest) = octet :: decodeQuoted rest := by
  rw [decodeQuoted]
  intro _ _ _ start
  exact absurd start plain

theorem mimeHexValue_break : mimeHexValue 13 = none ∧ mimeHexValue 10 = none := by
  decide

theorem decodeQuoted_escape {c1 c2 h1 h2 : UInt8} (first : mimeHexValue c1 = some h1)
    (second : mimeHexValue c2 = some h2) (rest : Octets) :
    decodeQuoted (61 :: c1 :: c2 :: rest) = ((h1 <<< 4) ||| h2) :: decodeQuoted rest := by
  have notCarriage : c1 ≠ 13 := by
    rintro rfl
    rw [mimeHexValue_break.1] at first
    cases first
  have notNewline : c1 ≠ 10 := by
    rintro rfl
    rw [mimeHexValue_break.2] at first
    cases first
  rw [decodeQuoted, if_neg (fun carriage => notCarriage carriage.1), if_neg notNewline, first,
    second]

theorem decodeQuoted_crlf {rest : Octets} (more : rest ≠ []) :
    decodeQuoted (61 :: 13 :: 10 :: rest) = decodeQuoted rest := by
  rw [decodeQuoted, if_pos ⟨rfl, more, rfl⟩]

theorem decodeQuoted_lf {rest : Octets} (more : rest ≠ []) :
    decodeQuoted (61 :: 10 :: rest) = decodeQuoted rest := by
  obtain ⟨next, rest, rfl⟩ := List.exists_cons_of_ne_nil more
  rw [decodeQuoted, if_neg (fun carriage => absurd carriage.1 (by decide)), if_pos rfl]

theorem hexDigit_facts : ∀ value < 16,
    (hexDigit value).toNat < 128 ∧ hexDigit value ≠ '\r' ∧
      mimeHexValue (UInt8.ofNat (hexDigit value).toNat) = some (UInt8.ofNat value) := by
  decide

theorem join_nibbles (octet : UInt8) :
    (UInt8.ofNat (octet.toNat / 16) <<< 4) ||| UInt8.ofNat (octet.toNat % 16) = octet := by
  have all : ∀ code < 256,
      (UInt8.ofNat (code / 16) <<< 4) ||| UInt8.ofNat (code % 16) = UInt8.ofNat code := by
    decide +kernel
  have joined := all octet.toNat octet.toNat_lt
  rwa [UInt8.ofNat_toNat] at joined

theorem decodeQuoted_hexEscape (octet : UInt8) (text : Text) :
    decodeQuoted (encodeUtf8 (hexEscape octet ++ text)) = octet :: decodeQuoted (encodeUtf8 text) := by
  have bound := octet.toNat_lt
  obtain ⟨high, -, first⟩ := hexDigit_facts (octet.toNat / 16) (by omega)
  obtain ⟨low, -, second⟩ := hexDigit_facts (octet.toNat % 16) (by omega)
  have shape : encodeUtf8 (hexEscape octet ++ text) =
      61 :: UInt8.ofNat (hexDigit (octet.toNat / 16)).toNat ::
        UInt8.ofNat (hexDigit (octet.toNat % 16)).toNat :: encodeUtf8 text := by
    rw [hexEscape, List.cons_append, List.cons_append, List.cons_append, List.nil_append,
      encodeUtf8_cons_ascii (by decide), encodeUtf8_cons_ascii high, encodeUtf8_cons_ascii low]
    rfl
  rw [shape, decodeQuoted_escape first second, join_nibbles]

theorem needsEncoding_eq_false {octet : UInt8} (plain : needsEncoding octet = false) :
    33 ≤ octet.toNat ∧ octet.toNat ≤ 126 ∧ octet ≠ 61 := by
  simp only [needsEncoding, Bool.or_eq_false_iff, Bool.not_eq_false', Bool.and_eq_true,
    decide_eq_true_eq, decide_eq_false_iff_not] at plain
  exact ⟨UInt8.le_iff_toNat_le.mp plain.1.1, UInt8.le_iff_toNat_le.mp plain.1.2, plain.2⟩

theorem decodeQuoted_ofUInt8 {octet : UInt8} (plain : needsEncoding octet = false) (text : Text) :
    decodeQuoted (encodeUtf8 (Char.ofUInt8 octet :: text)) =
      octet :: decodeQuoted (encodeUtf8 text) := by
  obtain ⟨-, high, literal⟩ := needsEncoding_eq_false plain
  rw [encodeUtf8_ofUInt8 (by omega), decodeQuoted_literal literal]

theorem decodeQuoted_softBreak {text : Text} (more : text ≠ []) :
    decodeQuoted (encodeUtf8 (softBreak ++ text)) = decodeQuoted (encodeUtf8 text) := by
  have some : encodeUtf8 text ≠ [] := by
    obtain ⟨character, rest, rfl⟩ := List.exists_cons_of_ne_nil more
    rw [encodeUtf8_cons]
    exact List.append_ne_nil_of_left_ne_nil (utf8EncodeChar_ne_nil character) _
  rw [← decodeQuoted_crlf some, encodeUtf8_append]
  rfl

theorem decodeQuoted_encodeQuotedFrom (lineLen : Nat) (data : Octets) :
    decodeQuoted (encodeUtf8 (encodeQuotedFrom lineLen data)) = data := by
  induction data generalizing lineLen with
  | nil => rfl
  | cons octet rest ih =>
      rw [encodeQuotedFrom]
      split
      · simp only
        split
        · rw [List.append_assoc, decodeQuoted_softBreak (by simp [hexEscape]),
            decodeQuoted_hexEscape, ih]
        · rw [decodeQuoted_hexEscape, ih]
      · rename_i plain
        rw [Bool.not_eq_true] at plain
        split
        · rw [decodeQuoted_softBreak (List.cons_ne_nil _ _), decodeQuoted_ofUInt8 plain, ih]
        · rw [decodeQuoted_ofUInt8 plain, ih]

theorem decodeQuotedPrintable_encodeQuotedPrintable (data : Octets) :
    decodeQuotedPrintable (encodeUtf8 (encodeQuotedPrintable data)) = .ok data := by
  rw [decodeQuotedPrintable, encodeQuotedPrintable, decodeQuoted_encodeQuotedFrom]

/-! The length of a line. -/

def encodeOctet (octet : UInt8) : Text :=
  if needsEncoding octet then hexEscape octet else [Char.ofUInt8 octet]

def encodedWidth (line : Octets) : Nat :=
  (line.flatMap encodeOctet).length

@[simp] theorem encodedWidth_nil : encodedWidth [] = 0 := rfl

theorem encodeOctet_length (octet : UInt8) :
    (encodeOctet octet).length = if needsEncoding octet then 3 else 1 := by
  rw [encodeOctet]
  split <;> rfl

@[simp] theorem encodedWidth_cons (octet : UInt8) (line : Octets) :
    encodedWidth (octet :: line) = (if needsEncoding octet then 3 else 1) + encodedWidth line := by
  rw [encodedWidth, List.flatMap_cons, List.length_append, encodeOctet_length, encodedWidth]

theorem carriage_not_mem_encodeOctet (line : Octets) : '\r' ∉ line.flatMap encodeOctet := by
  intro member
  obtain ⟨octet, -, inside⟩ := List.mem_flatMap.mp member
  have bound := octet.toNat_lt
  rw [encodeOctet] at inside
  split at inside
  · simp only [hexEscape, List.mem_cons, List.not_mem_nil, or_false] at inside
    rcases inside with same | same | same
    · exact absurd same (by decide)
    · exact (hexDigit_facts (octet.toNat / 16) (by omega)).2.1 same.symm
    · exact (hexDigit_facts (octet.toNat % 16) (by omega)).2.1 same.symm
  · rename_i plain
    have low := (needsEncoding_eq_false (Bool.not_eq_true _ ▸ plain)).1
    have code := congrArg Char.toNat (List.mem_singleton.mp inside)
    rw [toNat_ofUInt8] at code
    have carriage : ('\r' : Char).toNat = 13 := rfl
    omega

theorem encodeQuotedFrom_cons (lineLen : Nat) (octet : UInt8) (rest : Octets) :
    encodeQuotedFrom lineLen (octet :: rest) =
      if lineLen + (encodeOctet octet).length ≤ 76 then
        encodeOctet octet ++ encodeQuotedFrom (lineLen + (encodeOctet octet).length) rest
      else softBreak ++ encodeOctet octet ++ encodeQuotedFrom (encodeOctet octet).length rest := by
  rw [encodeQuotedFrom, encodeOctet]
  by_cases escaped : needsEncoding octet
  · by_cases fits : lineLen + (hexEscape octet).length ≤ 76
    · simp [escaped, fits, Nat.not_lt.mpr fits]
    · simp [escaped, fits, Nat.lt_of_not_le fits]
  · by_cases fits : lineLen + 1 ≤ 76
    · simp [escaped, fits, Nat.not_le.mpr fits]
    · simp [escaped, fits, Nat.le_of_lt_succ (Nat.lt_of_not_le fits)]

theorem encodeQuotedFrom_run {lineLen : Nat} {line : Octets}
    (fits : lineLen + encodedWidth line ≤ 76) (rest : Octets) :
    encodeQuotedFrom lineLen (line ++ rest) =
      line.flatMap encodeOctet ++ encodeQuotedFrom (lineLen + encodedWidth line) rest := by
  induction line generalizing lineLen with
  | nil => simp
  | cons octet line ih =>
      rw [encodedWidth_cons] at fits
      rw [List.cons_append, encodeQuotedFrom_cons, encodeOctet_length, if_pos (by omega),
        ih (by omega), List.flatMap_cons, encodedWidth_cons, Nat.add_assoc, List.append_assoc]

/-- The text can be cut into lines that end before the margin, each followed by an octet
that no longer fits; only the last may reach the margin. -/
inductive FitsLines : Octets → Prop
  | last {line} : encodedWidth line ≤ 76 → FitsLines line
  | broken {line octet rest} : encodedWidth line = 74 ∨ encodedWidth line = 75 →
      needsEncoding octet → FitsLines (octet :: rest) → FitsLines (line ++ octet :: rest)

theorem crlfLines_encodeQuotedPrintable {line rest : Octets} {octet : UInt8}
    (fits : encodedWidth line ≤ 76)
    (full : 76 < encodedWidth line + (encodeOctet octet).length) :
    crlfLines (encodeQuotedPrintable (line ++ octet :: rest)) =
      (line.flatMap encodeOctet ++ ['=']) :: crlfLines (encodeQuotedPrintable (octet :: rest)) := by
  have start : encodeQuotedFrom 0 (octet :: rest) =
      encodeOctet octet ++ encodeQuotedFrom (encodeOctet octet).length rest := by
    rw [encodeQuotedFrom_cons, if_pos (by rw [encodeOctet_length]; split <;> omega), Nat.zero_add]
  have plain : '\r' ∉ line.flatMap encodeOctet ++ ['='] := by
    simp only [List.mem_append, carriage_not_mem_encodeOctet, false_or]
    decide
  rw [encodeQuotedPrintable, encodeQuotedFrom_run (by omega), encodeQuotedFrom_cons,
    if_neg (by omega), encodeQuotedPrintable, start, ← crlfLines_line plain]
  simp [softBreak]

theorem crlfLines_encodeQuotedPrintable_last {line : Octets} (fits : encodedWidth line ≤ 76) :
    crlfLines (encodeQuotedPrintable line) = [line.flatMap encodeOctet] := by
  have run := @encodeQuotedFrom_run 0 line (by omega) []
  rw [List.append_nil, encodeQuotedFrom, List.append_nil] at run
  rw [encodeQuotedPrintable, run, crlfLines_last (carriage_not_mem_encodeOctet line)]

theorem exists_full_line {width : Nat} {data : Octets} (fits : width ≤ 76)
    (wide : 76 < width + encodedWidth data) :
    ∃ line octet rest, data = line ++ octet :: rest ∧ width + encodedWidth line ≤ 76 ∧
      76 < width + encodedWidth line + (encodeOctet octet).length := by
  induction data generalizing width with
  | nil =>
      rw [encodedWidth_nil] at wide
      omega
  | cons octet data ih =>
      rw [encodedWidth_cons, ← encodeOctet_length] at wide
      by_cases held : width + (encodeOctet octet).length ≤ 76
      · obtain ⟨line, next, rest, rfl, short, full⟩ := ih held (by omega)
        refine ⟨octet :: line, next, rest, rfl, ?_, ?_⟩ <;>
          rw [encodedWidth_cons, ← encodeOctet_length] <;> omega
      · exact ⟨[], octet, data, rfl, fits, by rw [encodedWidth_nil]; omega⟩

/-- No line is longer than the margin exactly when no line but the last is filled to it. -/
theorem encodeQuotedPrintable_lines (data : Octets) :
    (∀ line ∈ crlfLines (encodeQuotedPrintable data), line.length ≤ 76) ↔ FitsLines data := by
  constructor
  · intro short
    induction size : data.length using Nat.strongRecOn generalizing data with
    | ind size ih =>
        subst size
        by_cases wide : 76 < encodedWidth data
        · obtain ⟨line, octet, rest, rfl, fits, full⟩ :=
            exists_full_line (by omega : 0 ≤ 76) (by omega : 76 < 0 + encodedWidth data)
          rw [Nat.zero_add] at fits full
          rw [crlfLines_encodeQuotedPrintable fits full, List.forall_mem_cons] at short
          have first := short.1
          rw [List.length_append, ← encodedWidth, List.length_singleton] at first
          rw [encodeOctet_length] at full
          split at full
          · rename_i escaped
            have shorter : (octet :: rest).length < (line ++ octet :: rest).length := by
              cases line with
              | nil => simp at full
              | cons =>
                  simp only [List.length_cons, List.length_append]
                  omega
            exact .broken (by omega) escaped (ih _ shorter _ short.2 rfl)
          · omega
        · exact .last (by omega)
  · intro fits
    induction fits with
    | last width =>
        rw [crlfLines_encodeQuotedPrintable_last width, List.forall_mem_singleton,
          ← encodedWidth]
        exact width
    | broken width escaped _ ih =>
        rw [crlfLines_encodeQuotedPrintable (by omega)
          (by rw [encodeOctet_length, if_pos escaped]; omega), List.forall_mem_cons]
        refine ⟨?_, ih⟩
        rw [List.length_append, ← encodedWidth, List.length_singleton]
        omega

/-- A line of 76 letters leaves no room for the sign of its soft break. -/
theorem encodeQuotedPrintable_long_line :
    ¬∀ line ∈ crlfLines (encodeQuotedPrintable (List.replicate 77 97)), line.length ≤ 76 := by
  intro short
  have first := short (List.replicate 76 'a' ++ ['=']) (by decide +kernel)
  exact absurd first (by decide)

inductive QuotedItem
  | literal (octet : UInt8) (plain : octet ≠ 61)
  | escape (c1 c2 : UInt8) (first : (mimeHexValue c1).isSome) (second : (mimeHexValue c2).isSome)
  | breakCrlf
  | breakLf

def QuotedItem.octets : QuotedItem → Octets
  | .literal octet _ => [octet]
  | .escape c1 c2 _ _ => [61, c1, c2]
  | .breakCrlf => [61, 13, 10]
  | .breakLf => [61, 10]

def QuotedItem.isBreak : QuotedItem → Bool
  | .breakCrlf | .breakLf => true
  | .literal _ _ | .escape _ _ _ _ => false

def quotedText (items : List QuotedItem) : Octets :=
  items.flatMap QuotedItem.octets

def QuotedItem.value : QuotedItem → Octets
  | .literal octet _ => [octet]
  | .escape c1 c2 first second =>
      [((mimeHexValue c1).get first <<< 4) ||| (mimeHexValue c2).get second]
  | .breakCrlf | .breakLf => []

def brokenEnd (items : List QuotedItem) : Octets :=
  ((items.getLast?.filter QuotedItem.isBreak).map QuotedItem.octets).getD []

theorem brokenEnd_cons (item : QuotedItem) {items : List QuotedItem} (more : items ≠ []) :
    brokenEnd (item :: items) = brokenEnd items := by
  rw [brokenEnd, brokenEnd, List.getLast?_cons_of_ne_nil more]

theorem quotedText_ne_nil {items : List QuotedItem} (more : items ≠ []) : quotedText items ≠ [] := by
  obtain ⟨item, items, rfl⟩ := List.exists_cons_of_ne_nil more
  rw [quotedText, List.flatMap_cons]
  cases item <;> simp [QuotedItem.octets]

theorem decodeQuoted_quotedText (items : List QuotedItem) :
    decodeQuoted (quotedText items) = items.flatMap QuotedItem.value ++ brokenEnd items := by
  induction items with
  | nil => rfl
  | cons item items ih =>
      have text : quotedText (item :: items) = item.octets ++ quotedText items := rfl
      have passed : item.isBreak = false → brokenEnd (item :: items) = brokenEnd items := by
        intro token
        cases items with
        | nil => simp [brokenEnd, Option.filter, token]
        | cons => exact brokenEnd_cons item (List.cons_ne_nil _ _)
      rw [text, List.flatMap_cons, List.append_assoc]
      cases item with
      | literal octet plain =>
          rw [passed rfl, ← ih]
          exact decodeQuoted_literal plain (quotedText items)
      | escape c1 c2 first second =>
          rw [passed rfl, ← ih]
          exact decodeQuoted_escape (Option.some_get first).symm (Option.some_get second).symm
            (quotedText items)
      | breakCrlf =>
          by_cases more : items = []
          · subst more
            rfl
          · rw [brokenEnd_cons _ more, ← ih]
            exact decodeQuoted_crlf (quotedText_ne_nil more)
      | breakLf =>
          by_cases more : items = []
          · subst more
            rfl
          · rw [brokenEnd_cons _ more, ← ih]
            exact decodeQuoted_lf (quotedText_ne_nil more)

theorem flatMap_value_tokens (items : List QuotedItem) :
    (items.filter fun item => !item.isBreak).flatMap QuotedItem.value =
      items.flatMap QuotedItem.value := by
  induction items with
  | nil => rfl
  | cons item items ih =>
      rw [List.flatMap_cons, ← ih]
      cases item <;> rfl

theorem brokenEnd_eq_nil_iff (items : List QuotedItem) :
    brokenEnd items = [] ↔ ∀ item, items.getLast? = some item → item.isBreak = false := by
  rw [brokenEnd]
  cases items.getLast? with
  | none => simp
  | some item => cases item <;> simp [Option.filter, QuotedItem.isBreak, QuotedItem.octets]

/-- A soft break is invisible exactly when something follows it. -/
theorem decodeQuotedPrintable_breaks (items : List QuotedItem) :
    decodeQuotedPrintable (quotedText items) =
        decodeQuotedPrintable (quotedText (items.filter fun item => !item.isBreak)) ↔
      ∀ item, items.getLast? = some item → item.isBreak = false := by
  have tokens : brokenEnd (items.filter fun item => !item.isBreak) = [] := by
    rw [brokenEnd_eq_nil_iff]
    intro item last
    have member := List.mem_of_getLast? last
    simpa using (List.mem_filter.mp member).2
  rw [decodeQuotedPrintable, decodeQuotedPrintable, Except.ok.injEq, decodeQuoted_quotedText,
    decodeQuoted_quotedText, flatMap_value_tokens, tokens, List.append_right_inj,
    brokenEnd_eq_nil_iff]

theorem decodeQuotedPrintable_final_break :
    decodeQuotedPrintable (quotedText [.literal 97 (by decide), .breakCrlf]) ≠
      decodeQuotedPrintable (quotedText ([.literal 97 (by decide), .breakCrlf].filter
        fun item => !item.isBreak)) := by
  decide

end Rusmes
