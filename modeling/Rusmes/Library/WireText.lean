import Rusmes.Library.Blanks

/-!
Text as it travels over a byte stream: UTF-8 encoding and decoding, the white
space, trimming and ASCII case operations of a string library, decimal numbers
and lines. Text is a list of characters and the stream a list of octets, so
every operation evaluates on concrete input.
-/

namespace WireText

abbrev Octets := List UInt8

abbrev Text := List Char

instance (priority := 2000) lawfulText : LawfulBEq Text := inferInstance

/-- Decided along the text, whatever other instances for characters are in scope. -/
instance (priority := 2000) decidableForallMem (text : Text) (test : Char → Prop)
    [DecidablePred test] : Decidable (∀ character ∈ text, test character) :=
  List.decidableBAll test text

def encodeUtf8 (text : Text) : Octets :=
  text.flatMap String.utf8EncodeChar

def decodeUtf8 (octets : Octets) : Option Text :=
  octets.toByteArray.utf8Decode?.map Array.toList

theorem decodeUtf8_encodeUtf8 (text : Text) : decodeUtf8 (encodeUtf8 text) = some text := by
  have decoded : text.utf8Encode.utf8Decode? = some text.toArray := List.utf8Decode?_utf8Encode
  simp only [List.utf8Encode] at decoded
  simp [decodeUtf8, encodeUtf8, decoded]

theorem encodeUtf8_of_decodeUtf8 {octets : Octets} {text : Text}
    (decoded : decodeUtf8 octets = some text) : encodeUtf8 text = octets := by
  simp only [decodeUtf8, Option.map_eq_some_iff] at decoded
  obtain ⟨characters, found, same⟩ := decoded
  have valid : octets.toByteArray.utf8Decode?.isSome := by simp [found]
  obtain ⟨source, encoded⟩ := ByteArray.isSome_utf8Decode?_iff.mp valid
  rw [encoded, List.utf8Decode?_utf8Encode, Option.some.injEq] at found
  subst found
  subst same
  have data := congrArg (fun array : ByteArray => array.data.toList) encoded
  simpa [List.utf8Encode, encodeUtf8] using data.symm

@[simp] theorem encodeUtf8_append (first second : Text) :
    encodeUtf8 (first ++ second) = encodeUtf8 first ++ encodeUtf8 second := by
  simp [encodeUtf8]

theorem encodeUtf8_cons (character : Char) (text : Text) :
    encodeUtf8 (character :: text) = String.utf8EncodeChar character ++ encodeUtf8 text := by
  simp [encodeUtf8]

theorem utf8EncodeChar_ascii {character : Char} (ascii : character.toNat < 128) :
    String.utf8EncodeChar character = [UInt8.ofNat character.toNat] := by
  have small : character.val ≤ 127 := by
    rw [UInt32.le_iff_toNat_le]
    exact Nat.le_of_lt_succ ascii
  rw [String.utf8EncodeChar_eq_singleton (Char.utf8Size_eq_one_iff.mpr small)]
  rfl

theorem utf8EncodeChar_high {character : Char} (high : 128 ≤ character.toNat) {octet : UInt8}
    (member : octet ∈ String.utf8EncodeChar character) : 128 ≤ octet.toNat := by
  have notAscii : ¬character.val.toNat ≤ 127 := by
    intro small
    exact absurd (Nat.lt_of_le_of_lt small (by omega : 127 < 128)) (Nat.not_lt.mpr high)
  simp only [String.utf8EncodeChar, notAscii, if_false] at member
  split at member
  · simp only [List.mem_cons, List.not_mem_nil, or_false] at member
    rcases member with same | same <;> subst same <;> rw [UInt8.toNat_ofNat'] <;> omega
  · split at member
    · simp only [List.mem_cons, List.not_mem_nil, or_false] at member
      rcases member with same | same | same <;> subst same <;> rw [UInt8.toNat_ofNat'] <;> omega
    · simp only [List.mem_cons, List.not_mem_nil, or_false] at member
      rcases member with same | same | same | same <;> subst same <;>
        rw [UInt8.toNat_ofNat'] <;> omega

theorem ascii_mem_encodeUtf8 {character : Char} (ascii : character.toNat < 128) (text : Text) :
    UInt8.ofNat character.toNat ∈ encodeUtf8 text ↔ character ∈ text := by
  simp only [encodeUtf8, List.mem_flatMap]
  constructor
  · rintro ⟨source, member, octet⟩
    by_cases sourceAscii : source.toNat < 128
    · rw [utf8EncodeChar_ascii sourceAscii, List.mem_singleton] at octet
      have codes := congrArg UInt8.toNat octet
      rw [UInt8.toNat_ofNat', UInt8.toNat_ofNat'] at codes
      have same : character = source := Char.toNat_inj.mp (by omega)
      exact same ▸ member
    · have above := utf8EncodeChar_high (Nat.le_of_not_lt sourceAscii) octet
      rw [UInt8.toNat_ofNat'] at above
      omega
  · intro member
    exact ⟨character, member, by simp [utf8EncodeChar_ascii ascii]⟩

theorem encodeUtf8_cons_ascii {character : Char} (ascii : character.toNat < 128) (text : Text) :
    encodeUtf8 (character :: text) = UInt8.ofNat character.toNat :: encodeUtf8 text := by
  rw [encodeUtf8_cons, utf8EncodeChar_ascii ascii, List.singleton_append]

theorem toNat_ofUInt8 (octet : UInt8) : (Char.ofUInt8 octet).toNat = octet.toNat :=
  UInt8.toNat_toUInt32 octet

theorem encodeUtf8_ofUInt8 {octet : UInt8} (low : octet.toNat < 128) (text : Text) :
    encodeUtf8 (Char.ofUInt8 octet :: text) = octet :: encodeUtf8 text := by
  rw [encodeUtf8_cons_ascii (by rwa [toNat_ofUInt8]), toNat_ofUInt8, UInt8.ofNat_toNat]

theorem utf8EncodeChar_ne_nil (character : Char) : String.utf8EncodeChar character ≠ [] := by
  intro empty
  have size := String.length_utf8EncodeChar character
  rw [empty] at size
  exact absurd size.symm (Nat.ne_of_gt character.utf8Size_pos)

theorem encodeUtf8_eq_cons_ascii {character : Char} (ascii : character.toNat < 128) {text : Text}
    {octets : Octets} (encoded : encodeUtf8 text = UInt8.ofNat character.toNat :: octets) :
    ∃ rest, text = character :: rest ∧ encodeUtf8 rest = octets := by
  cases text with
  | nil => cases encoded
  | cons first rest =>
      rw [encodeUtf8_cons] at encoded
      by_cases firstAscii : first.toNat < 128
      · rw [utf8EncodeChar_ascii firstAscii, List.singleton_append, List.cons.injEq] at encoded
        have codes := congrArg UInt8.toNat encoded.1
        rw [UInt8.toNat_ofNat', UInt8.toNat_ofNat'] at codes
        have same : first = character := Char.toNat_inj.mp (by omega)
        exact ⟨rest, by rw [same], encoded.2⟩
      · obtain ⟨octet, others, shape⟩ := List.exists_cons_of_ne_nil (utf8EncodeChar_ne_nil first)
        have high := utf8EncodeChar_high (Nat.le_of_not_lt firstAscii)
          (by rw [shape]; exact List.mem_cons_self : octet ∈ String.utf8EncodeChar first)
        rw [shape, List.cons_append, List.cons.injEq] at encoded
        rw [encoded.1, UInt8.toNat_ofNat'] at high
        omega

/-- The length of a string in octets, as a UTF-8 string library reports it. -/
def octetLength (text : Text) : Nat :=
  (encodeUtf8 text).length

theorem octetLength_ascii {text : Text} (ascii : ∀ character ∈ text, character.toNat < 128) :
    octetLength text = text.length := by
  induction text with
  | nil => rfl
  | cons character rest ih =>
      have first := utf8EncodeChar_ascii (ascii character (by simp))
      have later := ih (fun other member => ascii other (by simp [member]))
      simp only [octetLength] at later
      simp [octetLength, encodeUtf8_cons, first, later]

theorem length_le_octetLength (text : Text) : text.length ≤ octetLength text := by
  induction text with
  | nil => exact Nat.le_refl 0
  | cons character rest ih =>
      have first := List.length_pos_of_ne_nil (utf8EncodeChar_ne_nil character)
      simp only [octetLength, encodeUtf8_cons, List.length_append, List.length_cons] at ih ⊢
      omega

theorem octetLength_eq_length_iff {text : Text} :
    octetLength text = text.length ↔ ∀ character ∈ text, character.toNat < 128 := by
  refine ⟨fun same => ?_, octetLength_ascii⟩
  induction text with
  | nil => simp
  | cons character rest ih =>
      have later := length_le_octetLength rest
      have first : (String.utf8EncodeChar character).length = 1 := by
        have some := List.length_pos_of_ne_nil (utf8EncodeChar_ne_nil character)
        simp only [octetLength, encodeUtf8_cons, List.length_append, List.length_cons]
          at same later
        omega
      have others : octetLength rest = rest.length := by
        simp only [octetLength, encodeUtf8_cons, List.length_append, List.length_cons] at same ⊢
        omega
      have ascii : character.toNat < 128 := by
        rw [String.length_utf8EncodeChar, Char.utf8Size_eq_one_iff] at first
        exact Nat.lt_succ_of_le (UInt32.le_iff_toNat_le.mp first)
      rintro other (_ | ⟨_, member⟩)
      · exact ascii
      · exact ih others other member

def hasNonAscii (text : Text) : Bool :=
  (encodeUtf8 text).any fun octet => 0x80 ≤ octet

theorem hasNonAscii_eq_false {text : Text} :
    hasNonAscii text = false ↔ ∀ character ∈ text, character.toNat < 128 := by
  simp only [hasNonAscii, List.any_eq_false, decide_eq_true_eq, UInt8.le_iff_toNat_le]
  constructor
  · intro low character member
    by_contra high
    have above : 128 ≤ character.toNat := Nat.le_of_not_lt high
    obtain ⟨octet, inside⟩ := List.exists_mem_of_ne_nil _ (utf8EncodeChar_ne_nil character)
    exact low octet (List.mem_flatMap.mpr ⟨character, member, inside⟩)
      (utf8EncodeChar_high above inside)
  · intro ascii octet member high
    obtain ⟨character, source, inside⟩ := List.mem_flatMap.mp member
    rw [utf8EncodeChar_ascii (ascii character source), List.mem_singleton] at inside
    have bound := ascii character source
    rw [inside, UInt8.toNat_ofNat'] at high
    have constant : (0x80 : UInt8).toNat = 128 := rfl
    omega

def rsplitOnce (separator : Char) : Text → Option (Text × Text)
  | [] => none
  | character :: rest =>
      match rsplitOnce separator rest with
      | some (before, after) => some (character :: before, after)
      | none => if character = separator then some ([], rest) else none

/-- The characters with the Unicode `White_Space` property. -/
def isWhitespace (character : Char) : Bool :=
  let code := character.toNat
  (9 ≤ code && code ≤ 13) || code = 32 || code = 0x85 || code = 0xA0 || code = 0x1680 ||
    (0x2000 ≤ code && code ≤ 0x200A) || code = 0x2028 || code = 0x2029 || code = 0x202F ||
    code = 0x205F || code = 0x3000

def trimStart (text : Text) : Text :=
  text.dropWhile isWhitespace

def trimEnd (text : Text) : Text :=
  text.rdropWhile isWhitespace

def trim (text : Text) : Text :=
  trimEnd (trimStart text)

theorem trimStart_suffix (text : Text) : trimStart text <:+ text := List.dropWhile_suffix _

theorem trimStart_append {blank text : Text} (blanks : ∀ character ∈ blank, isWhitespace character) :
    trimStart (blank ++ text) = trimStart text := by
  induction blank with
  | nil => rfl
  | cons first rest ih =>
      have firstBlank : isWhitespace first = true := blanks first (by simp)
      simp only [trimStart, List.cons_append, List.dropWhile_cons, firstBlank, if_true]
      exact ih (fun character member => blanks character (by simp [member]))

theorem trimEnd_append {blank text : Text} (blanks : ∀ character ∈ blank, isWhitespace character) :
    trimEnd (text ++ blank) = trimEnd text := by
  have reversed : trimStart (blank.reverse ++ text.reverse) = trimStart text.reverse :=
    trimStart_append (fun character member => blanks character (by simpa using member))
  simp only [trimStart] at reversed
  simp [trimEnd, List.rdropWhile, reversed]

theorem trim_eq_singleton {character : Char} (solid : isWhitespace character = false)
    (text : Text) :
    trim text = [character] ↔
      ∃ before after, text = before ++ character :: after ∧
        (∀ blank ∈ before, isWhitespace blank) ∧ ∀ blank ∈ after, isWhitespace blank := by
  constructor
  · intro trimmed
    refine ⟨text.takeWhile isWhitespace, (trimStart text).rtakeWhile isWhitespace, ?_, ?_, ?_⟩
    · have tail : trim text ++ (trimStart text).rtakeWhile isWhitespace = trimStart text :=
        List.rdropWhile_append_rtakeWhile
      rw [trimmed] at tail
      have whole : text.takeWhile isWhitespace ++ trimStart text = text :=
        List.takeWhile_append_dropWhile
      rw [← tail] at whole
      simpa using whole.symm
    · intro blank member
      exact List.mem_takeWhile_imp member
    · intro blank member
      exact List.mem_rtakeWhile_imp member
  · rintro ⟨before, after, rfl, leading, trailing⟩
    have start : trimStart (before ++ character :: after) = [character] ++ after := by
      rw [trimStart_append leading]
      simp [trimStart, solid]
    rw [trim, start, trimEnd_append trailing]
    simp [trimEnd, List.rdropWhile, solid]

theorem trim_solid {text : Text} (solid : ∀ character ∈ text, isWhitespace character = false) :
    trim text = text := by
  have start : trimStart text = text := by
    cases text with
    | nil => rfl
    | cons first rest =>
        rw [trimStart, List.dropWhile_cons, solid first List.mem_cons_self]
        rfl
  rw [trim, start, trimEnd, List.rdropWhile]
  cases reversed : text.reverse with
  | nil =>
      rw [List.reverse_eq_nil_iff] at reversed
      rw [reversed]
      rfl
  | cons last rest =>
      have blank : isWhitespace last = false := by
        apply solid
        rw [← List.mem_reverse, reversed]
        exact List.mem_cons_self
      rw [List.dropWhile_cons, blank]
      simp only [Bool.false_eq_true, if_false]
      rw [← reversed, List.reverse_reverse]

theorem mem_trim {text : Text} {character : Char} (member : character ∈ trim text) :
    character ∈ text := by
  have ends : character ∈ trimStart text := (List.rdropWhile_prefix _ _).subset member
  exact (List.dropWhile_suffix _).subset ends

theorem trim_head {text rest : Text} {first : Char} (trimmed : trim text = first :: rest) :
    isWhitespace first = false := by
  obtain ⟨blanks, whole⟩ : trim text <+: trimStart text := List.rdropWhile_prefix _ _
  rw [trimmed, List.cons_append] at whole
  have head := List.head?_dropWhile_not isWhitespace text
  rw [trimStart] at whole
  rw [← whole] at head
  simpa using head

theorem trim_last {text : Text} {last : Char} (trimmed : (trim text).getLast? = some last) :
    isWhitespace last = false := by
  have nonempty : trim text ≠ [] := by
    rintro empty
    rw [empty] at trimmed
    cases trimmed
  have ends : (trim text).getLast nonempty = last := by
    rw [List.getLast?_eq_getLast_of_ne_nil nonempty] at trimmed
    exact Option.some.inj trimmed
  have stopped := List.rdropWhile_last_not isWhitespace (trimStart text) nonempty
  rw [← ends]
  exact Bool.eq_false_iff.mpr stopped

theorem trim_trim (text : Text) : trim (trim text) = trim text := by
  have start : trimStart (trim text) = trim text := by
    cases trimmed : trim text with
    | nil => rfl
    | cons first rest =>
        rw [trimStart, List.dropWhile_cons, trim_head trimmed]
        rfl
  rw [trim, start]
  exact List.rdropWhile_idempotent _ _

def trimQuotes (text : Text) : Text :=
  (text.dropWhile (· = '"')).rdropWhile (· = '"')

def splitWhitespace (text : Text) : List Text :=
  (text.splitOnP isWhitespace).filter (· ≠ [])

def toUppercase (text : Text) : Text :=
  text.map Char.toUpper

def eqIgnoreAsciiCase (first second : Text) : Bool :=
  first.map Char.toLower = second.map Char.toLower

def decimal (value : Nat) : Text :=
  Nat.toDigits 10 value

theorem isDigit_decimal {value : Nat} {digit : Char} (member : digit ∈ decimal value) :
    digit.isDigit = true :=
  Nat.isDigit_of_mem_toDigits (by omega) (by omega) member

theorem not_mem_decimal {character : Char} (other : character.isDigit = false) (value : Nat) :
    character ∉ decimal value := by
  intro member
  rw [isDigit_decimal member] at other
  cases other

theorem decimal_injective {first second : Nat} (same : decimal first = decimal second) :
    first = second := by
  have values := congrArg (fun digits => Nat.ofDigitChars 10 digits 0) same
  simpa [decimal, Nat.ofDigitChars_ten_toDigits] using values

theorem decimal_append_cons {first second : Nat} {stop other : Char} {rest tail : Text}
    (stops : stop.isDigit = false) (otherStops : other.isDigit = false)
    (same : decimal first ++ stop :: rest = decimal second ++ other :: tail) :
    first = second ∧ rest = tail := by
  have digits : ∀ (value : Nat) (character : Char) (after : Text), character.isDigit = false →
      (decimal value ++ character :: after).takeWhile Char.isDigit = decimal value := by
    intro value character after stopped
    rw [List.takeWhile_append_of_pos (fun digit member => isDigit_decimal member),
      List.takeWhile_cons_of_neg (by simp [stopped]), List.append_nil]
  have numbers : decimal first = decimal second := by
    rw [← digits first stop rest stops, same, digits second other tail otherStops]
  rw [numbers, List.append_cancel_left_eq, List.cons.injEq] at same
  exact ⟨decimal_injective numbers, same.2⟩

def usizeBound : Nat := UInt64.size

def digitsValue (digits : Text) : Nat :=
  digits.foldl (fun value digit => 10 * value + (digit.toNat - '0'.toNat)) 0

theorem digitsValue_decimal (value : Nat) : digitsValue (decimal value) = value :=
  Nat.ofDigitChars_ten_toDigits

def parseUsize (text : Text) : Option Nat :=
  let digits := if text.head? = some '+' then text.tail else text
  if digits = [] ∨ ¬digits.all Char.isDigit then none
  else if digitsValue digits < usizeBound then some (digitsValue digits) else none

theorem parseUsize_decimal {value : Nat} (fits : value < usizeBound) :
    parseUsize (decimal value) = some value := by
  have unsigned : (decimal value).head? ≠ some '+' := by
    intro signed
    exact not_mem_decimal (by decide) value (List.mem_of_head? signed)
  have readable : ¬(decimal value = [] ∨ ¬(decimal value).all Char.isDigit) := by
    rw [not_or, not_not, List.all_eq_true]
    exact ⟨Nat.toDigits_ne_nil, fun digit member => isDigit_decimal member⟩
  rw [parseUsize, if_neg unsigned, if_neg readable, digitsValue_decimal, if_pos fits]

def splitOn (separator : Char) : Text → List Text
  | [] => [[]]
  | character :: rest =>
      if character = separator then [] :: splitOn separator rest
      else
        match splitOn separator rest with
        | [] => [[character]]
        | part :: parts => (character :: part) :: parts

def splitOnce (separator : Char) (text : Text) : Option (Text × Text) :=
  if separator ∈ text then
    some (text.takeWhile (· ≠ separator), (text.dropWhile (· ≠ separator)).tail)
  else none

def rsplitOnceAt (pattern : Text) : Text → Option (Text × Text)
  | [] => none
  | character :: rest =>
      match rsplitOnceAt pattern rest with
      | some (before, after) => some (character :: before, after)
      | none =>
          if pattern <+: character :: rest then
            some ([], (character :: rest).drop pattern.length)
          else none

def joinWith (separator : Text) : List Text → Text
  | [] => []
  | [part] => part
  | part :: parts => part ++ separator ++ joinWith separator parts

theorem joinWith_cons_cons (separator part second : Text) (parts : List Text) :
    joinWith separator (part :: second :: parts) =
      part ++ (separator ++ joinWith separator (second :: parts)) := by
  simp [joinWith]

theorem mem_joinWith {separator : Text} {parts : List Text} {character : Char}
    (member : character ∈ joinWith separator parts) :
    character ∈ separator ∨ ∃ part ∈ parts, character ∈ part := by
  induction parts with
  | nil => cases member
  | cons part parts ih =>
      cases parts with
      | nil => exact Or.inr ⟨part, List.mem_cons_self, member⟩
      | cons second parts =>
          rw [joinWith_cons_cons, List.mem_append, List.mem_append] at member
          rcases member with first | between | later
          · exact Or.inr ⟨part, List.mem_cons_self, first⟩
          · exact Or.inl between
          · rcases ih later with between | ⟨other, inside, held⟩
            · exact Or.inl between
            · exact Or.inr ⟨other, List.mem_cons_of_mem part inside, held⟩

theorem mem_joinWith_of_mem {separator part : Text} {parts : List Text} {character : Char}
    (member : part ∈ parts) (inside : character ∈ part) : character ∈ joinWith separator parts := by
  induction parts with
  | nil => cases member
  | cons first rest ih =>
      cases rest with
      | nil =>
          rw [List.mem_singleton.mp member] at inside
          exact inside
      | cons second rest =>
          rw [joinWith_cons_cons, List.mem_append, List.mem_append]
          rcases List.mem_cons.mp member with rfl | later
          · exact .inl inside
          · exact .inr (.inr (ih later))

/-- The lines of a text, as a string library's `lines` gives them: without their ends,
and without an empty last one. A last line without an end is left as it is. -/
def textLines (text : Text) : List Text :=
  let parts := splitOn '\n' text
  let ended := parts.dropLast.map fun line =>
    if line.getLast? = some '\r' then line.dropLast else line
  ended ++ (parts.getLast?.toList.filter fun line => line ≠ [])

def splitOnceAt (pattern : Text) : Text → Option (Text × Text)
  | [] => none
  | character :: rest =>
      if pattern <+: character :: rest then some ([], (character :: rest).drop pattern.length)
      else (splitOnceAt pattern rest).map fun parts => (character :: parts.1, parts.2)

theorem splitOnceAt_eq_some {pattern text before after : Text}
    (found : splitOnceAt pattern text = some (before, after)) :
    text = before ++ pattern ++ after := by
  induction text generalizing before with
  | nil => cases found
  | cons character rest ih =>
      simp only [splitOnceAt] at found
      split at found
      · rename_i leads
        cases found
        obtain ⟨tail, whole⟩ := leads
        rw [← whole, List.drop_left, List.nil_append]
      · obtain ⟨⟨first, second⟩, later, same⟩ := Option.map_eq_some_iff.mp found
        cases same
        rw [ih later]
        simp

theorem splitOnceAt_before {pattern text before after : Text}
    (found : splitOnceAt pattern text = some (before, after)) :
    splitOnceAt pattern before = none := by
  induction text generalizing before with
  | nil => cases found
  | cons character rest ih =>
      simp only [splitOnceAt] at found
      split at found
      · cases found
        rfl
      · rename_i absent
        obtain ⟨⟨first, second⟩, later, same⟩ := Option.map_eq_some_iff.mp found
        cases same
        have absentBefore : ¬pattern <+: character :: first := by
          intro leads
          apply absent
          rw [splitOnceAt_eq_some later, List.append_assoc]
          exact leads.trans (List.prefix_append (character :: first) _)
        rw [splitOnceAt, if_neg absentBefore, ih later]
        rfl

def stripPrefix (lead : Text) (text : Text) : Option Text :=
  if lead <+: text then some (text.drop lead.length) else none

theorem splitOn_part {separator : Char} {text part : Text}
    (member : part ∈ splitOn separator text) : part <:+: text := by
  suffices parts : (∀ part ∈ splitOn separator text, part <:+: text) ∧
      ∀ part, (splitOn separator text).head? = some part → part <+: text from parts.1 part member
  clear member part
  induction text with
  | nil => simp [splitOn]
  | cons character rest ih =>
      simp only [splitOn]
      split
      · refine ⟨?_, by simp⟩
        intro part member
        rcases List.mem_cons.mp member with rfl | later
        · exact List.nil_infix
        · exact (ih.1 part later).trans (List.infix_cons List.infix_rfl)
      · cases parts : splitOn separator rest with
        | nil =>
            have leads : [character] <+: character :: rest := ⟨rest, rfl⟩
            exact ⟨by simpa using leads.isInfix, by simp⟩
        | cons first others =>
            rw [parts] at ih
            have leads : character :: first <+: character :: rest :=
              List.cons_prefix_cons.mpr ⟨rfl, ih.2 first rfl⟩
            refine ⟨?_, by simp [leads]⟩
            intro part member
            rcases List.mem_cons.mp member with rfl | later
            · exact leads.isInfix
            · exact (ih.1 part (List.mem_cons_of_mem first later)).trans
                (List.infix_cons List.infix_rfl)

theorem splitOn_unbroken {separator : Char} {text : Text} (unbroken : separator ∉ text) :
    splitOn separator text = [text] := by
  induction text with
  | nil => rfl
  | cons character text ih =>
      rw [List.mem_cons, not_or] at unbroken
      rw [splitOn, if_neg (Ne.symm unbroken.1), ih unbroken.2]

theorem splitOn_append {separator : Char} {part : Text} (whole : separator ∉ part) (rest : Text) :
    splitOn separator (part ++ separator :: rest) = part :: splitOn separator rest := by
  induction part with
  | nil => simp [splitOn]
  | cons character part ih =>
      rw [List.mem_cons, not_or] at whole
      rw [List.cons_append, splitOn, if_neg (Ne.symm whole.1), ih whole.2]

def crlfLines : Text → List Text
  | [] => [[]]
  | '\r' :: '\n' :: rest => [] :: crlfLines rest
  | character :: rest => (crlfLines rest).modifyHead (character :: ·)

theorem crlfLines_cons {character : Char} (plain : character ≠ '\r') (rest : Text) :
    crlfLines (character :: rest) = (crlfLines rest).modifyHead (character :: ·) := by
  rw [crlfLines]
  intro _ start
  exact absurd start plain

theorem crlfLines_line {line : Text} (plain : '\r' ∉ line) (rest : Text) :
    crlfLines (line ++ '\r' :: '\n' :: rest) = line :: crlfLines rest := by
  induction line with
  | nil => rw [List.nil_append, crlfLines]
  | cons character line ih =>
      rw [List.mem_cons, not_or] at plain
      rw [List.cons_append, crlfLines_cons (Ne.symm plain.1), ih plain.2, List.modifyHead_cons]

theorem crlfLines_last {line : Text} (plain : '\r' ∉ line) : crlfLines line = [line] := by
  induction line with
  | nil => rfl
  | cons character line ih =>
      rw [List.mem_cons, not_or] at plain
      rw [crlfLines_cons (Ne.symm plain.1), ih plain.2, List.modifyHead_cons]

theorem splitOnce_eq_some {separator : Char} {text before after : Text}
    (found : splitOnce separator text = some (before, after)) :
    text = before ++ separator :: after := by
  simp only [splitOnce, Option.ite_none_right_eq_some, Option.some.injEq, Prod.mk.injEq] at found
  obtain ⟨member, rfl, rfl⟩ := found
  have stops : text.dropWhile (· ≠ separator) ≠ [] := by
    intro empty
    rw [List.dropWhile_eq_nil_iff] at empty
    simpa using empty separator member
  obtain ⟨first, rest, shape⟩ := List.exists_cons_of_ne_nil stops
  have head := List.head_dropWhile_not _ stops
  simp only [shape, List.head_cons] at head
  have same : first = separator := by simpa using head
  have whole : text.takeWhile (· ≠ separator) ++ text.dropWhile (· ≠ separator) = text :=
    List.takeWhile_append_dropWhile
  rw [shape, same] at whole
  rw [shape, List.tail_cons, whole]

theorem rsplitOnceAt_before {pattern text before after : Text}
    (found : rsplitOnceAt pattern text = some (before, after)) : before <+: text := by
  induction text generalizing before after with
  | nil => cases found
  | cons character rest ih =>
      simp only [rsplitOnceAt] at found
      cases later : rsplitOnceAt pattern rest with
      | some parts =>
          obtain ⟨first, second⟩ := parts
          simp only [later, Option.some.injEq, Prod.mk.injEq] at found
          rw [← found.1]
          exact List.cons_prefix_cons.mpr ⟨rfl, ih later⟩
      | none =>
          simp only [later, Option.ite_none_right_eq_some, Option.some.injEq, Prod.mk.injEq] at found
          rw [← found.2.1]
          exact List.nil_prefix

def utf8Length (lead : Nat) : Nat :=
  if lead < 0x80 then 1
  else if 0xC2 ≤ lead ∧ lead ≤ 0xDF then 2
  else if 0xE0 ≤ lead ∧ lead ≤ 0xEF then 3
  else if 0xF0 ≤ lead ∧ lead ≤ 0xF4 then 4
  else 0

def utf8Second (lead second : Nat) : Bool :=
  let (low, high) :=
    if lead = 0xE0 then (0xA0, 0xBF)
    else if lead = 0xED then (0x80, 0x9F)
    else if lead = 0xF0 then (0x90, 0xBF)
    else if lead = 0xF4 then (0x80, 0x8F)
    else (0x80, 0xBF)
  low ≤ second && second ≤ high

def utf8Continuation (octet : UInt8) : Bool :=
  0x80 ≤ octet.toNat && octet.toNat ≤ 0xBF

def utf8Matched : Octets → Nat
  | [] => 0
  | [_] => 1
  | lead :: second :: rest =>
      if 1 < utf8Length lead.toNat ∧ utf8Second lead.toNat second.toNat then
        2 + ((rest.take (utf8Length lead.toNat - 2)).takeWhile utf8Continuation).length
      else 1

def replaceInvalid : Nat → Octets → Text
  | 0, _ => []
  | _, [] => []
  | fuel + 1, lead :: rest =>
      let taken := utf8Matched (lead :: rest)
      let character :=
        if taken = utf8Length lead.toNat then
          (decodeUtf8 ((lead :: rest).take taken)).getD ['\uFFFD']
        else ['\uFFFD']
      character ++ replaceInvalid fuel ((lead :: rest).drop taken)

def decodeLossy (octets : Octets) : Text :=
  (decodeUtf8 octets).getD (replaceInvalid octets.length octets)

@[simp] theorem decodeLossy_encodeUtf8 (text : Text) : decodeLossy (encodeUtf8 text) = text := by
  rw [decodeLossy, decodeUtf8_encodeUtf8, Option.getD_some]

theorem ascii_mem_decodeLossy {character : Char} (ascii : character.toNat < 128) {octets : Octets}
    (member : character ∈ decodeLossy octets) : UInt8.ofNat character.toNat ∈ octets := by
  have decoded : ∀ {part : Octets} {text : Text}, decodeUtf8 part = some text →
      character ∈ text → UInt8.ofNat character.toNat ∈ part := by
    intro part text read inside
    rw [← encodeUtf8_of_decodeUtf8 read]
    exact (ascii_mem_encodeUtf8 ascii text).mpr inside
  have replaced : ¬character ∈ ['\uFFFD'] := by
    intro same
    rw [List.mem_singleton] at same
    rw [same] at ascii
    revert ascii
    decide
  have repaired : ∀ fuel part, character ∈ replaceInvalid fuel part →
      UInt8.ofNat character.toNat ∈ part := by
    intro fuel
    induction fuel with
    | zero =>
        intro part inside
        simp [replaceInvalid] at inside
    | succ fuel ih =>
        intro part inside
        cases part with
        | nil => simp [replaceInvalid] at inside
        | cons lead rest =>
            simp only [replaceInvalid, List.mem_append] at inside
            rcases inside with here | later
            · split at here
              · cases read : decodeUtf8 ((lead :: rest).take (utf8Matched (lead :: rest))) with
                | none =>
                    rw [read] at here
                    exact absurd here replaced
                | some text =>
                    rw [read] at here
                    exact List.mem_of_mem_take (decoded read here)
              · exact absurd here replaced
            · exact List.mem_of_mem_drop (ih _ later)
  rw [decodeLossy] at member
  cases read : decodeUtf8 octets with
  | none =>
      rw [read] at member
      exact repaired _ _ member
  | some text =>
      rw [read] at member
      exact decoded read member

theorem decodeLossy_cons_ascii {octet : UInt8} (low : octet.toNat < 128) (rest : Octets) :
    ∃ later, decodeLossy (octet :: rest) = Char.ofUInt8 octet :: later := by
  have same : UInt8.ofNat (Char.ofUInt8 octet).toNat = octet := by
    rw [toNat_ofUInt8, UInt8.ofNat_toNat]
  have ascii : (Char.ofUInt8 octet).toNat < 128 := by rwa [toNat_ofUInt8]
  rw [decodeLossy]
  cases read : decodeUtf8 (octet :: rest) with
  | some text =>
      have encoded := encodeUtf8_of_decodeUtf8 read
      rw [← same] at encoded
      obtain ⟨later, rfl, -⟩ := encodeUtf8_eq_cons_ascii ascii encoded
      exact ⟨later, rfl⟩
  | none =>
      have matched : utf8Matched (octet :: rest) = 1 := by
        cases rest with
        | nil => rfl
        | cons second rest =>
            rw [utf8Matched, if_neg]
            simp [utf8Length, low]
      have length : utf8Length octet.toNat = 1 := if_pos low
      have alone : decodeUtf8 [octet] = some [Char.ofUInt8 octet] := by
        have encoded := decodeUtf8_encodeUtf8 [Char.ofUInt8 octet]
        rwa [encodeUtf8_ofUInt8 low] at encoded
      rw [Option.getD_none, List.length_cons, replaceInvalid]
      simp [matched, length, alone]

/-! Reading a stream line by line, as a buffered reader's `read_line` does. -/

def takeLine : Octets → Octets × Octets
  | [] => ([], [])
  | octet :: rest =>
      if octet = 10 then ([octet], rest)
      else
        let (line, remaining) := takeLine rest
        (octet :: line, remaining)

theorem takeLine_append (stream : Octets) : (takeLine stream).1 ++ (takeLine stream).2 = stream := by
  induction stream with
  | nil => rfl
  | cons octet rest ih =>
      simp only [takeLine]
      split
      · rfl
      · simp [ih]

theorem takeLine_line {body : Octets} (unbroken : 10 ∉ body) (rest : Octets) :
    takeLine (body ++ 10 :: rest) = (body ++ [10], rest) := by
  induction body with
  | nil => simp [takeLine]
  | cons octet body ih =>
      simp only [List.mem_cons, not_or] at unbroken
      simp [takeLine, Ne.symm unbroken.1, ih unbroken.2]

theorem takeLine_shorter {stream : Octets} (more : stream ≠ []) :
    (takeLine stream).2.length < stream.length := by
  cases stream with
  | nil => exact absurd rfl more
  | cons octet rest =>
      have parts := congrArg List.length (takeLine_append rest)
      simp only [List.length_append] at parts
      simp only [takeLine]
      split
      · simp
      · simp only [List.length_cons]
        omega

def splitLines : Octets → List Octets
  | [] => []
  | octet :: rest =>
      if octet = 10 then [octet] :: splitLines rest
      else
        match splitLines rest with
        | [] => [[octet]]
        | line :: lines => (octet :: line) :: lines

theorem splitLines_takeLine {stream : Octets} (more : stream ≠ []) :
    splitLines stream = (takeLine stream).1 :: splitLines (takeLine stream).2 := by
  induction stream with
  | nil => exact absurd rfl more
  | cons octet rest ih =>
      by_cases newline : octet = 10
      · simp [splitLines, takeLine, newline]
      · by_cases last : rest = []
        · simp [splitLines, takeLine, newline, last]
        · simp [splitLines, takeLine, newline, ih last]

theorem splitLines_line {body : Octets} (unbroken : 10 ∉ body) (rest : Octets) :
    splitLines (body ++ 10 :: rest) = (body ++ [10]) :: splitLines rest := by
  rw [splitLines_takeLine (by simp), takeLine_line unbroken]

theorem splitLines_last {line : Octets} (unbroken : 10 ∉ line) (more : line ≠ []) :
    splitLines line = [line] := by
  induction line with
  | nil => exact absurd rfl more
  | cons octet line ih =>
      rw [List.mem_cons, not_or] at unbroken
      by_cases last : line = []
      · simp [splitLines, last, Ne.symm unbroken.1]
      · simp [splitLines, Ne.symm unbroken.1, ih unbroken.2 last]

theorem splitLines_unbroken {stream line : Octets} (member : line ∈ splitLines stream) :
    10 ∉ line.dropLast := by
  induction stream generalizing line with
  | nil => cases member
  | cons octet rest ih =>
      simp only [splitLines] at member
      split at member
      · rcases List.mem_cons.mp member with rfl | later
        · simp
        · exact ih later
      · rename_i plain
        cases lines : splitLines rest with
        | nil =>
            rw [lines, List.mem_singleton] at member
            simp [member]
        | cons first others =>
            rw [lines] at member ih
            rcases List.mem_cons.mp member with rfl | later
            · have before := ih List.mem_cons_self
              cases first with
              | nil => simp
              | cons start more =>
                  rw [List.dropLast_cons_cons, List.mem_cons, not_or]
                  exact ⟨Ne.symm plain, before⟩
            · exact ih (List.mem_cons_of_mem _ later)

theorem splitLines_flatten (stream : Octets) : (splitLines stream).flatten = stream := by
  induction stream with
  | nil => rfl
  | cons octet rest ih =>
      by_cases newline : octet = 10
      · simp [splitLines, newline, ih]
      · simp only [splitLines, newline, if_false]
        cases lines : splitLines rest with
        | nil =>
            rw [lines] at ih
            simpa using ih
        | cons line others =>
            rw [lines] at ih
            simpa using ih

theorem splitLines_length_le (stream : Octets) : (splitLines stream).length ≤ stream.length := by
  induction stream with
  | nil => exact Nat.le_refl 0
  | cons octet rest ih =>
      by_cases newline : octet = 10
      · simp only [splitLines, newline, if_true, List.length_cons]
        omega
      · simp only [splitLines, newline, if_false, List.length_cons]
        cases lines : splitLines rest with
        | nil => simp
        | cons line others =>
            rw [lines] at ih
            simp only [List.length_cons] at ih ⊢
            omega

theorem splitLines_nonempty {stream line : Octets} (member : line ∈ splitLines stream) :
    line ≠ [] := by
  induction stream generalizing line with
  | nil => simp [splitLines] at member
  | cons octet rest ih =>
      by_cases newline : octet = 10
      · simp only [splitLines, newline, if_true, List.mem_cons] at member
        rcases member with rfl | later
        · simp
        · exact ih later
      · simp only [splitLines, newline, if_false] at member
        cases lines : splitLines rest with
        | nil =>
            rw [lines] at member
            simp only [List.mem_singleton] at member
            simp [member]
        | cons first others =>
            rw [lines] at member
            rcases List.mem_cons.mp member with rfl | later
            · simp
            · exact ih (by simp [lines, later])

/-- What one `read_line` reports: the end of the stream, a line, or octets that
are not UTF-8. In the last case they have been consumed all the same. -/
inductive LineRead
  | eof
  | line (text : Text)
  | invalid
  deriving DecidableEq, Repr

def readLine (stream : Octets) : LineRead × Octets :=
  if stream.isEmpty then (.eof, [])
  else
    let (line, rest) := takeLine stream
    match decodeUtf8 line with
    | some text => (.line text, rest)
    | none => (.invalid, rest)

theorem readLine_splitLines {stream line : Octets} {lines : List Octets}
    (split : splitLines stream = line :: lines) :
    readLine stream =
      (match decodeUtf8 line with
        | some text => .line text
        | none => .invalid, lines.flatten) ∧ splitLines lines.flatten = lines := by
  have more : stream ≠ [] := by
    rintro rfl
    cases split
  rw [splitLines_takeLine more, List.cons.injEq] at split
  obtain ⟨first, later⟩ := split
  have rest : lines.flatten = (takeLine stream).2 := by rw [← later, splitLines_flatten]
  refine ⟨?_, by rw [rest, later]⟩
  simp only [readLine, List.isEmpty_iff, more, if_false, first, rest]
  cases decodeUtf8 line <;> rfl

theorem readLine_rest {stream rest : Octets} {text : Text}
    (read : readLine stream = (.line text, rest)) : rest = (takeLine stream).2 := by
  simp only [readLine] at read
  split at read
  · cases read
  · split at read <;> cases read
    rfl

end WireText
