import Rusmes.Core.DkimFields
import Rusmes.Library.Splitting

/-!
The tags of a signature field: what the mailet reads of them, where the field without its signature
has the form the mailet writes.
-/

namespace Rusmes

open WireText Recognizer

theorem encode_splitOn {separator : Char} (ascii : separator.toNat < 128) (text : Text) :
    (encodeUtf8 text).splitOn (UInt8.ofNat separator.toNat) =
      (splitOn separator text).map encodeUtf8 := by
  have other : ∀ {part : Text}, separator ∉ part → UInt8.ofNat separator.toNat ∉ encodeUtf8 part :=
    fun absent inside => absent ((ascii_mem_encodeUtf8 ascii _).mp inside)
  induction text using pieces_induction separator with
  | last text absent =>
      rw [List.splitOn_eq_singleton (other absent), splitOn_unbroken absent]
      rfl
  | next first rest absent ih =>
      rw [encodeUtf8_append, encodeUtf8_cons_ascii ascii,
        List.splitOn_append_cons_self_of_not_mem (other absent), splitOn_append absent, ih, List.map_cons]

theorem fieldText_eq {value : Octets} (unbroken : 10 ∉ value) :
    fieldText value = (decodeLossy value).filter (· ≠ '\r') :=
  unfoldFrom_newline_free (newline_not_mem_decodeLossy unbroken)

theorem fieldText_append {before rest : Octets} {octet : UInt8} (low : octet.toNat < 128)
    (solid : octet ≠ 13) (unbroken : 10 ∉ before ++ octet :: rest) :
    fieldText (before ++ octet :: rest) =
      fieldText before ++ Char.ofUInt8 octet :: fieldText rest := by
  have kept : Char.ofUInt8 octet ≠ '\r' := by
    intro same
    have codes := congrArg Char.toNat same
    rw [toNat_ofUInt8] at codes
    exact solid (UInt8.toNat_inj.mp codes)
  simp only [List.mem_append, List.mem_cons, not_or] at unbroken
  rw [fieldText_eq (by simp [unbroken]), fieldText_eq unbroken.1, fieldText_eq unbroken.2.2,
    decodeLossy_append_ascii before low, List.filter_append, List.filter_cons_of_pos (by simp [kept])]

theorem not_mem_fieldText {value : Octets} {character : Char} (ascii : character.toNat < 128)
    (unbroken : 10 ∉ value) (absent : UInt8.ofNat character.toNat ∉ value) :
    character ∉ fieldText value := by
  rw [fieldText_eq unbroken]
  exact fun inside => absent (ascii_mem_decodeLossy ascii (List.mem_filter.mp inside).1)

theorem fieldText_splitOn {value : Octets} (unbroken : 10 ∉ value) :
    splitOn ';' (fieldText value) = (value.splitOn 59).map fieldText := by
  induction value using pieces_induction (59 : UInt8) with
  | last value absent =>
      rw [splitOn_unbroken (@not_mem_fieldText _ ';' (by decide) unbroken absent),
        List.splitOn_eq_singleton absent]
      rfl
  | next first rest absent ih =>
      have parts : 10 ∉ first ∧ 10 ∉ rest := by
        simp only [List.mem_append, List.mem_cons, not_or] at unbroken
        exact ⟨unbroken.1, unbroken.2.2⟩
      have semicolon : Char.ofUInt8 59 = ';' := by decide
      rw [fieldText_append (by decide) (by decide) unbroken, semicolon,
        splitOn_append (@not_mem_fieldText _ ';' (by decide) parts.1 absent), ih parts.2,
        List.splitOn_append_cons_self_of_not_mem absent, List.map_cons]

def readTag (tag : Octets) : Option (Text × Text) :=
  (splitOnce '=' (trim (fieldText tag))).map fun parts => (trim parts.1, trim parts.2)

theorem tagParams_fieldText {value : Octets} (unbroken : 10 ∉ value) :
    tagParams (fieldText value) = storeFields ∅ ((value.splitOn 59).filterMap readTag) := by
  have returns : '\r' ∉ fieldText value := by
    rw [fieldText_eq unbroken]
    simp
  have plain : unfoldHeader (fieldText value) = fieldText value :=
    unfoldFrom_plain returns (@not_mem_fieldText _ '\n' (by decide) unbroken unbroken)
  have read : ∀ (tags : List Octets) (params : TagTable),
      (tags.map fieldText).foldl insertTag params = storeFields params (tags.filterMap readTag) := by
    intro tags
    induction tags with
    | nil => exact fun _ => rfl
    | cons tag tags ih =>
        intro params
        rw [List.map_cons, List.foldl_cons, ih, List.filterMap_cons, insertTag, readTag]
        cases splitOnce '=' (trim (fieldText tag)) <;> rfl
  rw [tagParams, plain, fieldText_splitOn unbroken, read]

def TagKey (key : Text) : Prop :=
  key ≠ [] ∧ ∀ character ∈ key,
    isWhitespace character = false ∧ character ≠ '=' ∧ character ≠ ';'

instance (key : Text) : Decidable (TagKey key) := inferInstanceAs (Decidable (_ ∧ _))

def OpensWith (tag : Octets) (key : Text) (rest : Octets) : Prop :=
  ∃ before, tag = encodeUtf8 (before ++ key) ++ 61 :: rest ∧
    ∀ character ∈ before, isSpace character = true

section Tag

variable {tag rest : Octets} {key : Text}

theorem plain_key {before : Text} (proper : TagKey key)
    (spaces : ∀ character ∈ before, isSpace character = true) :
    PlainText (before ++ key) ∧ '=' ∉ before ++ key := by
  refine ⟨?_, ?_⟩
  · intro character member white
    rcases List.mem_append.mp member with inside | inside
    · exact spaces character inside
    · rw [(proper.2 character inside).1] at white
      cases white
  · intro member
    rcases List.mem_append.mp member with inside | inside
    · exact absurd (spaces _ inside) (by decide)
    · exact (proper.2 _ inside).2.1 rfl

theorem OpensWith.read (opens : OpensWith tag key rest) (proper : TagKey key) (unbroken : 10 ∉ tag) :
    readTag tag = some (key, trim (fieldText rest)) := by
  obtain ⟨before, rfl, spaces⟩ := opens
  obtain ⟨plain, -⟩ := plain_key proper spaces
  have solid : ∀ character ∈ key, isWhitespace character = false :=
    fun character member => (proper.2 character member).1
  have absent : '=' ∉ key := fun member => (proper.2 _ member).2.1 rfl
  have equals : Char.ofUInt8 61 = '=' := by decide
  have opening : ∀ character ∈ key ++ ['='], isWhitespace character = false := by
    rw [List.forall_mem_append]
    exact ⟨solid, by decide⟩
  have text : trim (before ++ (key ++ '=' :: fieldText rest)) = key ++ '=' :: trimEnd (fieldText rest) := by
    have parts : key ++ '=' :: fieldText rest = (key ++ ['=']) ++ fieldText rest := by simp
    rw [trim_blanks fun character member => isWhitespace_isSpace (spaces character member), parts,
      trim_word (by simp) opening, List.append_assoc, List.singleton_append]
  rw [readTag, fieldText_append (by decide) (by decide) unbroken, fieldText_encode plain, equals,
    List.append_assoc, text, splitOnce_append absent, Option.map_some, trim_solid solid, trim_trimEnd]

theorem OpensWith.name (opens : OpensWith tag key rest) (proper : TagKey key) :
    61 ∈ tag ∧ tagName tag = encodeUtf8 key ∧ tagValue tag = rest := by
  obtain ⟨before, rfl, spaces⟩ := opens
  obtain ⟨plain, absent⟩ := plain_key proper spaces
  have other : 61 ∉ encodeUtf8 (before ++ key) :=
    fun inside => absent ((@ascii_mem_encodeUtf8 '=' (by decide) _).mp inside)
  have front : ∀ octet ∈ encodeUtf8 (before ++ key), decide (octet ≠ 61) = true := by
    intro octet member
    exact decide_eq_true fun same => other (same ▸ member)
  have word : joinWords (before ++ key) = key := by
    have single := squeeze_solid ' ' proper.1 fun character member => (proper.2 character member).1
    rw [joinWords, splitWhitespace_blanks fun character member =>
      isWhitespace_isSpace (spaces character member), ← joinWords, joinWords_eq, single]
  refine ⟨by simp, ?_, ?_⟩
  · rw [tagName, List.takeWhile_append_of_pos front, List.takeWhile_cons_of_neg (by simp),
      List.append_nil, relaxValue_encode plain, word]
  · rw [tagValue, List.dropWhile_append_of_pos front, List.dropWhile_cons_of_neg (by simp), List.tail_cons]

theorem opens_of_words (proper : TagKey key) {content : Text}
    (same : wordsBy isBlank tag = (splitWhitespace (key ++ '=' :: content)).map encodeUtf8) :
    ∃ found, OpensWith tag key (encodeUtf8 found) ∧ PlainText found ∧
      splitWhitespace found = splitWhitespace content := by
  obtain ⟨text, rfl, plain, words⟩ := plain_of_words same fun word member => (mem_wordsBy member).2
  have opening : ∀ character ∈ key ++ ['='], isWhitespace character = false := by
    rw [List.forall_mem_append]
    exact ⟨fun character member => (proper.2 character member).1, by decide⟩
  have parts : key ++ '=' :: content = (key ++ ['=']) ++ content := by simp
  rw [parts] at words
  obtain ⟨blanks, found, rfl, white, others⟩ := splitWhitespace_start (by simp) opening words
  refine ⟨found, ⟨blanks, ?_, ?_⟩, ?_, others⟩
  · have equals : blanks ++ (key ++ ['='] ++ found) = (blanks ++ key) ++ '=' :: found := by simp
    rw [equals, encodeUtf8_append, encodeUtf8_cons_ascii (by decide)]
    rfl
  · exact fun character member => plain character (List.mem_append_left _ member) (white character member)
  · exact fun character member =>
      plain character (List.mem_append_right _ (List.mem_append_right _ member))

end Tag

end Rusmes
