import Rusmes.Core.DkimHeaders
import Rusmes.Library.Recognizer

/-!
Values in relaxed form: as octets, with the blanks of the RFC, and as text, with the white space of
a string library.
-/

namespace Rusmes

open WireText Recognizer

theorem isBlank_encode {character : Char} {octet : UInt8}
    (member : octet ∈ String.utf8EncodeChar character) : isBlank octet = isSpace character := by
  by_cases ascii : character.toNat < 128
  · rw [utf8EncodeChar_ascii ascii, List.mem_singleton] at member
    subst member
    have same : ∀ code < 128, isBlank (UInt8.ofNat code) = isSpace (Char.ofNat code) := by decide
    have found := same character.toNat ascii
    rwa [Char.ofNat_toNat] at found
  · have high := utf8EncodeChar_high (Nat.le_of_not_lt ascii) member
    have noOctet : isBlank octet = false := by
      simp only [isBlank, Bool.or_eq_false_iff, decide_eq_false_iff_not]
      constructor <;> rintro rfl <;> revert high <;> decide
    have noSpace : isSpace character = false := by
      simp only [isSpace, Bool.or_eq_false_iff, decide_eq_false_iff_not]
      constructor <;> rintro rfl <;> revert ascii <;> decide
    rw [noOctet, noSpace]

theorem mem_encodeUtf8 {octet : UInt8} {text : Text} :
    octet ∈ encodeUtf8 text ↔ ∃ character ∈ text, octet ∈ String.utf8EncodeChar character :=
  List.mem_flatMap

theorem encodeUtf8_ne_nil {text : Text} (nonempty : text ≠ []) : encodeUtf8 text ≠ [] := by
  obtain ⟨character, rest, rfl⟩ := List.exists_cons_of_ne_nil nonempty
  rw [encodeUtf8_cons]
  exact List.append_ne_nil_of_left_ne_nil (utf8EncodeChar_ne_nil character) _

theorem encodeUtf8_injective {first second : Text} (same : encodeUtf8 first = encodeUtf8 second) :
    first = second := by
  have decoded := congrArg decodeUtf8 same
  rwa [decodeUtf8_encodeUtf8, decodeUtf8_encodeUtf8, Option.some.injEq] at decoded

theorem wordsBy_encode (text : Text) :
    wordsBy isBlank (encodeUtf8 text) = (wordsBy isSpace text).map encodeUtf8 := by
  have blanks : ∀ {part : Text} {value : Bool}, (∀ character ∈ part, isSpace character = value) →
      ∀ octet ∈ encodeUtf8 part, isBlank octet = value := by
    intro part value each octet member
    obtain ⟨character, inside, piece⟩ := mem_encodeUtf8.mp member
    rw [isBlank_encode piece, each character inside]
  induction text using words_induction isSpace with
  | none text white empty => rw [empty, wordsBy_blank (blanks white), List.map_nil]
  | next before word rest white nonempty solid ends found ih =>
      have begins : ∀ first, (encodeUtf8 rest).head? = some first → isBlank first = true := by
        intro first head
        cases rest with
        | nil => cases head
        | cons character rest =>
            obtain ⟨lead, more, octets⟩ := List.exists_cons_of_ne_nil (utf8EncodeChar_ne_nil character)
            rw [encodeUtf8_cons, octets, List.cons_append, List.head?_cons, Option.some.injEq] at head
            rw [← head, isBlank_encode (by rw [octets]; exact List.mem_cons_self), ends character rfl]
      rw [found, encodeUtf8_append, encodeUtf8_append, wordsBy_blanks (blanks white),
        wordsBy_word (encodeUtf8_ne_nil nonempty) (blanks solid) begins, ih, List.map_cons]

theorem encodeUtf8_intercalate (words : List Text) :
    encodeUtf8 ([' '].intercalate words) = [32].intercalate (words.map encodeUtf8) := by
  induction words with
  | nil => rfl
  | cons word words ih =>
      cases words with
      | nil => simp
      | cons second words =>
          have space : encodeUtf8 [' '] = [32] := by decide
          rw [List.map_cons, List.map_cons, List.intercalate_cons_cons, List.intercalate_cons_cons,
            encodeUtf8_append, encodeUtf8_append, space, ih, List.map_cons]

theorem joinWords_eq (text : Text) : joinWords text = squeeze isWhitespace ' ' text := by
  rw [joinWords, joinWith_intercalate]
  rfl

/-! Plain text: white space is a space or a tab. -/

def PlainText (text : Text) : Prop :=
  ∀ character ∈ text, isWhitespace character = true → isSpace character = true

theorem isWhitespace_isSpace {character : Char} (space : isSpace character = true) :
    isWhitespace character = true := by
  rw [isSpace, Bool.or_eq_true, decide_eq_true_eq, decide_eq_true_eq] at space
  rcases space with rfl | rfl <;> decide

theorem wordsBy_plain {text : Text} (plain : PlainText text) :
    wordsBy isSpace text = splitWhitespace text := by
  refine wordsBy_congr fun character member => ?_
  cases white : isWhitespace character with
  | true => exact plain character member white
  | false =>
      refine Bool.eq_false_iff.mpr fun space => ?_
      rw [isWhitespace_isSpace space] at white
      cases white

theorem wordsBy_encode_plain {text : Text} (plain : PlainText text) :
    wordsBy isBlank (encodeUtf8 text) = (splitWhitespace text).map encodeUtf8 := by
  rw [wordsBy_encode, wordsBy_plain plain]

theorem relaxValue_encode {text : Text} (plain : PlainText text) :
    relaxValue (encodeUtf8 text) = encodeUtf8 (joinWords text) := by
  rw [relaxValue, squeeze, wordsBy_encode_plain plain, joinWords, joinWith_intercalate,
    encodeUtf8_intercalate]

theorem encode_blanks {blanks : Octets} (white : ∀ octet ∈ blanks, isBlank octet = true) :
    ∃ text, blanks = encodeUtf8 text ∧ ∀ character ∈ text, isSpace character = true := by
  induction blanks with
  | nil => exact ⟨[], rfl, fun _ member => nomatch member⟩
  | cons octet blanks ih =>
      rw [List.forall_mem_cons] at white
      obtain ⟨text, rfl, spaces⟩ := ih white.2
      have octets : isBlank octet = true → octet = 32 ∨ octet = 9 := by simp [isBlank]
      rcases octets white.1 with rfl | rfl
      · exact ⟨' ' :: text, (@encodeUtf8_cons_ascii ' ' (by decide) text).symm,
          List.forall_mem_cons.mpr ⟨by decide, spaces⟩⟩
      · exact ⟨'\t' :: text, (@encodeUtf8_cons_ascii '\t' (by decide) text).symm,
          List.forall_mem_cons.mpr ⟨by decide, spaces⟩⟩

theorem head_encodeUtf8 {text : Text} {first : Char} (head : text.head? = some first) :
    ∃ octet, (encodeUtf8 text).head? = some octet ∧ isBlank octet = isSpace first := by
  obtain ⟨rest, rfl⟩ := List.head?_eq_some_iff.mp head
  obtain ⟨octet, more, octets⟩ := List.exists_cons_of_ne_nil (utf8EncodeChar_ne_nil first)
  refine ⟨octet, by rw [encodeUtf8_cons, octets]; rfl, isBlank_encode ?_⟩
  rw [octets]
  exact List.mem_cons_self

theorem plain_of_words {value : Octets} {words : List Text}
    (same : wordsBy isBlank value = words.map encodeUtf8)
    (solid : ∀ word ∈ words, ∀ character ∈ word, isWhitespace character = false) :
    ∃ text, value = encodeUtf8 text ∧ PlainText text ∧ splitWhitespace text = words := by
  induction value using words_induction isBlank generalizing words with
  | none value white empty =>
      rw [empty, eq_comm, List.map_eq_nil_iff] at same
      obtain ⟨text, rfl, spaces⟩ := encode_blanks white
      refine ⟨text, rfl, fun character member _ => spaces character member, ?_⟩
      rw [same, splitWhitespace_blank fun character member => isWhitespace_isSpace (spaces character member)]
  | next blanks word rest white nonempty solidWord ends found ih =>
      rw [found, eq_comm, List.map_eq_cons_iff] at same
      obtain ⟨first, others, rfl, rfl, behind⟩ := same
      rw [List.forall_mem_cons] at solid
      obtain ⟨before, rfl, spaces⟩ := encode_blanks white
      obtain ⟨text, rfl, plain, words⟩ := ih behind.symm solid.2
      refine ⟨before ++ (first ++ text), by simp, ?_, ?_⟩
      · intro character member space
        rcases List.mem_append.mp member with inside | inside
        · exact spaces character inside
        · rcases List.mem_append.mp inside with inner | inner
          · rw [solid.1 character inner] at space
            cases space
          · exact plain character inner space
      · have full : first ≠ [] := by
          rintro rfl
          exact nonempty rfl
        rw [splitWhitespace_blanks fun character member => isWhitespace_isSpace (spaces character member),
          splitWhitespace_word full solid.1, words]
        intro character head
        obtain ⟨octet, lead, same⟩ := head_encodeUtf8 head
        exact isWhitespace_isSpace (same.symm.trans (ends octet lead))

theorem mem_intercalate {α : Type} {space item : α} {words : List (List α)}
    (member : item ∈ [space].intercalate words) : item = space ∨ ∃ word ∈ words, item ∈ word := by
  induction words with
  | nil =>
      rw [List.intercalate_nil] at member
      cases member
  | cons word words ih =>
      cases words with
      | nil =>
          rw [List.intercalate_singleton] at member
          exact Or.inr ⟨word, List.mem_cons_self, member⟩
      | cons second words =>
          rw [List.intercalate_cons_cons, List.mem_append, List.mem_append, List.mem_singleton] at member
          rcases member with (here | rfl) | later
          · exact Or.inr ⟨word, List.mem_cons_self, here⟩
          · exact Or.inl rfl
          · rcases ih later with same | ⟨other, among, inside⟩
            · exact Or.inl same
            · exact Or.inr ⟨other, List.mem_cons_of_mem _ among, inside⟩

theorem mem_joinWords {text : Text} {character : Char} (member : character ∈ joinWords text) :
    character = ' ' ∨ isWhitespace character = false ∧ character ∈ text := by
  rw [joinWords, joinWith_intercalate] at member
  rcases mem_intercalate member with space | ⟨word, among, inside⟩
  · exact Or.inl space
  · exact Or.inr ⟨(mem_wordsBy among).2 character inside, subset_of_mem_wordsBy among inside⟩

theorem joinWords_plain (text : Text) : PlainText (joinWords text) := by
  intro character member white
  rcases mem_joinWords member with rfl | ⟨solid, -⟩
  · rfl
  · rw [solid] at white
    cases white

theorem splitWhitespace_joinWords (text : Text) :
    splitWhitespace (joinWords text) = splitWhitespace text := by
  rw [joinWords_eq]
  exact wordsBy_squeeze rfl text

theorem fieldText_encode {text : Text} (plain : PlainText text) :
    fieldText (encodeUtf8 text) = text := by
  have absent : ∀ character, isWhitespace character = true → isSpace character = false →
      character ∉ text := by
    intro character white other member
    rw [plain character member white] at other
    cases other
  rw [fieldText, decodeLossy_encodeUtf8]
  exact unfoldFrom_plain (absent '\r' (by decide) (by decide)) (absent '\n' (by decide) (by decide))

def PlainValue (value : Octets) : Prop := ∃ text, decodeUtf8 value = some text ∧ PlainText text

theorem relaxValue_eq_iff (value : Octets) :
    encodeUtf8 (joinWords (fieldText value)) = relaxValue value ↔ PlainValue value := by
  constructor
  · intro same
    have words : wordsBy isBlank value =
        (splitWhitespace (joinWords (fieldText value))).map encodeUtf8 := by
      rw [← wordsBy_encode_plain (joinWords_plain _), same, relaxValue, wordsBy_squeeze rfl]
    obtain ⟨text, rfl, plain, -⟩ := plain_of_words words fun word member => (mem_wordsBy member).2
    exact ⟨text, decodeUtf8_encodeUtf8 text, plain⟩
  · rintro ⟨text, decoded, plain⟩
    rw [← encodeUtf8_of_decodeUtf8 decoded, fieldText_encode plain, relaxValue_encode plain]

end Rusmes
