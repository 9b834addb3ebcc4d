import Rusmes.Imap.Sequence
import Rusmes.Library.Numbering
import Rusmes.Library.Splitting

/-!
What a sequence set of RFC 3501 stands for, beside what the two parsers make of its text.
-/

namespace Rusmes

open WireText

inductive SequenceNumber
  | number (value : Nat) (positive : 0 < value) (bounded : value < UInt32.size)
  | last

inductive SequenceElement
  | single (number : SequenceNumber)
  | range (first second : SequenceNumber)

def SequenceNumber.text : SequenceNumber → Text
  | .number value _ _ => decimal value
  | .last => ['*']

def SequenceElement.text : SequenceElement → Text
  | .single number => number.text
  | .range first second => first.text ++ ':' :: second.text

def sequenceSetText (elements : List SequenceElement) : Text :=
  joinWith [','] (elements.map SequenceElement.text)

def SequenceNumber.value (largest : Nat) : SequenceNumber → Nat
  | .number value _ _ => value
  | .last => largest

def SequenceElement.Contains (largest : Nat) : SequenceElement → Nat → Prop
  | .single number, member => member = number.value largest
  | .range first second, member =>
      min (first.value largest) (second.value largest) ≤ member ∧
        member ≤ max (first.value largest) (second.value largest)

instance (largest : Nat) : ∀ (element : SequenceElement) (member : Nat),
    Decidable (element.Contains largest member)
  | .single _, _ => inferInstanceAs (Decidable (_ = _))
  | .range _ _, _ => inferInstanceAs (Decidable (_ ∧ _))

def InSequenceSet (elements : List SequenceElement) (largest member : Nat) : Prop :=
  ∃ element ∈ elements, element.Contains largest member

instance (elements : List SequenceElement) (largest member : Nat) :
    Decidable (InSequenceSet elements largest member) :=
  inferInstanceAs (Decidable (∃ element ∈ elements, element.Contains largest member))

def WellFormedSet (text : Text) : Prop :=
  ∃ elements, elements ≠ [] ∧ text = sequenceSetText elements

theorem digit_solid {digit : Char} (isDigit : digit.isDigit = true) :
    isWhitespace digit = false := by
  have code : 48 ≤ digit.toNat ∧ digit.toNat ≤ 57 := Char.isDigit_iff_toNat.mp isDigit
  simp only [isWhitespace, Bool.or_eq_false_iff, Bool.and_eq_false_iff, decide_eq_false_iff_not]
  omega

/-! Numbers of 32 bits. -/

theorem le_foldl_digits (digits : Text) (value : Nat) :
    value ≤ digits.foldl (fun value digit => 10 * value + (digit.toNat - '0'.toNat)) value := by
  induction digits generalizing value with
  | nil => exact Nat.le_refl value
  | cons digit digits ih =>
      have longer := ih (10 * value + (digit.toNat - '0'.toNat))
      rw [List.foldl_cons]
      omega

theorem foldlM_appendDigit {digits : Text} (numeric : ∀ digit ∈ digits, digit.isDigit = true)
    {value : Nat} (fits : digits.foldl (fun value digit =>
      10 * value + (digit.toNat - '0'.toNat)) value < UInt32.size) :
    digits.foldlM appendDigit value = .ok (digits.foldl (fun value digit =>
      10 * value + (digit.toNat - '0'.toNat)) value) := by
  induction digits generalizing value with
  | nil => rfl
  | cons digit digits ih =>
      rw [List.foldl_cons] at fits
      have below := le_foldl_digits digits (10 * value + (digit.toNat - '0'.toNat))
      have appended : appendDigit value digit =
          .ok (10 * value + (digit.toNat - '0'.toNat)) := by
        simp only [appendDigit, numeric digit List.mem_cons_self, not_true, if_false]
        exact if_pos (by omega)
      rw [List.foldlM_cons, appended, List.foldl_cons]
      exact ih (fun other member => numeric other (List.mem_cons_of_mem _ member)) fits

theorem parseU32_decimal {value : Nat} (fits : value < UInt32.size) :
    parseU32 (decimal value) = .ok (UInt32.ofNat value) := by
  have unsigned : (decimal value).head? ≠ some '+' := by
    intro signed
    exact not_mem_decimal (by decide) value (List.mem_of_head? signed)
  have notSign : decimal value ≠ ['+'] := by
    intro same
    exact unsigned (by rw [same]; rfl)
  have number : (decimal value).foldl (fun value digit =>
      10 * value + (digit.toNat - '0'.toNat)) 0 = value := digitsValue_decimal value
  have more : decimal value ≠ [] := Nat.toDigits_ne_nil
  rw [parseU32, if_neg more, if_neg notSign, if_neg unsigned]
  dsimp only
  rw [foldlM_appendDigit (fun digit member => isDigit_decimal member) (by omega), number]
  rfl

namespace SequenceNumber

variable (number : SequenceNumber)

theorem mem_text {number : SequenceNumber} {character : Char} (member : character ∈ number.text) :
    character.isDigit = true ∨ character = '*' := by
  cases number with
  | number value _ _ => exact Or.inl (isDigit_decimal member)
  | last => exact Or.inr (List.mem_singleton.mp member)

theorem text_free {mark : Char} (plain : mark.isDigit = false) (other : mark ≠ '*') :
    mark ∉ number.text := by
  intro member
  rcases mem_text member with digit | star
  · rw [plain] at digit
    cases digit
  · exact other star

theorem text_solid : ∀ character ∈ number.text, isWhitespace character = false := by
  intro character member
  rcases mem_text member with digit | rfl
  · exact digit_solid digit
  · rfl

theorem decimal_ne_star (value : Nat) : decimal value ≠ ['*'] := by
  intro same
  have digit := @isDigit_decimal value '*' (by simp [same])
  revert digit
  decide

theorem text_injective : Function.Injective text := by
  intro first second same
  cases first with
  | number value _ _ =>
      cases second with
      | number other _ _ =>
          have values : value = other := decimal_injective same
          subst values
          rfl
      | last => exact absurd same (decimal_ne_star value)
  | last =>
      cases second with
      | number other _ _ => exact absurd same.symm (decimal_ne_star other)
      | last => rfl

theorem parseUid_text (largest : UInt32) :
    ∃ uid, parseUid largest number.text = .ok uid ∧ uid.toNat = number.value largest.toNat := by
  cases number with
  | number value _ bounded =>
      refine ⟨UInt32.ofNat value, ?_, UInt32.toNat_ofNat_of_lt bounded⟩
      rw [parseUid, text, if_neg (decimal_ne_star value)]
      exact parseU32_decimal bounded
  | last => exact ⟨largest, if_pos rfl, rfl⟩

end SequenceNumber

namespace SequenceElement

theorem text_free {mark : Char} (plain : mark.isDigit = false) (star : mark ≠ '*')
    (colon : mark ≠ ':') (element : SequenceElement) : mark ∉ element.text := by
  cases element with
  | single number => exact number.text_free plain star
  | range first second =>
      intro member
      rcases List.mem_append.mp member with front | behind
      · exact first.text_free plain star front
      · rcases List.mem_cons.mp behind with same | behind
        · exact colon same
        · exact second.text_free plain star behind

theorem text_solid (element : SequenceElement) :
    ∀ character ∈ element.text, isWhitespace character = false := by
  cases element with
  | single number => exact number.text_solid
  | range first second =>
      intro character member
      rcases List.mem_append.mp member with front | behind
      · exact first.text_solid character front
      · rcases List.mem_cons.mp behind with rfl | behind
        · rfl
        · exact second.text_solid character behind

theorem splitOn_range (first second : SequenceNumber) :
    splitOn ':' (range first second).text = [first.text, second.text] := by
  have whole : ':' ∉ first.text := first.text_free rfl (by decide)
  have last : ':' ∉ second.text := second.text_free rfl (by decide)
  rw [text, splitOn_append whole, splitOn_unbroken last]

theorem text_injective : Function.Injective text := by
  have colon : ∀ number first second, (single number).text ≠ (range first second).text := by
    intro number first second same
    have free : ':' ∉ (range first second).text := by
      rw [← same]
      exact number.text_free rfl (by decide)
    exact free (by simp [text])
  intro first second same
  cases first with
  | single number =>
      cases second with
      | single other => rw [SequenceNumber.text_injective same]
      | range low high => exact absurd same (colon number low high)
  | range low high =>
      cases second with
      | single other => exact absurd same.symm (colon other low high)
      | range left right =>
          have parts := congrArg (splitOn ':') same
          rw [splitOn_range, splitOn_range, List.cons.injEq, List.cons.injEq] at parts
          rw [SequenceNumber.text_injective parts.1, SequenceNumber.text_injective parts.2.1]

end SequenceElement

theorem splitOn_sequenceSetText {elements : List SequenceElement} (nonempty : elements ≠ []) :
    splitOn ',' (sequenceSetText elements) = elements.map SequenceElement.text := by
  apply splitOn_joinWith
  · rwa [ne_eq, List.map_eq_nil_iff]
  · intro part member
    obtain ⟨element, _, rfl⟩ := List.mem_map.mp member
    exact element.text_free rfl (by decide) (by decide)

theorem sequenceSetText_injective {first second : List SequenceElement} (nonempty : first ≠ [])
    (others : second ≠ []) (same : sequenceSetText first = sequenceSetText second) :
    first = second := by
  have parts := congrArg (splitOn ',') same
  rw [splitOn_sequenceSetText nonempty, splitOn_sequenceSetText others] at parts
  exact List.map_injective_iff.mpr SequenceElement.text_injective parts

/-! What the parsers make of an element. -/

namespace SequenceElement

def Reversed (largest : Nat) : SequenceElement → Prop
  | .single _ => False
  | .range first second => second.value largest < first.value largest

/-- A `*` on the left of a range is no number for the parser of sequence numbers, which
starts at one then. -/
def NumberRead (count : Nat) : SequenceElement → Nat → Prop
  | .single number, member => member = number.value count ∧ member ≤ count
  | .range first second, member =>
      first.value 1 ≤ member ∧ member ≤ second.value count ∧ member ≤ count

end SequenceElement

theorem mem_insertNumber {numbers : List Nat} {number member : Nat} :
    member ∈ insertNumber numbers number ↔ member ∈ numbers ∨ member = number := by
  rw [insertNumber]
  split
  · rename_i held
    constructor
    · exact Or.inl
    · rintro (inside | rfl)
      · exact inside
      · exact held
  · simp

theorem mem_foldl_insertNumber (added : List Nat) {numbers : List Nat} {member : Nat} :
    member ∈ added.foldl insertNumber numbers ↔ member ∈ numbers ∨ member ∈ added := by
  induction added generalizing numbers with
  | nil => simp
  | cons number added ih => rw [List.foldl_cons, ih, mem_insertNumber, List.mem_cons, or_assoc]

theorem SequenceNumber.parseUsize_text (number : SequenceNumber) (fallback : Nat) :
    (parseUsize number.text).getD fallback = number.value fallback := by
  cases number with
  | number value _ bounded =>
      have fits : value < usizeBound := Nat.lt_trans bounded (by decide)
      rw [text, parseUsize_decimal fits]
      rfl
  | last => rfl

theorem mem_sequencePart (count : Nat) (positive : 0 < count) (numbers : List Nat)
    (element : SequenceElement) (member : Nat) :
    member ∈ sequencePart count numbers element.text ↔
      member ∈ numbers ∨ element.NumberRead count member := by
  rw [sequencePart, trim_solid element.text_solid]
  cases element with
  | single number =>
      have free : ':' ∉ number.text := number.text_free rfl (by decide)
      rw [SequenceElement.text, if_neg free]
      cases number with
      | number value positive bounded =>
          have fits : value < usizeBound := Nat.lt_trans bounded (by decide)
          rw [SequenceNumber.text, if_neg (SequenceNumber.decimal_ne_star value),
            parseUsize_decimal fits]
          dsimp only [SequenceElement.NumberRead, SequenceNumber.value]
          split
          · rw [mem_insertNumber]
            refine or_congr_right ⟨?_, And.left⟩
            intro same
            omega
          · constructor
            · exact Or.inl
            · rintro (held | read)
              · exact held
              · omega
      | last =>
          rw [SequenceNumber.text, if_pos rfl, if_pos positive,
            mem_insertNumber]
          refine or_congr_right ⟨?_, And.left⟩
          intro same
          exact ⟨same, Nat.le_of_eq same⟩
  | range first second =>
      have colon : ':' ∈ (SequenceElement.range first second).text := by
        simp [SequenceElement.text]
      have stop : (if second.text = ['*'] then count else (parseUsize second.text).getD count) =
          second.value count := by
        rw [SequenceNumber.parseUsize_text]
        cases second with
        | number value _ _ => exact if_neg (SequenceNumber.decimal_ne_star value)
        | last => exact if_pos rfl
      rw [if_pos colon, SequenceElement.splitOn_range]
      dsimp only
      rw [mem_foldl_insertNumber, List.mem_range'_1, SequenceNumber.parseUsize_text, stop,
        SequenceElement.NumberRead]
      refine or_congr_right ⟨?_, ?_⟩
      · intro read
        omega
      · intro read
        omega

theorem mem_parseSequenceNumbers {elements : List SequenceElement} (nonempty : elements ≠ [])
    {count : Nat} (positive : 0 < count) (member : Nat) :
    member ∈ parseSequenceNumbers (sequenceSetText elements) count ↔
      ∃ element ∈ elements, element.NumberRead count member := by
  have run : ∀ (parts : List SequenceElement) (numbers : List Nat),
      member ∈ (parts.map SequenceElement.text).foldl (sequencePart count) numbers ↔
        member ∈ numbers ∨ ∃ element ∈ parts, element.NumberRead count member := by
    intro parts
    induction parts with
    | nil => simp
    | cons part parts ih =>
        intro numbers
        rw [List.map_cons, List.foldl_cons, ih, mem_sequencePart count positive, or_assoc]
        simp
  rw [parseSequenceNumbers, (List.mergeSort_perm _ _).mem_iff, splitOn_sequenceSetText nonempty,
    run]
  simp

theorem uidPart_text (largest : UInt32) (element : SequenceElement) :
    ∃ range, uidPart largest element.text = .ok range ∧ ∀ uid : UInt32,
      (range.1 ≤ uid ∧ uid ≤ range.2) ↔
        ¬element.Reversed largest.toNat ∧ element.Contains largest.toNat uid.toNat := by
  rw [uidPart, trim_solid element.text_solid]
  cases element with
  | single number =>
      have free : ':' ∉ number.text := number.text_free rfl (by decide)
      obtain ⟨found, parsed, value⟩ := number.parseUid_text largest
      refine ⟨(found, found), ?_, ?_⟩
      · rw [SequenceElement.text, if_neg free, parsed]
        rfl
      · intro uid
        simp only [SequenceElement.Reversed, SequenceElement.Contains, UInt32.le_iff_toNat_le,
          value, not_false_eq_true, true_and]
        omega
  | range first second =>
      have colon : ':' ∈ (SequenceElement.range first second).text := by
        simp [SequenceElement.text]
      obtain ⟨start, startRead, startValue⟩ := first.parseUid_text largest
      obtain ⟨stop, stopRead, stopValue⟩ := second.parseUid_text largest
      refine ⟨(start, stop), ?_, ?_⟩
      · rw [if_pos colon, SequenceElement.splitOn_range]
        dsimp only
        rw [startRead, stopRead]
        rfl
      · intro uid
        simp only [SequenceElement.Reversed, SequenceElement.Contains, UInt32.le_iff_toNat_le,
          startValue, stopValue]
        omega

theorem mapM_uidPart (largest : UInt32) (elements : List SequenceElement) :
    ∃ uids : UidSet, (elements.map SequenceElement.text).mapM (uidPart largest) = .ok uids ∧
      ∀ uid, uids.contains uid = true ↔ ∃ element ∈ elements,
        ¬element.Reversed largest.toNat ∧ element.Contains largest.toNat uid.toNat := by
  induction elements with
  | nil => exact ⟨[], rfl, by simp [UidSet.contains]⟩
  | cons element elements ih =>
      obtain ⟨uids, parsed, held⟩ := ih
      obtain ⟨range, part, inside⟩ := uidPart_text largest element
      refine ⟨range :: uids, ?_, ?_⟩
      · rw [List.map_cons, List.mapM_cons, part, parsed]
        rfl
      · intro uid
        simp only [UidSet.contains, List.any_cons, Bool.or_eq_true, Bool.and_eq_true,
          decide_eq_true_eq, inside, List.mem_cons, exists_eq_or_imp]
        exact or_congr_right (held uid)

def NumberedTo (count : Nat) (messages : List MessageMetadata) : Prop :=
  ∀ number, (∃ metadata ∈ messages, metadata.uid.toNat = number) ↔ 1 ≤ number ∧ number ≤ count

theorem maxUid_bounds (messages : List MessageMetadata) (start : UInt32) :
    let largest := messages.foldl (fun largest metadata => max largest metadata.uid) start
    start ≤ largest ∧ (∀ metadata ∈ messages, metadata.uid ≤ largest) ∧
      (largest = start ∨ ∃ metadata ∈ messages, metadata.uid = largest) := by
  induction messages generalizing start with
  | nil => simp
  | cons metadata messages ih =>
      obtain ⟨above, members, reached⟩ := ih (max start metadata.uid)
      have larger : max start metadata.uid =
          if start ≤ metadata.uid then metadata.uid else start := rfl
      have both : start ≤ max start metadata.uid ∧ metadata.uid ≤ max start metadata.uid ∧
          (max start metadata.uid = start ∨ max start metadata.uid = metadata.uid) := by
        rw [larger]
        split
        · rename_i below
          exact ⟨below, UInt32.le_refl _, Or.inr rfl⟩
        · rename_i beyond
          exact ⟨UInt32.le_refl _, UInt32.le_of_lt (UInt32.not_le.mp beyond), Or.inl rfl⟩
      dsimp only
      rw [List.foldl_cons, List.forall_mem_cons, List.exists_mem_cons_iff]
      refine ⟨UInt32.le_trans both.1 above, ⟨UInt32.le_trans both.2.1 above, members⟩, ?_⟩
      rcases reached with first | later
      · rcases both.2.2 with kept | taken
        · exact Or.inl (first.trans kept)
        · exact Or.inr (Or.inl (taken.symm.trans first.symm))
      · exact Or.inr (Or.inr later)

theorem NumberedTo.maxUid {count : Nat} {messages : List MessageMetadata}
    (numbered : NumberedTo count messages) (positive : 0 < count) :
    (maxUid messages).toNat = count := by
  obtain ⟨_, above, reached⟩ := maxUid_bounds messages 0
  obtain ⟨last, member, uid⟩ := (numbered count).mpr ⟨positive, Nat.le_refl count⟩
  have least : count ≤ (Rusmes.maxUid messages).toNat := by
    rw [← uid]
    exact UInt32.le_iff_toNat_le.mp (above last member)
  rcases reached with zero | ⟨metadata, inside, same⟩
  · have none : (Rusmes.maxUid messages).toNat = 0 := congrArg UInt32.toNat zero
    omega
  · have bounds := (numbered (Rusmes.maxUid messages).toNat).mp
      ⟨metadata, inside, congrArg UInt32.toNat same⟩
    omega

/-! When the parsers read a set as it is meant. -/

def readSequenceNumbers (sequence : Text) (count : Nat) : Except Text (List Nat) :=
  .ok (parseSequenceNumbers sequence count)

def sequenceMembers (elements : List SequenceElement) (count : Nat) : List Nat :=
  (List.range' 1 count).filter fun number => InSequenceSet elements count number

/-- Both parsers find what a well-formed set stands for and reject any other text. -/
def MeansItsSet (text : Text) (count : Nat) (messages : List MessageMetadata) : Prop :=
  (∀ elements, elements ≠ [] → text = sequenceSetText elements →
    readSequenceNumbers text count = .ok (sequenceMembers elements count) ∧
      ∃ uids, parseUidSequenceSet text messages = .ok uids ∧ ∀ metadata ∈ messages,
        uids.contains metadata.uid = true ↔ InSequenceSet elements count metadata.uid.toNat) ∧
  (¬WellFormedSet text →
    (∃ error, readSequenceNumbers text count = .error error) ∧
      ∃ error, parseUidSequenceSet text messages = .error error)

/-- What is in a reversed range is in another element as well, one that is not reversed. -/
def ReversedCovered (elements : List SequenceElement) (count : Nat) : Prop :=
  ∀ element ∈ elements, element.Reversed count → ∀ number, 1 ≤ number → number ≤ count →
    element.Contains count number →
      ∃ other ∈ elements, ¬other.Reversed count ∧ other.Contains count number

/-- Where a range starts with `*`, the numbers up to its other end are in the set. -/
def StarsCovered (elements : List SequenceElement) (count : Nat) : Prop :=
  ∀ second, .range .last second ∈ elements → ∀ number, 1 ≤ number → number ≤ count →
    number ≤ second.value count → InSequenceSet elements count number

/-- What is in the set is in an element that is neither reversed nor a range from `*`, or
it is not above the other end of a range from `*`. -/
def NumbersCovered (elements : List SequenceElement) (count : Nat) : Prop :=
  ∀ number, 1 ≤ number → number ≤ count → InSequenceSet elements count number →
    (∃ element ∈ elements, ¬element.Reversed count ∧ (∀ second, element ≠ .range .last second) ∧
      element.Contains count number) ∨
    ∃ second, .range .last second ∈ elements ∧ number ≤ second.value count

section Reading

variable {elements : List SequenceElement} {count number : Nat}

theorem SequenceNumber.value_positive (positive : 0 < count) (number : SequenceNumber) :
    0 < number.value count := by
  cases number with
  | number value nonzero _ => exact nonzero
  | last => exact positive

theorem SequenceElement.numberRead_bounds {element : SequenceElement} (positive : 0 < count)
    (read : element.NumberRead count number) : 1 ≤ number ∧ number ≤ count := by
  cases element with
  | single first =>
      have nonzero := first.value_positive positive
      rw [NumberRead] at read
      omega
  | range first second =>
      have nonzero := first.value_positive Nat.one_pos
      rw [NumberRead] at read
      omega

theorem SequenceElement.numberRead_iff {element : SequenceElement} (least : 1 ≤ number)
    (most : number ≤ count) :
    element.NumberRead count number ↔
      (¬element.Reversed count ∧ (∀ second, element ≠ .range .last second) ∧
        element.Contains count number) ∨
      ∃ second, element = .range .last second ∧ number ≤ second.value count := by
  cases element with
  | single first => simp [NumberRead, Reversed, Contains, most]
  | range first second =>
      cases first with
      | number value _ _ =>
          simp only [NumberRead, Reversed, Contains, SequenceNumber.value, range.injEq, reduceCtorEq,
            false_and, exists_false, or_false, ne_eq, not_false_eq_true, implies_true, true_and]
          omega
      | last =>
          simp only [NumberRead, SequenceNumber.value, ne_eq, range.injEq, true_and]
          constructor
          · intro read
            exact Or.inr ⟨second, rfl, read.2.1⟩
          · rintro (⟨_, away, _⟩ | ⟨other, same, below⟩)
            · exact absurd rfl (away second)
            · subst same
              exact ⟨least, below, most⟩

theorem mem_sequenceMembers :
    number ∈ sequenceMembers elements count ↔
      (1 ≤ number ∧ number ≤ count) ∧ InSequenceSet elements count number := by
  rw [sequenceMembers, List.mem_filter, List.mem_range'_1, decide_eq_true_eq]
  exact and_congr_left' (by omega)

theorem exists_numberRead_iff (least : 1 ≤ number) (most : number ≤ count) :
    (∃ element ∈ elements, element.NumberRead count number) ↔
      (∃ element ∈ elements, ¬element.Reversed count ∧
        (∀ second, element ≠ .range .last second) ∧ element.Contains count number) ∨
      ∃ second, .range .last second ∈ elements ∧ number ≤ second.value count := by
  constructor
  · rintro ⟨element, member, read⟩
    rcases (SequenceElement.numberRead_iff least most).mp read with plain | ⟨second, rfl, below⟩
    · exact Or.inl ⟨element, member, plain⟩
    · exact Or.inr ⟨second, member, below⟩
  · rintro (⟨element, member, plain⟩ | ⟨second, member, below⟩)
    · exact ⟨element, member, (SequenceElement.numberRead_iff least most).mpr (Or.inl plain)⟩
    · exact ⟨_, member,
        (SequenceElement.numberRead_iff least most).mpr (Or.inr ⟨second, rfl, below⟩)⟩

theorem sequenceMembers_sorted (elements : List SequenceElement) (count : Nat) :
    (sequenceMembers elements count).Pairwise (· < ·) :=
  List.Pairwise.filter _ List.pairwise_lt_range'

theorem parseSequenceNumbers_members_iff (nonempty : elements ≠ []) (positive : 0 < count) :
    parseSequenceNumbers (sequenceSetText elements) count = sequenceMembers elements count ↔
      NumbersCovered elements count ∧ StarsCovered elements count := by
  constructor
  · intro equal
    have same : ∀ number, 1 ≤ number → number ≤ count →
        ((∃ element ∈ elements, element.NumberRead count number) ↔
          InSequenceSet elements count number) := by
      intro number least most
      rw [← mem_parseSequenceNumbers nonempty positive, equal, mem_sequenceMembers]
      exact and_iff_right ⟨least, most⟩
    constructor
    · intro number least most inside
      exact (exists_numberRead_iff least most).mp ((same number least most).mpr inside)
    · intro second member number least most below
      apply (same number least most).mp
      exact (exists_numberRead_iff least most).mpr (Or.inr ⟨second, member, below⟩)
  · rintro ⟨numbers, stars⟩
    apply eq_of_ascending id (parseSequenceNumbers_sorted _ _) (sequenceMembers_sorted _ _)
    intro number
    rw [mem_parseSequenceNumbers nonempty positive, mem_sequenceMembers]
    constructor
    · intro read
      have bounds : 1 ≤ number ∧ number ≤ count := by
        obtain ⟨element, _, found⟩ := read
        exact SequenceElement.numberRead_bounds positive found
      refine ⟨bounds, ?_⟩
      rcases (exists_numberRead_iff bounds.1 bounds.2).mp read with
        ⟨element, member, _, _, inside⟩ | ⟨second, member, below⟩
      · exact ⟨element, member, inside⟩
      · exact stars second member number bounds.1 bounds.2 below
    · rintro ⟨bounds, inside⟩
      exact (exists_numberRead_iff bounds.1 bounds.2).mpr
        (numbers number bounds.1 bounds.2 inside)

theorem ReversedCovered.numbers (covered : ReversedCovered elements count) :
    NumbersCovered elements count := by
  have straight : ∀ number, 1 ≤ number → number ≤ count → InSequenceSet elements count number →
      ∃ element ∈ elements, ¬element.Reversed count ∧ element.Contains count number := by
    rintro number least most ⟨element, member, inside⟩
    by_cases reversed : element.Reversed count
    · exact covered element member reversed number least most inside
    · exact ⟨element, member, reversed, inside⟩
  intro number least most inside
  obtain ⟨element, member, forward, holds⟩ := straight number least most inside
  by_cases star : ∃ second, element = .range .last second
  · obtain ⟨second, rfl⟩ := star
    refine Or.inr ⟨second, member, ?_⟩
    have largest : SequenceNumber.last.value count = count := rfl
    simp only [SequenceElement.Reversed, SequenceElement.Contains, largest, Nat.not_lt]
      at forward holds
    omega
  · exact Or.inl ⟨element, member, forward, not_exists.mp star, holds⟩

theorem parseUidSequenceSet_members_iff (nonempty : elements ≠ []) (positive : 0 < count)
    {messages : List MessageMetadata} (numbered : NumberedTo count messages) :
    (∃ uids, parseUidSequenceSet (sequenceSetText elements) messages = .ok uids ∧
        ∀ metadata ∈ messages, uids.contains metadata.uid = true ↔
          InSequenceSet elements count metadata.uid.toNat) ↔
      ReversedCovered elements count := by
  obtain ⟨uids, parsed, held⟩ := mapM_uidPart (maxUid messages) elements
  rw [numbered.maxUid positive] at held
  have read : parseUidSequenceSet (sequenceSetText elements) messages = .ok uids := by
    rw [parseUidSequenceSet, splitOn_sequenceSetText nonempty]
    exact parsed
  constructor
  · rintro ⟨found, same, right⟩ element member reversed number least most inside
    obtain rfl := Except.ok.inj (read.symm.trans same)
    obtain ⟨metadata, listed, rfl⟩ := (numbered number).mpr ⟨least, most⟩
    exact (held metadata.uid).mp ((right metadata listed).mpr ⟨element, member, inside⟩)
  · intro covered
    refine ⟨uids, read, ?_⟩
    intro metadata listed
    have bounds := (numbered metadata.uid.toNat).mp ⟨metadata, listed, rfl⟩
    rw [held]
    constructor
    · rintro ⟨element, member, _, inside⟩
      exact ⟨element, member, inside⟩
    · rintro ⟨element, member, inside⟩
      by_cases reversed : element.Reversed count
      · exact covered element member reversed _ bounds.1 bounds.2 inside
      · exact ⟨element, member, reversed, inside⟩

end Reading

/-- Sequence numbers are read as they are meant exactly if the two kinds of ranges that go
wrong are covered, and both parsers together never reject what is no set. -/
theorem sequenceSets_meant_iff {count : Nat} (positive : 0 < count) :
    (∀ elements, elements ≠ [] →
      (parseSequenceNumbers (sequenceSetText elements) count = sequenceMembers elements count ↔
        NumbersCovered elements count ∧ StarsCovered elements count)) ∧
    ∀ text messages, NumberedTo count messages →
      (MeansItsSet text count messages ↔
        ∃ elements, elements ≠ [] ∧ text = sequenceSetText elements ∧
          ReversedCovered elements count ∧ StarsCovered elements count) := by
  refine ⟨fun elements nonempty => parseSequenceNumbers_members_iff nonempty positive, ?_⟩
  intro text messages numbered
  constructor
  · rintro ⟨means, rejects⟩
    by_cases formed : WellFormedSet text
    · obtain ⟨elements, nonempty, rfl⟩ := formed
      obtain ⟨numbers, uids⟩ := means elements nonempty rfl
      have members := (parseSequenceNumbers_members_iff nonempty positive).mp
        (Except.ok.inj numbers)
      exact ⟨elements, nonempty, rfl,
        (parseUidSequenceSet_members_iff nonempty positive numbered).mp uids, members.2⟩
    · obtain ⟨error, impossible⟩ := (rejects formed).1
      cases impossible
  · rintro ⟨elements, nonempty, rfl, reversed, stars⟩
    constructor
    · intro others othersNonempty same
      obtain rfl := sequenceSetText_injective nonempty othersNonempty same
      refine ⟨congrArg Except.ok ?_, ?_⟩
      · exact (parseSequenceNumbers_members_iff nonempty positive).mpr ⟨reversed.numbers, stars⟩
      · exact (parseUidSequenceSet_members_iff nonempty positive numbered).mpr reversed
    · intro malformed
      exact absurd ⟨elements, nonempty, rfl⟩ malformed

def threeMessages : List MessageMetadata :=
  [1, 2, 3].map fun uid => ⟨⟨0⟩, ⟨0⟩, uid, .new, 0⟩

theorem threeMessages_numbered : NumberedTo 3 threeMessages := by
  intro number
  simp [threeMessages]
  omega

def oneToThree : List SequenceElement :=
  [.range (.number 1 (by decide) (by decide)) (.number 3 (by decide) (by decide))]

theorem oneToThree_read :
    parseSequenceNumbers (sequenceSetText oneToThree) 3 = sequenceMembers oneToThree 3 ∧
      MeansItsSet (sequenceSetText oneToThree) 3 threeMessages := by
  have reversed : ReversedCovered oneToThree 3 := by
    intro element member backwards
    rw [oneToThree, List.mem_singleton] at member
    subst member
    simp [SequenceElement.Reversed, SequenceNumber.value] at backwards
  have stars : StarsCovered oneToThree 3 := by
    intro second member
    simp [oneToThree] at member
  have meant := sequenceSets_meant_iff (by decide : 0 < 3)
  exact ⟨(meant.1 oneToThree (List.cons_ne_nil _ _)).mpr ⟨reversed.numbers, stars⟩,
    (meant.2 _ _ threeMessages_numbered).mpr
      ⟨oneToThree, List.cons_ne_nil _ _, rfl, reversed, stars⟩⟩

def threeToOne : List SequenceElement :=
  [.range (.number 3 (by decide) (by decide)) (.number 1 (by decide) (by decide))]

theorem threeToOne_unread :
    NumberedTo 3 threeMessages ∧ WellFormedSet "3:1".toList ∧
      ¬MeansItsSet "3:1".toList 3 threeMessages := by
  refine ⟨threeMessages_numbered, ⟨threeToOne, List.cons_ne_nil _ _, by decide⟩, ?_⟩
  intro means
  have read := (means.1 threeToOne (List.cons_ne_nil _ _) (by decide)).1
  revert read
  decide +kernel

end Rusmes
