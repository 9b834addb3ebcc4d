import Rusmes.Library.Sextets
import Rusmes.Library.WireText

/-!
The base64 coder of `mime.rs`: blocks of three octets as four characters, the
tails of one and of two octets, and the reader that skips white space and looks
at four characters at a time.
-/

namespace Rusmes

open WireText Sextets

def base64Alphabet : Octets :=
  ['A', 'B', 'C', 'D', 'E', 'F', 'G', 'H', 'I', 'J', 'K', 'L', 'M',
    'N', 'O', 'P', 'Q', 'R', 'S', 'T', 'U', 'V', 'W', 'X', 'Y', 'Z',
    'a', 'b', 'c', 'd', 'e', 'f', 'g', 'h', 'i', 'j', 'k', 'l', 'm',
    'n', 'o', 'p', 'q', 'r', 's', 't', 'u', 'v', 'w', 'x', 'y', 'z',
    '0', '1', '2', '3', '4', '5', '6', '7', '8', '9', '+', '/'].map Char.toUInt8

def alphabetSymbol (value : UInt8) : UInt8 :=
  base64Alphabet.getD value.toNat 0

def alphabetCharacter (value : UInt8) : Char :=
  Char.ofUInt8 (alphabetSymbol value)

def encodeBase64 : Octets → Text
  | b0 :: b1 :: b2 :: rest =>
      alphabetCharacter (b0 >>> 2) ::
        alphabetCharacter (((b0 &&& 0x03) <<< 4) ||| (b1 >>> 4)) ::
        alphabetCharacter (((b1 &&& 0x0f) <<< 2) ||| (b2 >>> 6)) ::
        alphabetCharacter (b2 &&& 0x3f) :: encodeBase64 rest
  | [b0, b1] =>
      [alphabetCharacter (b0 >>> 2), alphabetCharacter (((b0 &&& 0x03) <<< 4) ||| (b1 >>> 4)),
        alphabetCharacter ((b1 &&& 0x0f) <<< 2), '=']
  | [b0] =>
      [alphabetCharacter (b0 >>> 2), alphabetCharacter ((b0 &&& 0x03) <<< 4), '=', '=']
  | [] => []

def decodeTable : UInt8 → UInt8 :=
  writeEntries (fun _ => 255) (base64Alphabet.zipIdx.map fun entry => (entry.1, UInt8.ofNat entry.2))

/-- The loop of `decode_base64`; what is left when fewer than four characters remain
is not looked at. -/
def decodeBase64Blocks : Octets → Except Text Octets
  | b0 :: b1 :: b2 :: b3 :: rest =>
      let v0 := decodeTable b0
      let v1 := decodeTable b1
      let v2 := if b2 = 61 then 0 else decodeTable b2
      let v3 := if b3 = 61 then 0 else decodeTable b3
      if v0 = 255 ∨ v1 = 255 then .error "Invalid base64 character".toList
      else
        let second := if b2 ≠ 61 then [(v1 <<< 4) ||| (v2 >>> 2)] else []
        let third := if b3 ≠ 61 then [(v2 <<< 6) ||| v3] else []
        (decodeBase64Blocks rest).map fun octets =>
          ((v0 <<< 2) ||| (v1 >>> 4)) :: second ++ third ++ octets
  | _ => .ok []

def isTransferBlank (octet : UInt8) : Bool :=
  octet = 13 || octet = 10 || octet = 32 || octet = 9

def decodeBase64 (data : Octets) : Except Text Octets :=
  decodeBase64Blocks (data.filter fun octet => !isTransferBlank octet)

theorem base64Alphabet_nodup : base64Alphabet.Nodup := by
  decide +kernel

theorem base64Alphabet_plain : ∀ symbol ∈ base64Alphabet,
    symbol.toNat < 128 ∧ symbol ≠ 61 ∧ isTransferBlank symbol = false := by
  decide +kernel

theorem alphabetSymbol_getElem? {value : UInt8} (sextet : value.toNat < 64) :
    base64Alphabet[value.toNat]? = some (alphabetSymbol value) := by
  have bound : value.toNat < base64Alphabet.length := sextet
  rw [alphabetSymbol, List.getD_eq_getElem?_getD, List.getElem?_eq_getElem bound]
  rfl

theorem alphabetSymbol_mem {value : UInt8} (sextet : value.toNat < 64) :
    alphabetSymbol value ∈ base64Alphabet :=
  List.mem_of_getElem? (alphabetSymbol_getElem? sextet)

theorem decodeTable_alphabetSymbol {value : UInt8} (sextet : value.toNat < 64) :
    decodeTable (alphabetSymbol value) = value := by
  have entry := writeEntries_zipIdx base64Alphabet_nodup (alphabetSymbol_getElem? sextet)
    UInt8.ofNat fun _ => 255
  rwa [UInt8.ofNat_toNat] at entry

theorem decodeTable_eq_255 (octet : UInt8) : decodeTable octet = 255 ↔ octet ∉ base64Alphabet := by
  constructor
  · intro missing member
    obtain ⟨place, found⟩ := List.getElem?_of_mem member
    have bound : place < 64 := (List.getElem?_eq_some_iff.mp found).1
    have entry := writeEntries_zipIdx base64Alphabet_nodup found UInt8.ofNat fun _ => 255
    have code := congrArg UInt8.toNat (entry.symm.trans missing)
    rw [UInt8.toNat_ofNat'] at code
    have value : (255 : UInt8).toNat = 255 := rfl
    omega
  · intro absent
    apply writeEntries_other
    rwa [List.map_map, show Prod.fst ∘ (fun entry : UInt8 × Nat => (entry.1, UInt8.ofNat entry.2)) =
      Prod.fst from rfl, List.zipIdx_map_fst]

theorem encodeUtf8_alphabetCharacter {value : UInt8} (sextet : value.toNat < 64) (text : Text) :
    encodeUtf8 (alphabetCharacter value :: text) = alphabetSymbol value :: encodeUtf8 text :=
  encodeUtf8_ofUInt8 (base64Alphabet_plain _ (alphabetSymbol_mem sextet)).1 text

theorem alphabetSymbol_facts {value : UInt8} (sextet : value.toNat < 64) :
    alphabetSymbol value ≠ 61 ∧ decodeTable (alphabetSymbol value) = value ∧ value ≠ 255 := by
  refine ⟨(base64Alphabet_plain _ (alphabetSymbol_mem sextet)).2.1,
    decodeTable_alphabetSymbol sextet, ?_⟩
  rintro rfl
  revert sextet
  decide

theorem decodeBase64Blocks_four {v0 v1 v2 v3 : UInt8} (sextet0 : v0.toNat < 64)
    (sextet1 : v1.toNat < 64) (sextet2 : v2.toNat < 64) (sextet3 : v3.toNat < 64) (rest : Octets) :
    decodeBase64Blocks (alphabetSymbol v0 :: alphabetSymbol v1 :: alphabetSymbol v2 ::
        alphabetSymbol v3 :: rest) =
      (decodeBase64Blocks rest).map fun octets =>
        ((v0 <<< 2) ||| (v1 >>> 4)) :: ((v1 <<< 4) ||| (v2 >>> 2)) :: ((v2 <<< 6) ||| v3) ::
          octets := by
  obtain ⟨-, value0, valid0⟩ := alphabetSymbol_facts sextet0
  obtain ⟨-, value1, valid1⟩ := alphabetSymbol_facts sextet1
  obtain ⟨plain2, value2, -⟩ := alphabetSymbol_facts sextet2
  obtain ⟨plain3, value3, -⟩ := alphabetSymbol_facts sextet3
  simp only [decodeBase64Blocks, value0, value1, value2, value3, valid0, valid1, plain2, plain3,
    or_self, if_false, ne_eq, not_false_eq_true, if_true]
  rfl

theorem decodeBase64Blocks_three {v0 v1 v2 : UInt8} (sextet0 : v0.toNat < 64)
    (sextet1 : v1.toNat < 64) (sextet2 : v2.toNat < 64) :
    decodeBase64Blocks [alphabetSymbol v0, alphabetSymbol v1, alphabetSymbol v2, 61] =
      .ok [(v0 <<< 2) ||| (v1 >>> 4), (v1 <<< 4) ||| (v2 >>> 2)] := by
  obtain ⟨-, value0, valid0⟩ := alphabetSymbol_facts sextet0
  obtain ⟨-, value1, valid1⟩ := alphabetSymbol_facts sextet1
  obtain ⟨plain2, value2, -⟩ := alphabetSymbol_facts sextet2
  simp only [decodeBase64Blocks, value0, value1, value2, valid0, valid1, plain2,
    or_self, if_false, ne_eq, not_false_eq_true, not_true_eq_false, if_true]
  rfl

theorem decodeBase64Blocks_two {v0 v1 : UInt8} (sextet0 : v0.toNat < 64)
    (sextet1 : v1.toNat < 64) :
    decodeBase64Blocks [alphabetSymbol v0, alphabetSymbol v1, 61, 61] =
      .ok [(v0 <<< 2) ||| (v1 >>> 4)] := by
  obtain ⟨-, value0, valid0⟩ := alphabetSymbol_facts sextet0
  obtain ⟨-, value1, valid1⟩ := alphabetSymbol_facts sextet1
  simp only [decodeBase64Blocks, value0, value1, valid0, valid1, or_self, if_false, ne_eq,
    not_true_eq_false, if_true]
  rfl

theorem decodeBase64Blocks_encodeBase64 (octets : Octets) :
    decodeBase64Blocks (encodeUtf8 (encodeBase64 octets)) = .ok octets := by
  induction octets using encodeBase64.induct with
  | case1 b0 b1 b2 rest ih =>
      rw [encodeBase64, encodeUtf8_alphabetCharacter (first_sextet b0),
        encodeUtf8_alphabetCharacter (second_sextet b0 b1),
        encodeUtf8_alphabetCharacter (third_sextet b1 b2),
        encodeUtf8_alphabetCharacter (fourth_sextet b2),
        decodeBase64Blocks_four (first_sextet b0) (second_sextet b0 b1) (third_sextet b1 b2)
          (fourth_sextet b2), ih, first_octet, second_octet, third_octet]
      rfl
  | case2 b0 b1 =>
      rw [encodeBase64, encodeUtf8_alphabetCharacter (first_sextet b0),
        encodeUtf8_alphabetCharacter (second_sextet b0 b1),
        encodeUtf8_alphabetCharacter (third_sextet_end b1)]
      apply (decodeBase64Blocks_three (first_sextet b0) (second_sextet b0 b1)
        (third_sextet_end b1)).trans
      rw [first_octet, second_octet_end]
  | case3 b0 =>
      rw [encodeBase64, encodeUtf8_alphabetCharacter (first_sextet b0),
        encodeUtf8_alphabetCharacter (second_sextet_end b0)]
      apply (decodeBase64Blocks_two (first_sextet b0) (second_sextet_end b0)).trans
      rw [first_octet_end]
  | case4 => rfl

def isBlankCharacter (character : Char) : Prop :=
  character = '\r' ∨ character = '\n' ∨ character = ' ' ∨ character = '\t'

inductive Interspersed : Text → Text → Prop
  | done : Interspersed [] []
  | keep {text spaced} (character : Char) : Interspersed text spaced →
      Interspersed (character :: text) (character :: spaced)
  | blank {text spaced character} : isBlankCharacter character → Interspersed text spaced →
      Interspersed text (character :: spaced)

def isTransferCharacter (character : Char) : Prop :=
  character.toNat < 128 ∧ isTransferBlank (UInt8.ofNat character.toNat) = false

theorem alphabetCharacter_mem {value : UInt8} (sextet : value.toNat < 64) :
    alphabetCharacter value ∈ '=' :: base64Alphabet.map Char.ofUInt8 :=
  List.mem_cons_of_mem _ (List.mem_map_of_mem (alphabetSymbol_mem sextet))

theorem encodeBase64_alphabet (octets : Octets) :
    ∀ character ∈ encodeBase64 octets, character ∈ '=' :: base64Alphabet.map Char.ofUInt8 := by
  have padding : '=' ∈ '=' :: base64Alphabet.map Char.ofUInt8 := List.mem_cons_self
  induction octets using encodeBase64.induct with
  | case1 b0 b1 b2 rest ih =>
      simp only [encodeBase64, List.forall_mem_cons]
      exact ⟨alphabetCharacter_mem (first_sextet b0), alphabetCharacter_mem (second_sextet b0 b1),
        alphabetCharacter_mem (third_sextet b1 b2), alphabetCharacter_mem (fourth_sextet b2), ih⟩
  | case2 b0 b1 =>
      simp only [encodeBase64, List.forall_mem_cons]
      exact ⟨alphabetCharacter_mem (first_sextet b0), alphabetCharacter_mem (second_sextet b0 b1),
        alphabetCharacter_mem (third_sextet_end b1), padding, nofun⟩
  | case3 b0 =>
      simp only [encodeBase64, List.forall_mem_cons]
      exact ⟨alphabetCharacter_mem (first_sextet b0), alphabetCharacter_mem (second_sextet_end b0),
        padding, padding, nofun⟩
  | case4 => simp [encodeBase64]

theorem encodeBase64_transfer (octets : Octets) :
    ∀ character ∈ encodeBase64 octets, isTransferCharacter character := by
  intro character member
  rcases List.mem_cons.mp (encodeBase64_alphabet octets character member) with rfl | symbol
  · exact ⟨by decide, by decide⟩
  · obtain ⟨octet, listed, rfl⟩ := List.mem_map.mp symbol
    obtain ⟨low, -, plain⟩ := base64Alphabet_plain octet listed
    rw [isTransferCharacter, toNat_ofUInt8, UInt8.ofNat_toNat]
    exact ⟨low, plain⟩

theorem filter_interspersed {text spaced : Text} (inserted : Interspersed text spaced)
    (transfer : ∀ character ∈ text, isTransferCharacter character) :
    (encodeUtf8 spaced).filter (fun octet => !isTransferBlank octet) = encodeUtf8 text := by
  induction inserted with
  | done => rfl
  | keep character _ ih =>
      rw [List.forall_mem_cons] at transfer
      obtain ⟨low, solid⟩ := transfer.1
      rw [encodeUtf8_cons_ascii low, encodeUtf8_cons_ascii low, List.filter_cons, solid]
      simp [ih transfer.2]
  | blank isBlank _ ih =>
      rcases isBlank with rfl | rfl | rfl | rfl <;>
        rw [encodeUtf8_cons_ascii (by decide), List.filter_cons, ← ih transfer] <;> rfl

theorem interspersed_refl (text : Text) : Interspersed text text := by
  induction text with
  | nil => exact .done
  | cons character text ih => exact .keep character ih

/-- What is encoded is decoded again, however the encoded text is broken up by white space. -/
theorem decodeBase64_encodeBase64 (octets : Octets) :
    decodeBase64 (encodeUtf8 (encodeBase64 octets)) = .ok octets ∧
      ∀ spaced, Interspersed (encodeBase64 octets) spaced →
        decodeBase64 (encodeUtf8 spaced) = .ok octets := by
  have decoded : ∀ spaced, Interspersed (encodeBase64 octets) spaced →
      decodeBase64 (encodeUtf8 spaced) = .ok octets := by
    intro spaced inserted
    rw [decodeBase64, filter_interspersed inserted (encodeBase64_transfer octets)]
    exact decodeBase64Blocks_encodeBase64 octets
  exact ⟨decoded _ (interspersed_refl _), decoded⟩

theorem decodeBase64_encodeBase64_folded :
    encodeBase64 [72, 101, 108, 108, 111] = "SGVsbG8=".toList ∧
      decodeBase64 (encodeUtf8 "SGVs\r\n bG8\t=\n".toList) = .ok [72, 101, 108, 108, 111] := by
  refine ⟨by decide, (decodeBase64_encodeBase64 [72, 101, 108, 108, 111]).2 _ ?_⟩
  have blank : ∀ {character}, isBlankCharacter character → ∀ {text spaced}, Interspersed text spaced →
      Interspersed text (character :: spaced) := fun isBlank _ _ inserted => .blank isBlank inserted
  exact .keep 'S' (.keep 'G' (.keep 'V' (.keep 's' (blank (.inl rfl) (blank (.inr (.inl rfl))
    (blank (.inr (.inr (.inl rfl))) (.keep 'b' (.keep 'G' (.keep '8'
      (blank (.inr (.inr (.inr rfl))) (.keep '=' (blank (.inr (.inl rfl)) .done))))))))))))

/-! Corrupt input. -/

/-- The text between white space is encoded text: whole groups of four characters of the
alphabet, up to two padding characters at the end. -/
def WellFormedBase64 (symbols : Octets) : Prop :=
  symbols.length % 4 = 0 ∧ ∃ body padding, symbols = body ++ padding ∧
    (∀ symbol ∈ body, symbol ∈ base64Alphabet) ∧
    (padding = [] ∨ padding = [61] ∨ padding = [61, 61])

/-- A character outside the alphabet stands in the first or second place of a whole group. -/
def RefusedGroup (symbols : Octets) : Prop :=
  ∃ place symbol, symbols[place]? = some symbol ∧ symbol ∉ base64Alphabet ∧ place % 4 < 2 ∧
    place / 4 * 4 + 4 ≤ symbols.length

/-- The last group is not whole, or a character outside the alphabet in the third or fourth
place of a group is not the padding at the end. -/
def OverlookedCorruption (symbols : Octets) : Prop :=
  symbols.length % 4 ≠ 0 ∨
    ∃ place symbol, symbols[place]? = some symbol ∧ symbol ∉ base64Alphabet ∧ 2 ≤ place % 4 ∧
      symbols.drop place ≠ [61] ∧ symbols.drop place ≠ [61, 61]

theorem refusedGroup_short {symbols : Octets} (short : symbols.length < 4) :
    ¬RefusedGroup symbols := by
  rintro ⟨place, _, _, _, _, whole⟩
  omega

theorem refusedGroup_four (b0 b1 b2 b3 : UInt8) (rest : Octets) :
    RefusedGroup (b0 :: b1 :: b2 :: b3 :: rest) ↔
      (b0 ∉ base64Alphabet ∨ b1 ∉ base64Alphabet) ∨ RefusedGroup rest := by
  constructor
  · rintro ⟨place, symbol, found, foreign, lead, whole⟩
    simp only [List.length_cons] at whole
    match place with
    | 0 =>
        cases found
        exact .inl (.inl foreign)
    | 1 =>
        cases found
        exact .inl (.inr foreign)
    | 2 | 3 => omega
    | place + 4 => exact .inr ⟨place, symbol, found, foreign, by omega, by omega⟩
  · rintro ((foreign | foreign) | ⟨place, symbol, found, foreign, lead, whole⟩)
    · exact ⟨0, b0, rfl, foreign, by omega, by simp⟩
    · exact ⟨1, b1, rfl, foreign, by omega, by simp⟩
    · exact ⟨place + 4, symbol, found, foreign, by omega, by simp only [List.length_cons]; omega⟩

theorem decodeBase64Blocks_ok (symbols : Octets) :
    (∃ octets, decodeBase64Blocks symbols = .ok octets) ↔ ¬RefusedGroup symbols := by
  match symbols with
  | b0 :: b1 :: b2 :: b3 :: rest =>
      have later := decodeBase64Blocks_ok rest
      rw [refusedGroup_four, ← decodeTable_eq_255, ← decodeTable_eq_255, not_or, ← later]
      rw [decodeBase64Blocks]
      by_cases refused : decodeTable b0 = 255 ∨ decodeTable b1 = 255
      · simp [refused]
      · simp only [refused, if_false, not_false_eq_true, true_and]
        cases decodeBase64Blocks rest with
        | error message => simp [Except.map]
        | ok octets => simp [Except.map]
  | [] | [_] | [_, _] | [_, _, _] =>
      exact ⟨fun _ => refusedGroup_short (by simp), fun _ => ⟨[], rfl⟩⟩

theorem wellFormedBase64_iff (symbols : Octets) :
    WellFormedBase64 symbols ↔ symbols.length % 4 = 0 ∧
      ∀ place symbol, symbols[place]? = some symbol → symbol ∉ base64Alphabet →
        symbols.drop place = [61] ∨ symbols.drop place = [61, 61] := by
  refine and_congr_right fun _ => ?_
  constructor
  · rintro ⟨body, padding, rfl, alphabet, padded⟩ place symbol found foreign
    have beyond : body.length ≤ place := by
      by_contra inside
      rw [List.getElem?_append_left (Nat.lt_of_not_le inside)] at found
      exact foreign (alphabet symbol (List.mem_of_getElem? found))
    obtain ⟨gap, rfl⟩ := Nat.exists_eq_add_of_le beyond
    rw [List.getElem?_append_right (Nat.le_add_right _ _), Nat.add_sub_cancel_left] at found
    rw [List.drop_append]
    have bound := (List.getElem?_eq_some_iff.mp found).1
    rcases padded with rfl | rfl | rfl
    · simp at bound
    · have start : gap = 0 := by simpa using bound
      simp [start]
    · have start : gap = 0 ∨ gap = 1 := by
        simp only [List.length_cons, List.length_nil] at bound
        omega
      rcases start with rfl | rfl <;> simp
  · intro places
    refine ⟨symbols.takeWhile (· ∈ base64Alphabet), symbols.dropWhile (· ∈ base64Alphabet),
      List.takeWhile_append_dropWhile.symm, ?_, ?_⟩
    · intro symbol member
      simpa using List.mem_takeWhile_imp member
    · have shape := List.takeWhile_append_dropWhile (p := (· ∈ base64Alphabet)) (l := symbols)
      cases left : symbols.dropWhile (· ∈ base64Alphabet) with
      | nil => exact .inl rfl
      | cons symbol rest =>
          have foreign : symbol ∉ base64Alphabet := by
            have more : symbols.dropWhile (· ∈ base64Alphabet) ≠ [] := by
              rw [left]
              exact List.cons_ne_nil symbol rest
            simpa [left] using List.head_dropWhile_not (· ∈ base64Alphabet) more
          rw [left] at shape
          generalize symbols.takeWhile (· ∈ base64Alphabet) = body at shape
          subst shape
          have suffix := places body.length symbol (by simp) foreign
          rw [List.drop_left] at suffix
          exact .inr suffix

/-- Corrupt input is refused exactly when the corruption shows in the first two places of a
group: what is wrong elsewhere is dropped or decoded as something. -/
theorem decodeBase64_corrupt (data : Octets) :
    ((∃ octets, decodeBase64 data = .ok octets) →
        WellFormedBase64 (data.filter fun octet => !isTransferBlank octet)) ↔
      RefusedGroup (data.filter fun octet => !isTransferBlank octet) ∨
        ¬OverlookedCorruption (data.filter fun octet => !isTransferBlank octet) := by
  generalize filtered : (data.filter fun octet => !isTransferBlank octet) = symbols
  rw [decodeBase64, filtered, decodeBase64Blocks_ok, wellFormedBase64_iff]
  by_cases refused : RefusedGroup symbols
  · simp [refused]
  · simp only [refused, not_false_eq_true, forall_const, false_or, OverlookedCorruption, not_or,
      not_exists, not_and, ne_eq, Decidable.not_not]
    refine and_congr_right fun whole => ?_
    constructor
    · intro places place symbol found foreign _ notOne
      exact (places place symbol found foreign).resolve_left notOne
    · intro places place symbol found foreign
      have later : 2 ≤ place % 4 := by
        by_contra lead
        have bound := (List.getElem?_eq_some_iff.mp found).1
        exact refused ⟨place, symbol, found, foreign, by omega, by omega⟩
      by_cases one : symbols.drop place = [61]
      · exact .inl one
      · exact .inr (places place symbol found foreign later one)

/-- `QUJD!` ends in a dangling character, `QUI!` has one outside the alphabet in the fourth
place. -/
theorem decodeBase64_accepts_corrupt :
    decodeBase64 [81, 85, 74, 68, 33] = .ok [65, 66, 67] ∧
      ¬((∃ octets, decodeBase64 [81, 85, 74, 68, 33] = .ok octets) →
        WellFormedBase64 ([81, 85, 74, 68, 33].filter fun octet => !isTransferBlank octet)) ∧
      decodeBase64 [81, 85, 73, 33] = .ok [65, 66, 255] ∧
      ¬((∃ octets, decodeBase64 [81, 85, 73, 33] = .ok octets) →
        WellFormedBase64 ([81, 85, 73, 33].filter fun octet => !isTransferBlank octet)) := by
  have dangling : decodeBase64 [81, 85, 74, 68, 33] = .ok [65, 66, 67] := by decide +kernel
  have garbage : decodeBase64 [81, 85, 73, 33] = .ok [65, 66, 255] := by decide +kernel
  refine ⟨dangling, fun strict => ?_, garbage, fun strict => ?_⟩
  · exact absurd (strict ⟨_, dangling⟩).1 (by decide)
  · have formed := (wellFormedBase64_iff _).mp (strict ⟨_, garbage⟩)
    exact absurd (formed.2 3 33 rfl (by decide)) (by decide)

end Rusmes
