import Rusmes.Proto.Mime

/-!
Message identifiers as text: what is written is read back, and nothing that is
read holds white space.
-/

namespace Rusmes

open WireText

theorem hexValue_digitChar : ∀ digit < 16, hexValue (Nat.digitChar digit) = some digit := by
  decide

def hexStep (value : Nat) (digit : Char) : Option Nat :=
  (hexValue digit).map (16 * value + ·)

theorem hexNumber_eq (digits : Text) : hexNumber digits = digits.foldlM hexStep 0 := rfl

theorem hexNumber_toDigits (value : Nat) : hexNumber (Nat.toDigits 16 value) = some value := by
  induction value using Nat.strong_induction_on with
  | _ value ih =>
      by_cases small : value < 16
      · rw [Nat.toDigits_of_lt_base small, hexNumber_eq]
        simp [hexStep, hexValue_digitChar value small]
      · have rest := ih (value / 16) (by omega)
        rw [hexNumber_eq] at rest
        rw [Nat.toDigits_of_base_le (by omega) (by omega), hexNumber_eq, List.foldlM_append, rest]
        have last := hexValue_digitChar (value % 16) (by omega)
        simp [hexStep, last]
        omega

theorem hexNumber_leftpad (width : Nat) (digits : Text) :
    hexNumber (digits.leftpad width '0') = hexNumber digits := by
  have zeros : ∀ count, hexNumber (List.replicate count '0' ++ digits) = hexNumber digits := by
    intro count
    induction count with
    | zero => rfl
    | succ count ih =>
        rw [List.replicate_succ, List.cons_append, hexNumber_eq, List.foldlM_cons]
        exact ih
  exact zeros _

theorem length_hexDigits (uuid : BitVec 128) : (hexDigits 32 uuid.toNat).length = 32 := by
  have small : uuid.toNat < 16 ^ 32 := by
    have bound := uuid.isLt
    omega
  have short := (Nat.length_toDigits_le_iff (b := 16) (n := uuid.toNat) (k := 32) (by omega)
    (by omega)).mpr small
  rw [hexDigits, List.length_leftpad]
  omega

theorem parseHyphenated_parts {first second third fourth fifth : Text} (one : first.length = 8)
    (two : second.length = 4) (three : third.length = 4) (four : fourth.length = 4)
    (five : fifth.length = 12) :
    parseHyphenated (first ++ '-' :: (second ++ '-' :: (third ++ '-' :: (fourth ++ '-' :: fifth)))) =
      hexNumber (first ++ second ++ third ++ fourth ++ fifth) := by
  rw [parseHyphenated, if_pos]
  · simp (disch := omega) [List.drop_append, List.drop_eq_nil_of_le, one, two, three, four]
  · simp [one, two, three, four, five]

theorem parseHyphenated_hyphenated {digits : Text} (size : digits.length = 32) :
    parseHyphenated (hyphenated digits) = hexNumber digits := by
  have shape : hyphenated digits = digits.take 8 ++ '-' :: ((digits.drop 8).take 4 ++
      '-' :: ((digits.drop 12).take 4 ++ '-' :: ((digits.drop 16).take 4 ++
        '-' :: digits.drop 20))) := by
    simp [hyphenated]
  have joined : ∀ start count, (digits.drop start).take count ++ digits.drop (start + count) =
      digits.drop start := by
    intro start count
    rw [← List.drop_drop]
    exact List.take_append_drop count _
  have whole : digits.take 8 ++ (digits.drop 8).take 4 ++ (digits.drop 12).take 4 ++
      (digits.drop 16).take 4 ++ digits.drop 20 = digits := by
    simp only [List.append_assoc]
    rw [joined 16 4, joined 12 4, joined 8 4, List.take_append_drop]
  rw [shape, parseHyphenated_parts (by simp [size]) (by simp [size]) (by simp [size])
    (by simp [size]) (by simp [size]), whole]

theorem parseUuid_display (id : MessageId) : parseUuid id.display = some id.uuid := by
  have size := length_hexDigits id.uuid
  have length : id.display.length = 36 := by
    simp [MessageId.display, hyphenated, size]
  have read : parseHyphenated id.display = some id.uuid.toNat := by
    rw [MessageId.display, parseHyphenated_hyphenated size, hexDigits, hexNumber_leftpad,
      hexNumber_toDigits]
  simp [parseUuid, length, read]

/-! White space. -/

theorem hexValue_solid {character : Char} {value : Nat} (read : hexValue character = some value) :
    isWhitespace character = false := by
  have within : 48 ≤ character.toNat ∧ character.toNat ≤ 102 := by
    simp only [hexValue, Char.le_def, UInt32.le_iff_toNat_le] at read
    have code : character.toNat = character.val.toNat := rfl
    split at read
    · rename_i digit
      simp at digit
      omega
    · split at read
      · rename_i digit
        simp at digit
        omega
      · split at read
        · rename_i digit
          simp at digit
          omega
        · cases read
  simp only [isWhitespace, Bool.or_eq_false_iff, Bool.and_eq_false_iff, decide_eq_false_iff_not]
  omega

theorem hexNumber_mem {digits : Text} {value : Nat} (read : hexNumber digits = some value)
    {character : Char} (member : character ∈ digits) : ∃ digit, hexValue character = some digit := by
  have general : ∀ start, digits.foldlM hexStep start = some value →
      ∃ digit, hexValue character = some digit := by
    clear read
    induction digits with
    | nil => cases member
    | cons digit digits ih =>
        intro start folded
        rw [List.foldlM_cons] at folded
        obtain ⟨next, stepped, rest⟩ := Option.bind_eq_some_iff.mp folded
        rcases List.mem_cons.mp member with rfl | later
        · obtain ⟨held, found, -⟩ := Option.map_eq_some_iff.mp stepped
          exact ⟨held, found⟩
        · exact ih later next rest
  exact general 0 read

theorem hexNumber_solid {digits : Text} {value : Nat} (read : hexNumber digits = some value)
    {character : Char} (member : character ∈ digits) : isWhitespace character = false := by
  obtain ⟨digit, found⟩ := hexNumber_mem read member
  exact hexValue_solid found

theorem mem_slice {text : Text} {index start count : Nat} {character : Char}
    (found : text[index]? = some character) (after : start ≤ index)
    (before : index < start + count) : character ∈ (text.drop start).take count := by
  apply List.mem_of_getElem? (i := index - start)
  rw [List.getElem?_take, if_pos (by omega), List.getElem?_drop]
  rw [show start + (index - start) = index by omega]
  exact found

theorem parseHyphenated_solid {text : Text} {value : Nat}
    (read : parseHyphenated text = some value) {character : Char} (member : character ∈ text) :
    isWhitespace character = false := by
  rw [parseHyphenated] at read
  split at read
  · rename_i shape
    obtain ⟨size, first, second, third, fourth⟩ := shape
    obtain ⟨index, found⟩ := List.mem_iff_getElem?.mp member
    have bound : index < text.length := (List.getElem?_eq_some_iff.mp found).1
    have dash : isWhitespace '-' = false := by decide
    by_cases hyphen : text[index]? = some '-'
    · rw [found, Option.some.injEq] at hyphen
      rw [hyphen]
      exact dash
    · have apart : index ≠ 8 ∧ index ≠ 13 ∧ index ≠ 18 ∧ index ≠ 23 := by
        refine ⟨?_, ?_, ?_, ?_⟩ <;> (rintro rfl; contradiction)
      have inside : character ∈ text.take 8 ++ (text.drop 9).take 4 ++ (text.drop 14).take 4 ++
          (text.drop 19).take 4 ++ text.drop 24 := by
        have start : text.take 8 = (text.drop 0).take 8 := rfl
        have finish : text.drop 24 = (text.drop 24).take 12 := by
          rw [List.take_of_length_le]
          rw [List.length_drop]
          omega
        rw [start, finish]
        simp only [List.mem_append]
        by_cases one : index < 8
        · exact Or.inl (Or.inl (Or.inl (Or.inl (mem_slice found (by omega) (by omega)))))
        · by_cases two : index < 13
          · exact Or.inl (Or.inl (Or.inl (Or.inr (mem_slice found (by omega) (by omega)))))
          · by_cases three : index < 18
            · exact Or.inl (Or.inl (Or.inr (mem_slice found (by omega) (by omega))))
            · by_cases four : index < 23
              · exact Or.inl (Or.inr (mem_slice found (by omega) (by omega)))
              · exact Or.inr (mem_slice found (by omega) (by omega))
      exact hexNumber_solid read inside
  · cases read

theorem parseUuid_solid {text : Text} {uuid : BitVec 128} (read : parseUuid text = some uuid)
    {character : Char} (member : character ∈ text) : isWhitespace character = false := by
  rw [parseUuid] at read
  obtain ⟨value, parsed, -⟩ := Option.map_eq_some_iff.mp read
  split at parsed
  · exact hexNumber_solid parsed member
  · split at parsed
    · exact parseHyphenated_solid parsed member
    · split at parsed
      · rename_i braces
        obtain ⟨size, opened, closed⟩ := braces
        cases text with
        | nil => cases opened
        | cons first rest =>
            have start : first = '\x7b' := Option.some.inj opened
            have more : rest ≠ [] := by
              rintro rfl
              simp at size
            have last : rest.getLast more = '\x7d' := by
              rw [List.getLast?_cons, List.getLast?_eq_some_getLast more] at closed
              exact Option.some.inj closed
            rcases List.mem_cons.mp member with rfl | later
            · rw [start]
              decide
            · rw [← List.dropLast_append_getLast more, List.mem_append, List.mem_singleton] at later
              rcases later with inside | final
              · exact parseHyphenated_solid parsed inside
              · rw [final, last]
                decide
      · split at parsed
        · rename_i urn
          obtain ⟨rest, rfl⟩ := urn.2
          rcases List.mem_append.mp member with lead | later
          · have plain : "urn:uuid:".toList.all (fun letter => !isWhitespace letter) = true := by
              decide
            simpa using List.all_eq_true.mp plain character lead
          · exact parseHyphenated_solid parsed later
        · cases parsed

theorem MimeMessage.storedId_of_listedId {letters : CaseMapping} {message : MimeMessage}
    {id : MessageId} (listed : message.listedId letters = some id) :
    message.storedId letters = some id := by
  obtain ⟨text, found, read⟩ := Option.bind_eq_some_iff.mp listed
  obtain ⟨uuid, parsed, same⟩ := Option.map_eq_some_iff.mp read
  rw [MimeMessage.storedId, found, Option.bind_some,
    trim_solid fun character member => parseUuid_solid parsed member, parsed, Option.map_some, same]

end Rusmes
