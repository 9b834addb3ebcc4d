import Rusmes.Library.WireText

/-!
Decoding that never fails, cut at ASCII octets: what is ill-formed before such an octet has no
influence behind it.
-/

namespace WireText

theorem toNat_ofNat_octet {value : Nat} (small : value < 256) : (UInt8.ofNat value).toNat = value := by
  rw [UInt8.toNat_ofNat']
  omega

theorem utf8Continuation_tail (value : Nat) :
    utf8Continuation (UInt8.ofNat (value % 0x40 + 0x80)) = true := by
  rw [utf8Continuation, toNat_ofNat_octet (by omega)]
  simp only [Bool.and_eq_true, decide_eq_true_eq]
  omega

theorem utf8Matched_second {lead second : UInt8} (long : 1 < utf8Length lead.toNat)
    (fits : utf8Second lead.toNat second.toNat = true) (rest : Octets) :
    utf8Matched (lead :: second :: rest) =
      2 + ((rest.take (utf8Length lead.toNat - 2)).takeWhile utf8Continuation).length := by
  rw [utf8Matched, if_pos ⟨long, fits⟩]

theorem utf8EncodeChar_matched (character : Char) :
    ∃ lead more, String.utf8EncodeChar character = lead :: more ∧
      utf8Length lead.toNat = more.length + 1 ∧
      ∀ rest, utf8Matched (lead :: (more ++ rest)) = more.length + 1 := by
  have range : character.toNat < 0xD800 ∨ 0xDFFF < character.toNat ∧ character.toNat < 0x110000 :=
    character.valid
  have code : character.val.toNat = character.toNat := rfl
  have second : ∀ lead value, (lead = 0xE0 → 0x20 ≤ value % 0x40) → (lead = 0xED → value % 0x40 < 0x20) →
      (lead = 0xF0 → 0x10 ≤ value % 0x40) → (lead = 0xF4 → value % 0x40 < 0x10) →
      utf8Second lead (UInt8.ofNat (value % 0x40 + 0x80)).toNat = true := by
    intro lead value _ _ _ _
    rw [utf8Second, toNat_ofNat_octet (by omega)]
    split
    rename_i bounds
    revert bounds
    split_ifs <;> rintro ⟨⟩ <;> simp only [Bool.and_eq_true, decide_eq_true_eq] <;> omega
  by_cases one : character.toNat ≤ 0x7F
  · refine ⟨UInt8.ofNat character.toNat, [], utf8EncodeChar_ascii (by omega), ?_, fun rest => ?_⟩
    · rw [toNat_ofNat_octet (by omega), utf8Length, if_pos (by omega)]
      rfl
    · cases rest with
      | nil => rfl
      | cons second rest =>
          rw [List.nil_append, utf8Matched, if_neg]
          · rfl
          · rw [toNat_ofNat_octet (by omega), utf8Length, if_pos (by omega)]
            omega
  · rw [String.utf8EncodeChar, code, if_neg one]
    by_cases two : character.toNat ≤ 0x7FF
    · rw [if_pos two]
      have length : utf8Length (UInt8.ofNat (character.toNat / 64 % 0x20 + 0xC0)).toNat = 2 := by
        rw [toNat_ofNat_octet (by omega), utf8Length, if_neg (by omega), if_pos (by omega)]
      refine ⟨_, _, rfl, length, fun rest => ?_⟩
      rw [List.cons_append, utf8Matched_second (by omega), length]
      · rfl
      · rw [toNat_ofNat_octet (by omega)]
        exact second _ _ (by omega) (by omega) (by omega) (by omega)
    · rw [if_neg two]
      by_cases three : character.toNat ≤ 0xFFFF
      · rw [if_pos three]
        have length : utf8Length (UInt8.ofNat (character.toNat / 4096 % 0x10 + 0xE0)).toNat = 3 := by
          rw [toNat_ofNat_octet (by omega), utf8Length, if_neg (by omega), if_neg (by omega),
            if_pos (by omega)]
        refine ⟨_, _, rfl, length, fun rest => ?_⟩
        rw [List.cons_append, utf8Matched_second (by omega), length]
        · simp only [List.cons_append, List.nil_append, Nat.reduceSub, List.take_succ_cons,
            List.take_zero, List.takeWhile_cons, utf8Continuation_tail, if_true, List.takeWhile_nil,
            List.length_cons, List.length_nil]
        · rw [toNat_ofNat_octet (by omega)]
          exact second _ _ (by omega) (by omega) (by omega) (by omega)
      · rw [if_neg three]
        have length : utf8Length (UInt8.ofNat (character.toNat / 262144 % 0x08 + 0xF0)).toNat = 4 := by
          rw [toNat_ofNat_octet (by omega), utf8Length, if_neg (by omega), if_neg (by omega),
            if_neg (by omega), if_pos (by omega)]
        refine ⟨_, _, rfl, length, fun rest => ?_⟩
        rw [List.cons_append, utf8Matched_second (by omega), length]
        · simp only [List.cons_append, List.nil_append, Nat.reduceSub, List.take_succ_cons,
            List.take_zero, List.takeWhile_cons, utf8Continuation_tail, if_true, List.takeWhile_nil,
            List.length_cons, List.length_nil]
        · rw [toNat_ofNat_octet (by omega)]
          exact second _ _ (by omega) (by omega) (by omega) (by omega)

/-! One replacement after the other. -/

theorem utf8Matched_bounds (lead : UInt8) (rest : Octets) :
    0 < utf8Matched (lead :: rest) ∧ utf8Matched (lead :: rest) ≤ rest.length + 1 := by
  cases rest with
  | nil => simp [utf8Matched]
  | cons second rest =>
      rw [utf8Matched]
      split
      · have longest := (List.takeWhile_prefix (p := utf8Continuation)
          (l := rest.take (utf8Length lead.toNat - 2))).length_le
        have cut := List.length_take_le (utf8Length lead.toNat - 2) rest
        have whole := List.length_take_le' (utf8Length lead.toNat - 2) rest
        rw [List.length_cons]
        omega
      · rw [List.length_cons]
        omega

def firstReplaced (lead : UInt8) (rest : Octets) : Text :=
  if utf8Matched (lead :: rest) = utf8Length lead.toNat then
    (decodeUtf8 ((lead :: rest).take (utf8Matched (lead :: rest)))).getD ['\uFFFD']
  else ['\uFFFD']

theorem replaceInvalid_enough {fuel : Nat} {octets : Octets} (enough : octets.length ≤ fuel) :
    replaceInvalid fuel octets = replaceInvalid octets.length octets := by
  induction size : octets.length using Nat.strongRecOn generalizing fuel octets with
  | ind size ih =>
      subst size
      cases octets with
      | nil => cases fuel <;> rfl
      | cons lead rest =>
          obtain ⟨fuel, rfl⟩ := Nat.exists_eq_succ_of_ne_zero (n := fuel) (by
            rintro rfl
            simp at enough)
          have bounds := utf8Matched_bounds lead rest
          have shorter : ((lead :: rest).drop (utf8Matched (lead :: rest))).length ≤ rest.length := by
            rw [List.length_drop, List.length_cons]
            omega
          rw [List.length_cons] at enough
          have less : ((lead :: rest).drop (utf8Matched (lead :: rest))).length <
              (lead :: rest).length := by
            rw [List.length_cons]
            omega
          have one := ih _ less (Nat.le_trans shorter (by omega : rest.length ≤ fuel)) rfl
          have other := ih _ less shorter rfl
          rw [List.length_cons, replaceInvalid, replaceInvalid, one, other]

theorem replaceInvalid_step (lead : UInt8) (rest : Octets) :
    replaceInvalid (lead :: rest).length (lead :: rest) = firstReplaced lead rest ++
      replaceInvalid ((lead :: rest).drop (utf8Matched (lead :: rest))).length
        ((lead :: rest).drop (utf8Matched (lead :: rest))) := by
  have bounds := utf8Matched_bounds lead rest
  have shorter : ((lead :: rest).drop (utf8Matched (lead :: rest))).length ≤ rest.length := by
    rw [List.length_drop, List.length_cons]
    omega
  rw [List.length_cons, replaceInvalid, replaceInvalid_enough shorter]
  rfl

theorem replaceInvalid_encodeUtf8 (text : Text) :
    replaceInvalid (encodeUtf8 text).length (encodeUtf8 text) = text := by
  induction text with
  | nil => rfl
  | cons character text ih =>
      obtain ⟨lead, more, octets, length, matched⟩ := utf8EncodeChar_matched character
      have whole : encodeUtf8 (character :: text) = lead :: (more ++ encodeUtf8 text) := by
        rw [encodeUtf8_cons, octets, List.cons_append]
      have alone : decodeUtf8 (lead :: more) = some [character] := by
        rw [← octets, ← decodeUtf8_encodeUtf8 [character]]
        simp [encodeUtf8]
      have taken : (lead :: (more ++ encodeUtf8 text)).take (more.length + 1) = lead :: more := by
        simp
      have dropped : (lead :: (more ++ encodeUtf8 text)).drop (more.length + 1) = encodeUtf8 text := by
        simp
      rw [whole, replaceInvalid_step, firstReplaced, matched, if_pos length.symm, taken, dropped, ih,
        alone]
      rfl

theorem decodeLossy_eq (octets : Octets) :
    decodeLossy octets = replaceInvalid octets.length octets := by
  rw [decodeLossy]
  cases read : decodeUtf8 octets with
  | none => rfl
  | some text => rw [← encodeUtf8_of_decodeUtf8 read, replaceInvalid_encodeUtf8, Option.getD_some]

theorem takeWhile_ascii (count : Nat) (rest : Octets) {octet : UInt8} (low : octet.toNat < 128)
    (behind : Octets) :
    ((rest ++ octet :: behind).take count).takeWhile utf8Continuation =
      (rest.take count).takeWhile utf8Continuation := by
  have ended : utf8Continuation octet = false := by
    simp only [utf8Continuation, Bool.and_eq_false_iff, decide_eq_false_iff_not]
    omega
  induction rest generalizing count with
  | nil => cases count <;> simp [ended]
  | cons first rest ih =>
      cases count with
      | zero => rfl
      | succ count =>
          rw [List.cons_append, List.take_succ_cons, List.take_succ_cons, List.takeWhile_cons,
            List.takeWhile_cons, ih]

theorem utf8Second_ascii {lead second : Nat} (low : second < 128) : utf8Second lead second = false := by
  rw [utf8Second]
  split
  rename_i bounds
  revert bounds
  split_ifs <;> rintro ⟨⟩ <;>
    simp only [Bool.and_eq_false_iff, decide_eq_false_iff_not] <;> omega

theorem utf8Matched_ascii (lead : UInt8) (rest : Octets) {octet : UInt8} (low : octet.toNat < 128)
    (behind : Octets) :
    utf8Matched (lead :: (rest ++ octet :: behind)) = utf8Matched (lead :: rest) := by
  cases rest with
  | nil =>
      have alone : utf8Matched [lead] = 1 := rfl
      rw [List.nil_append, alone, utf8Matched, if_neg]
      simp [utf8Second_ascii low]
  | cons second rest => rw [List.cons_append, utf8Matched, utf8Matched, takeWhile_ascii _ _ low]

theorem decodeLossy_cons_char {octet : UInt8} (low : octet.toNat < 128) (rest : Octets) :
    decodeLossy (octet :: rest) = Char.ofUInt8 octet :: decodeLossy rest := by
  have length : utf8Length octet.toNat = 1 := if_pos low
  have matched : utf8Matched (octet :: rest) = 1 := by
    cases rest with
    | nil => rfl
    | cons second rest =>
        rw [utf8Matched, if_neg]
        simp [length]
  have alone : decodeUtf8 [octet] = some [Char.ofUInt8 octet] := by
    rw [← decodeUtf8_encodeUtf8 [Char.ofUInt8 octet], encodeUtf8_ofUInt8 low]
    rfl
  rw [decodeLossy_eq, replaceInvalid_step, firstReplaced, matched, if_pos length.symm,
    List.take_succ_cons, List.take_zero, alone, List.drop_succ_cons, List.drop_zero,
    ← decodeLossy_eq]
  rfl

theorem decodeLossy_append_ascii (octets : Octets) {octet : UInt8} (low : octet.toNat < 128)
    (rest : Octets) :
    decodeLossy (octets ++ octet :: rest) =
      decodeLossy octets ++ Char.ofUInt8 octet :: decodeLossy rest := by
  induction size : octets.length using Nat.strongRecOn generalizing octets with
  | ind size ih =>
      subst size
      cases octets with
      | nil =>
          rw [List.nil_append, decodeLossy_cons_char low]
          rfl
      | cons lead more =>
          have bounds := utf8Matched_bounds lead more
          have shorter : ((lead :: more).drop (utf8Matched (lead :: more))).length <
              (lead :: more).length := by
            rw [List.length_drop, List.length_cons]
            omega
          have later := ih _ shorter _ rfl
          have matched := utf8Matched_ascii lead more low rest
          have within : utf8Matched (lead :: more) ≤ (lead :: more).length := bounds.2
          have same : firstReplaced lead (more ++ octet :: rest) = firstReplaced lead more := by
            rw [firstReplaced, firstReplaced, matched, ← List.cons_append,
              List.take_append_of_le_length within]
          rw [decodeLossy_eq, decodeLossy_eq (lead :: more), List.cons_append, replaceInvalid_step,
            replaceInvalid_step, same, matched, ← List.cons_append,
            List.drop_append_of_le_length within, ← decodeLossy_eq, ← decodeLossy_eq, later,
            List.append_assoc]

end WireText
