import Mathlib.Algebra.Group.Nat.Defs
import Rusmes.Proto.Uuid
import Rusmes.Smtp.Network

/-!
The text of an IP address stands for one address only. The segments that `::` leaves out
are put back between those that are written, for there are always eight.
-/

namespace Rusmes

open WireText

theorem toDigits_hex_injective : Function.Injective (Nat.toDigits 16) := by
  intro first second same
  have values := congrArg hexNumber same
  rwa [hexNumber_toDigits, hexNumber_toDigits, Option.some.injEq] at values

theorem toDigits_hex_free {mark : Char} (none : hexValue mark = none) (value : Nat) :
    mark ∉ Nat.toDigits 16 value := by
  intro member
  obtain ⟨digit, found⟩ := hexNumber_mem (hexNumber_toDigits value) member
  rw [none] at found
  cases found

theorem colonHex_free {mark : Char} (none : hexValue mark = none) (apart : mark ≠ ':')
    (segments : List Nat) : mark ∉ colonHex segments := by
  induction segments with
  | nil => exact List.not_mem_nil
  | cons segment segments ih =>
      intro member
      cases segments with
      | nil =>
          rw [colonHex, List.map_singleton, List.intercalate_singleton] at member
          exact toDigits_hex_free none segment member
      | cons next segments =>
          rw [colonHex, List.map_cons, List.map_cons, List.intercalate_cons_cons] at member
          rcases List.mem_append.mp member with front | behind
          · rcases List.mem_append.mp front with digit | colon
            · exact toDigits_hex_free none segment digit
            · exact apart (List.mem_singleton.mp colon)
          · exact ih behind

theorem longestZeroRun_zeros {segments : List Nat} {start length : Nat}
    (longest : longestZeroRun segments = (start, length)) :
    (segments.drop start).take length = List.replicate length 0 := by
  let zeros (best : Nat × Nat) : Prop :=
    best.2 ≤ ((segments.drop best.1).takeWhile (· = 0)).length
  have within : zeros (longestZeroRun segments) := by
    refine List.foldlRecOn (motive := zeros) (List.range segments.length) _ (Nat.zero_le _) ?_
    intro best reached candidate _
    dsimp only
    split
    · exact Nat.le_refl _
    · exact reached
  rw [longest] at within
  obtain ⟨behind, split⟩ := List.takeWhile_prefix (· = 0) (l := segments.drop start)
  rw [← split, List.take_append_of_le_length within, List.eq_replicate_iff]
  refine ⟨List.length_take_of_le within, ?_⟩
  intro segment member
  have zero := List.mem_takeWhile_imp (List.mem_of_mem_take member)
  exact of_decide_eq_true zero

theorem segments_around {segments : List Nat} {start length : Nat}
    (longest : longestZeroRun segments = (start, length)) :
    segments = segments.take start ++
      (List.replicate length 0 ++ segments.drop (start + length)) := by
  have zeros := longestZeroRun_zeros longest
  rw [← zeros, ← List.drop_drop, List.take_append_drop, List.take_append_drop]

def expandPieces (pieces : List Text) : List Text :=
  let before := pieces.takeWhile (· ≠ [])
  let after := (pieces.drop before.length).filter (· ≠ [])
  before ++ (List.replicate (8 - before.length - after.length) ['0'] ++ after)

theorem splitOn_colonHex (segments : List Nat) :
    List.splitOn ':' (colonHex segments) =
      if segments = [] then [[]] else segments.map (Nat.toDigits 16) := by
  split
  · rename_i empty
    subst empty
    rfl
  · rename_i nonempty
    apply List.splitOn_intercalate
    · intro piece member
      obtain ⟨segment, _, rfl⟩ := List.mem_map.mp member
      exact toDigits_hex_free rfl segment
    · simpa using nonempty

theorem expandPieces_append {front : List Text} (written : ∀ piece ∈ front, piece ≠ [])
    (behind : List Text) (stops : ∀ first, behind.head? = some first → first = []) :
    expandPieces (front ++ behind) =
      front ++ (List.replicate (8 - front.length - (behind.filter (· ≠ [])).length) ['0'] ++
        behind.filter (· ≠ [])) := by
  have before : (front ++ behind).takeWhile (· ≠ []) = front := by
    have all : ∀ piece ∈ front, decide (piece ≠ []) = true :=
      fun piece member => decide_eq_true (written piece member)
    rw [List.takeWhile_append_of_pos all]
    cases behind with
    | nil => simp
    | cons first rest => simp [stops first rfl]
  rw [expandPieces, before, List.drop_left]

theorem written_segments (segments : List Nat) :
    ∀ piece ∈ segments.map (Nat.toDigits 16), piece ≠ [] := by
  intro piece member
  obtain ⟨segment, -, rfl⟩ := List.mem_map.mp member
  exact Nat.toDigits_ne_nil

theorem filter_written (segments : List Nat) :
    (List.splitOn ':' (colonHex segments)).filter (· ≠ []) = segments.map (Nat.toDigits 16) := by
  rw [splitOn_colonHex]
  split
  · rename_i empty
    subst empty
    rfl
  · rw [List.filter_eq_self]
    intro piece member
    exact decide_eq_true (written_segments segments piece member)

theorem expandPieces_whole {segments : List Nat} (eight : segments.length = 8) :
    expandPieces (List.splitOn ':' (colonHex segments)) = segments.map (Nat.toDigits 16) := by
  have some : segments ≠ [] := by
    rintro rfl
    cases eight
  have expanded := expandPieces_append (written_segments segments) [] (by simp)
  rw [List.append_nil] at expanded
  rw [splitOn_colonHex, if_neg some, expanded]
  simp [eight]

theorem expandPieces_shortened (left right : List Nat) :
    expandPieces (List.splitOn ':' (colonHex left ++ "::".toList ++ colonHex right)) =
      left.map (Nat.toDigits 16) ++
        (List.replicate (8 - left.length - right.length) ['0'] ++ right.map (Nat.toDigits 16)) := by
  have split : List.splitOn ':' (colonHex left ++ "::".toList ++ colonHex right) =
      List.splitOn ':' (colonHex left) ++ [] :: List.splitOn ':' (colonHex right) := by
    have colons : colonHex left ++ "::".toList ++ colonHex right =
        colonHex left ++ ':' :: ([] ++ ':' :: colonHex right) := by
      simp
    rw [colons, List.splitOn_append_cons_self, List.splitOn_append_cons_self]
    rfl
  rw [split]
  cases left with
  | nil =>
      have front : List.splitOn ':' (colonHex []) = [[]] := rfl
      have expanded := expandPieces_append (written_segments [])
        ([] :: [] :: List.splitOn ':' (colonHex right)) (by simp)
      rw [List.filter_cons_of_neg (by simp), List.filter_cons_of_neg (by simp),
        filter_written right, List.length_map, List.length_map] at expanded
      rw [front]
      exact expanded
  | cons first left =>
      have front := splitOn_colonHex (first :: left)
      rw [if_neg (by simp)] at front
      have expanded := expandPieces_append (written_segments (first :: left))
        ([] :: List.splitOn ':' (colonHex right)) (by simp)
      rw [List.filter_cons_of_neg (by simp), filter_written right, List.length_map,
        List.length_map] at expanded
      rw [front, expanded]

def segmentsText (segments : List Nat) : Text :=
  let (start, length) := longestZeroRun segments
  if length > 1 then
    colonHex (segments.take start) ++ "::".toList ++ colonHex (segments.drop (start + length))
  else colonHex segments

theorem expandPieces_segmentsText {segments : List Nat} (eight : segments.length = 8) :
    expandPieces (List.splitOn ':' (segmentsText segments)) = segments.map (Nat.toDigits 16) := by
  rcases longest : longestZeroRun segments with ⟨start, length⟩
  simp only [segmentsText, longest]
  split
  · have around := segments_around longest
    have total := congrArg List.length around
    rw [eight, List.length_append, List.length_append, List.length_replicate] at total
    rw [expandPieces_shortened]
    conv_rhs => rw [around, List.map_append, List.map_append, List.map_replicate]
    have missing : 8 - (segments.take start).length - (segments.drop (start + length)).length =
        length := by
      omega
    rw [missing]
    rfl
  · exact expandPieces_whole eight

theorem segmentsText_injective {first second : List Nat} (firstEight : first.length = 8)
    (secondEight : second.length = 8) (same : segmentsText first = segmentsText second) :
    first = second := by
  have pieces := congrArg (fun text => expandPieces (List.splitOn ':' text)) same
  simp only [expandPieces_segmentsText firstEight, expandPieces_segmentsText secondEight] at pieces
  exact List.map_injective_iff.mpr toDigits_hex_injective pieces

theorem eq_of_parts {width size : Nat} (positive : 0 < size) {first second : BitVec width}
    (same : ∀ part, size * part < width →
      (first >>> (size * part)).toNat % 2 ^ size = (second >>> (size * part)).toNat % 2 ^ size) :
    first = second := by
  apply BitVec.eq_of_toNat_eq
  apply Nat.eq_of_testBit_eq
  intro bit
  by_cases inside : bit < width
  · have start : size * (bit / size) < width := by
      have below := Nat.mul_div_le bit size
      omega
    have bits := congrArg (fun value => value.testBit (bit % size)) (same (bit / size) start)
    simpa [Nat.testBit_mod_two_pow, Nat.mod_lt bit positive, BitVec.toNat_ushiftRight,
      Nat.testBit_shiftRight, Nat.div_add_mod] using bits
  · have high {word : BitVec width} : word.toNat.testBit bit = false := by
      apply Nat.testBit_lt_two_pow
      exact Nat.lt_of_lt_of_le word.isLt (Nat.pow_le_pow_right (by omega) (by omega))
    rw [high, high]

theorem ipv6Segments_injective {first second : BitVec 128}
    (same : ipv6Segments first = ipv6Segments second) : first = second := by
  apply eq_of_parts (by omega : 0 < 16)
  intro part inside
  have segment := congrArg (fun segments => segments[7 - part]?) same
  have index : 112 - 16 * (7 - part) = 16 * part := by omega
  have present : 7 - part < 8 := by omega
  simpa [ipv6Segments, present, index] using segment

theorem length_ipv6Segments (octets : BitVec 128) : (ipv6Segments octets).length = 8 := by
  simp [ipv6Segments]

theorem dottedQuad_injective {first second : BitVec 32}
    (same : dottedQuad first = dottedQuad second) : first = second := by
  have dot : '.'.isDigit = false := rfl
  simp only [dottedQuad, List.append_assoc, List.cons_append] at same
  obtain ⟨byte3, rest3⟩ := decimal_append_cons dot dot same
  obtain ⟨byte2, rest2⟩ := decimal_append_cons dot dot rest3
  obtain ⟨byte1, rest1⟩ := decimal_append_cons dot dot rest2
  have byte0 := decimal_injective rest1
  apply eq_of_parts (by omega : 0 < 8)
  intro part inside
  have parts : part = 0 ∨ part = 1 ∨ part = 2 ∨ part = 3 := by omega
  rcases parts with rfl | rfl | rfl | rfl
  · exact byte0
  · exact byte1
  · exact byte2
  · exact byte3

theorem dot_mem_dottedQuad (octets : BitVec 32) : '.' ∈ dottedQuad octets := by
  simp [dottedQuad]

theorem colon_not_mem_dottedQuad (octets : BitVec 32) : ':' ∉ dottedQuad octets := by
  simp [dottedQuad, not_mem_decimal]

theorem dot_not_mem_segmentsText (segments : List Nat) : '.' ∉ segmentsText segments := by
  have plain := colonHex_free (rfl : hexValue '.' = none) (by decide)
  simp only [segmentsText]
  split <;> simp [plain]

def mapped (octets : BitVec 128) : Prop := (octets >>> 32).toNat = 0xFFFF

instance (octets : BitVec 128) : Decidable (mapped octets) := inferInstanceAs (Decidable (_ = _))

theorem display_v6 (octets : BitVec 128) :
    (IpAddr.v6 octets).display =
      if mapped octets then "::ffff:".toList ++ dottedQuad (octets.truncate 32)
      else segmentsText (ipv6Segments octets) := rfl

theorem mapped_injective {first second : BitVec 128} (firstMapped : mapped first)
    (secondMapped : mapped second) (same : first.truncate 32 = second.truncate 32) :
    first = second := by
  have low := congrArg BitVec.toNat same
  rw [mapped] at firstMapped secondMapped
  simp only [BitVec.truncate_eq_setWidth, BitVec.toNat_setWidth] at low
  rw [BitVec.toNat_ushiftRight, Nat.shiftRight_eq_div_pow] at firstMapped secondMapped
  apply BitVec.eq_of_toNat_eq
  omega

theorem display_v6_injective {first second : BitVec 128}
    (same : (IpAddr.v6 first).display = (IpAddr.v6 second).display) : first = second := by
  have mixed {mappedOctets other : BitVec 128} (isMapped : mapped mappedOctets)
      (notMapped : ¬ mapped other) :
      (IpAddr.v6 mappedOctets).display ≠ (IpAddr.v6 other).display := by
    rw [display_v6, if_pos isMapped, display_v6, if_neg notMapped]
    intro same
    apply dot_not_mem_segmentsText (ipv6Segments other)
    rw [← same]
    exact List.mem_append_right _ (dot_mem_dottedQuad _)
  by_cases firstMapped : mapped first
  · by_cases secondMapped : mapped second
    · rw [display_v6, if_pos firstMapped, display_v6, if_pos secondMapped] at same
      exact mapped_injective firstMapped secondMapped
        (dottedQuad_injective (List.append_cancel_left same))
    · exact absurd same (mixed firstMapped secondMapped)
  · by_cases secondMapped : mapped second
    · exact absurd same.symm (mixed secondMapped firstMapped)
    · rw [display_v6, if_neg firstMapped, display_v6, if_neg secondMapped] at same
      exact ipv6Segments_injective
        (segmentsText_injective (length_ipv6Segments _) (length_ipv6Segments _) same)

theorem display_v4_ne_v6 (quad : BitVec 32) (octets : BitVec 128) :
    (IpAddr.v4 quad).display ≠ (IpAddr.v6 octets).display := by
  intro same
  have dot : '.' ∈ (IpAddr.v6 octets).display := by
    rw [← same]
    exact dot_mem_dottedQuad quad
  have colon : ':' ∉ (IpAddr.v6 octets).display := by
    rw [← same]
    exact colon_not_mem_dottedQuad quad
  rw [display_v6] at dot colon
  split at dot
  · rename_i isMapped
    rw [if_pos isMapped] at colon
    exact colon (by simp)
  · exact dot_not_mem_segmentsText _ dot

theorem IpAddr.display_injective {first second : IpAddr} (same : first.display = second.display) :
    first = second := by
  cases first with
  | v4 quad =>
      cases second with
      | v4 other => rw [dottedQuad_injective same]
      | v6 octets => exact absurd same (display_v4_ne_v6 quad octets)
  | v6 octets =>
      cases second with
      | v4 quad => exact absurd same.symm (display_v4_ne_v6 quad octets)
      | v6 other => rw [display_v6_injective same]

end Rusmes
