import Rusmes.Core.DkimTags

/-!
Signature fields of a given form, a list of keys with their values. A field of the form reads as the
form says, tag by tag.
-/

namespace Rusmes

open WireText Recognizer

def tagText (form : List (Text × Text)) : Text :=
  joinWith [';', ' '] (form.map fun entry => entry.1 ++ '=' :: entry.2)

/-- A tag reads as an entry of a form; that of the signature may have any value. -/
def TagReads (tag : Octets) (entry : Text × Text) : Prop :=
  ∃ rest, OpensWith tag entry.1 rest ∧ (entry.1 ≠ ['b'] → ∃ found, rest = encodeUtf8 found ∧
    PlainText found ∧ splitWhitespace found = splitWhitespace entry.2)

section Form

variable {form : List (Text × Text)}

theorem takeWhile_equals {first : Octets} (absent : 61 ∉ first) (rest : Octets) :
    (first ++ 61 :: rest).takeWhile (· ≠ 61) = first := by
  have front : ∀ octet ∈ first, decide (octet ≠ 61) = true := by
    intro octet member
    exact decide_eq_true fun same => absent (same ▸ member)
  rw [List.takeWhile_append_of_pos front, List.takeWhile_cons_of_neg (by simp), List.append_nil]

theorem tagReads_of_words {tag : Octets} {entry : Text × Text} (proper : TagKey entry.1)
    (same : wordsBy isBlank (withoutSignature tag) =
      (splitWhitespace (entry.1 ++ '=' :: entry.2)).map encodeUtf8) : TagReads tag entry := by
  obtain ⟨found, opens, plain, words⟩ := opens_of_words proper same
  have named := (opens.name proper).2.1
  rw [withoutSignature] at opens named
  split at opens
  · rename_i signature
    obtain ⟨first, rest, rfl, absent⟩ := List.eq_append_cons_of_mem signature.1
    obtain ⟨before, whole, spaces⟩ := opens
    have plainKey := plain_key proper spaces
    have other : 61 ∉ encodeUtf8 (before ++ entry.1) :=
      fun inside => plainKey.2 ((@ascii_mem_encodeUtf8 '=' (by decide) _).mp inside)
    have sameName : tagName (first ++ [61]) = tagName (first ++ 61 :: rest) := by
      rw [tagName, tagName, takeWhile_equals absent, takeWhile_equals absent]
    rw [if_pos signature, takeWhile_equals absent, sameName, signature.2] at named
    rw [takeWhile_equals absent] at whole
    have front : first = encodeUtf8 (before ++ entry.1) := by
      rw [← takeWhile_equals absent [], whole, takeWhile_equals other]
    have letter : encodeUtf8 ['b'] = [98] := by decide
    have key : entry.1 = ['b'] := encodeUtf8_injective (named.symm.trans letter.symm)
    exact ⟨rest, ⟨before, by rw [front], spaces⟩, fun different => absurd key different⟩
  · exact ⟨_, opens, fun _ => ⟨found, rfl, plain, words⟩⟩

theorem tags_of_form (nonempty : form ≠ [])
    (proper : ∀ entry ∈ form, TagKey entry.1 ∧ PlainText entry.2 ∧ ';' ∉ entry.2) {value : Octets}
    (same : relaxValue (removeSignature value) = encodeUtf8 (tagText form)) :
    List.Forall₂ TagReads (value.splitOn 59) form := by
  have words : wordsBy isBlank (removeSignature value) = wordsBy isBlank (encodeUtf8 (tagText form)) := by
    rw [← same, relaxValue, wordsBy_squeeze rfl]
  have cut := @splitOn_words _ _ _ 32 59 rfl rfl _ _ words
  have whole : ∀ entry ∈ form, ';' ∉ entry.1 ++ '=' :: entry.2 := by
    intro entry member inside
    obtain ⟨key, -, plain⟩ := proper entry member
    rcases List.mem_append.mp inside with early | late
    · exact (key.2 _ early).2.2 rfl
    · exact plain ((List.mem_cons.mp late).resolve_left (by decide))
  have plain : ∀ entry ∈ form, PlainText (entry.1 ++ '=' :: entry.2) := by
    intro entry member character inside white
    obtain ⟨key, content, -⟩ := proper entry member
    rcases List.mem_append.mp inside with early | late
    · rw [(key.2 character early).1] at white
      cases white
    · rcases List.mem_cons.mp late with rfl | later
      · cases white
      · exact content character later white
  have left : (removeSignature value).splitOn 59 = (value.splitOn 59).map withoutSignature := by
    have pieces : (value.splitOn 59).map withoutSignature ≠ [] := by
      simp
    refine List.splitOn_intercalate 59 ?_ pieces
    intro tag member
    obtain ⟨piece, among, rfl⟩ := List.mem_map.mp member
    have absent := (piece_of_splitOn among).1
    rw [withoutSignature]
    split
    · simp only [List.mem_append, List.mem_singleton, not_or]
      exact ⟨fun inside => absent ((List.takeWhile_prefix _).subset inside), by decide⟩
    · exact absent
  have right : ((encodeUtf8 (tagText form)).splitOn 59).map (wordsBy isBlank) =
      form.map fun entry => (splitWhitespace (entry.1 ++ '=' :: entry.2)).map encodeUtf8 := by
    obtain ⟨first, others, rfl⟩ := List.exists_cons_of_ne_nil nonempty
    rw [List.forall_mem_cons] at whole
    rw [List.forall_mem_cons] at plain
    have blank : ∀ part, wordsBy isBlank (encodeUtf8 (' ' :: part)) = wordsBy isBlank (encodeUtf8 part) := by
      intro part
      rw [encodeUtf8_cons_ascii (by decide)]
      exact @wordsBy_blanks _ isBlank [32] (List.forall_mem_singleton.mpr rfl) _
    have texts := splitOn_spaced (by decide) whole.1
      (List.forall_mem_map.mpr whole.2)
    have octets := @encode_splitOn ';' (by decide) (tagText (first :: others))
    have code : UInt8.ofNat ';'.toNat = 59 := by decide
    rw [code, tagText, List.map_cons, texts] at octets
    rw [tagText, List.map_cons, octets, List.map_cons, List.map_cons, List.map_map, List.map_map,
      List.map_map, List.map_cons,
      wordsBy_encode_plain plain.1]
    refine congrArg _ (List.map_congr_left fun entry member => ?_)
    exact (blank (entry.1 ++ '=' :: entry.2)).trans (wordsBy_encode_plain (plain.2 entry member))
  rw [left, right, List.map_map] at cut
  clear left right words same whole plain nonempty
  generalize value.splitOn 59 = tags at cut
  induction form generalizing tags with
  | nil =>
      rw [List.map_nil, List.map_eq_nil_iff] at cut
      rw [cut]
      exact List.Forall₂.nil
  | cons entry form ih =>
      rw [List.forall_mem_cons] at proper
      rw [List.map_cons, List.map_eq_cons_iff] at cut
      obtain ⟨tag, rest, rfl, first, later⟩ := cut
      exact List.Forall₂.cons (tagReads_of_words proper.1.1 first) (ih proper.2 rest later)

theorem tag_found {value : Octets} (reads : List.Forall₂ TagReads (value.splitOn 59) form)
    (proper : ∀ entry ∈ form, TagKey entry.1) (distinct : (form.map Prod.fst).Nodup)
    (unbroken : 10 ∉ value) {entry : Text × Text} (member : entry ∈ form) :
    ∃ tag rest, ((value.splitOn 59).find? fun tag => 61 ∈ tag ∧ tagName tag = encodeUtf8 entry.1) =
        some tag ∧ OpensWith tag entry.1 rest ∧
      (tagParams (fieldText value)).lookup entry.1 = some (trim (fieldText rest)) ∧
      (entry.1 ≠ ['b'] → ∃ found, rest = encodeUtf8 found ∧ PlainText found ∧
        splitWhitespace found = splitWhitespace entry.2) := by
  have whole : ∀ tag ∈ value.splitOn 59, 10 ∉ tag :=
    fun tag among inside => unbroken ((piece_of_splitOn among).2 inside)
  rw [tagParams_fieldText unbroken]
  generalize value.splitOn 59 = tags at reads whole
  have keys : (tags.filterMap readTag).map Prod.fst = form.map Prod.fst := by
    clear member distinct
    induction reads with
    | nil => rfl
    | cons first reads ih =>
        rw [List.forall_mem_cons] at proper whole
        obtain ⟨rest, opens, -⟩ := first
        rw [List.filterMap_cons_some (opens.read proper.1 whole.1), List.map_cons, List.map_cons,
          ih proper.2 whole.2]
  have nodup := distinct
  rw [← keys] at nodup
  have search : ∃ tag, tags.find? (fun tag => 61 ∈ tag ∧ tagName tag = encodeUtf8 entry.1) = some tag ∧
      TagReads tag entry := by
    clear nodup keys whole
    induction reads with
    | nil => cases member
    | cons first reads ih =>
        rw [List.forall_mem_cons] at proper
        rw [List.map_cons, List.nodup_cons] at distinct
        obtain ⟨equals, named, -⟩ := first.choose_spec.1.name proper.1
        rcases List.mem_cons.mp member with rfl | later
        · exact ⟨_, List.find?_cons_of_pos (by simp [equals, named]), first⟩
        · obtain ⟨tag, found, same⟩ := ih proper.2 distinct.2 later
          refine ⟨tag, ?_, same⟩
          rw [List.find?_cons_of_neg, found]
          rw [decide_eq_true_eq, named]
          rintro ⟨-, equal⟩
          rw [encodeUtf8_injective equal] at distinct
          exact distinct.1 (List.mem_map_of_mem later)
  obtain ⟨tag, found, rest, opens, content⟩ := search
  have among := List.mem_of_find?_eq_some found
  refine ⟨tag, rest, found, opens, (lookup_storeFields_nodup nodup).mpr ?_, content⟩
  exact List.mem_filterMap.mpr ⟨tag, among, opens.read (proper entry member) (whole tag among)⟩

end Form

end Rusmes
