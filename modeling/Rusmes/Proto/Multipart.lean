import Rusmes.Library.Splitting
import Rusmes.Proto.Repeated

/-!
Multipart bodies: `split_multipart` of `mime.rs`, which looks for its markers at every
octet, and the text that parts are written into.
-/

namespace Rusmes

open WireText

structure MimePart where
  headers : HeaderTable
  body : Octets

def skipLine (rest : Octets) : Octets :=
  (rest.dropWhile (· ≠ 10)).tail

def firstBoundary (startMarker : Octets) : Octets → Octets
  | [] => []
  | octet :: rest =>
      if startMarker <+: octet :: rest then skipLine ((octet :: rest).drop startMarker.length)
      else firstBoundary startMarker rest

/-- The data before the next marker, whether it is the end marker, and what begins with it. -/
def nextBoundary (startMarker endMarker : Octets) : Octets → Option (Octets × Bool × Octets)
  | [] => none
  | octet :: rest =>
      if endMarker <+: octet :: rest then some ([], true, octet :: rest)
      else if startMarker <+: octet :: rest then some ([], false, octet :: rest)
      else
        (nextBoundary startMarker endMarker rest).map fun found =>
          (octet :: found.1, found.2)

def trimNewlines : Octets → Octets
  | 10 :: 13 :: rest => trimNewlines rest
  | 10 :: rest => trimNewlines rest
  | rest => rest

def trimTrailingCrlf (data : Octets) : Octets :=
  (trimNewlines data.reverse).reverse

def readPart (letters : CaseMapping) (data : Octets) : MimePart :=
  let (headers, headersEnd) := parseHeaders letters data
  ⟨headers, trimTrailingCrlf (data.drop headersEnd)⟩

theorem nextBoundary_shorter {startMarker endMarker rest data found : Octets} {isEnd : Bool}
    (next : nextBoundary startMarker endMarker rest = some (data, isEnd, found)) :
    found ≠ [] ∧ found.length ≤ rest.length := by
  induction rest generalizing data with
  | nil => cases next
  | cons octet rest ih =>
      rw [nextBoundary] at next
      split at next
      · cases next
        exact ⟨List.cons_ne_nil _ _, Nat.le_refl _⟩
      · split at next
        · cases next
          exact ⟨List.cons_ne_nil _ _, Nat.le_refl _⟩
        · obtain ⟨⟨before, later⟩, inside, same⟩ := Option.map_eq_some_iff.mp next
          cases same
          have shorter := ih inside
          exact ⟨shorter.1, Nat.le_succ_of_le shorter.2⟩

theorem skipLine_length (rest : Octets) : (skipLine rest).length ≤ rest.length := by
  rw [skipLine, List.length_tail]
  have shorter := (List.dropWhile_suffix (fun octet : UInt8 => octet ≠ 10) (l := rest)).length_le
  omega

def startMarker (boundary : Text) : Octets := 45 :: 45 :: encodeUtf8 boundary

def endMarker (boundary : Text) : Octets := startMarker boundary ++ [45, 45]

def splitParts (letters : CaseMapping) (boundary : Text) (rest : Octets) : List MimePart :=
  match _next : nextBoundary (startMarker boundary) (endMarker boundary) rest with
  | none => []
  | some (data, isEnd, found) =>
      readPart letters data ::
        if isEnd then []
        else splitParts letters boundary (skipLine (found.drop (startMarker boundary).length))
termination_by rest.length
decreasing_by
  have shorter := nextBoundary_shorter _next
  have positive := List.length_pos_iff.mpr shorter.1
  refine Nat.lt_of_le_of_lt (skipLine_length _) ?_
  rw [List.length_drop, startMarker, List.length_cons]
  omega

def splitMultipart (letters : CaseMapping) (body : Octets) (boundary : Text) : List MimePart :=
  splitParts letters boundary (firstBoundary (startMarker boundary) body)

structure WrittenPart where
  fields : List HeaderField
  body : Octets
  distinct : (fields.map fun field => field.name.map Char.toLower).Nodup

def WrittenPart.text (part : WrittenPart) : Octets :=
  fieldBlock part.fields ++ (part.body ++ [13, 10])

def assembleMultipart (boundary : Text) : List WrittenPart → Octets
  | [] => startMarker boundary ++ [45, 45, 13, 10]
  | part :: parts =>
      startMarker boundary ++ 13 :: 10 :: (part.text ++ assembleMultipart boundary parts)

/-- The fields, under their lower-case names, and the octets of the body. -/
def WrittenPart.Kept (written : WrittenPart) (part : MimePart) : Prop :=
  (∀ name value, part.headers.lookup name = some value ↔
    ∃ field ∈ written.fields, field.name.map Char.toLower = name ∧ field.value = value) ∧
    part.body = written.body

def SplitUndone (letters : CaseMapping) (boundary : Text) (parts : List WrittenPart) : Prop :=
  List.Forall₂ WrittenPart.Kept parts
    (splitMultipart letters (assembleMultipart boundary parts) boundary)

/-- The delimiter behind the part is the first one, and the body has no line end before it. -/
structure WrittenPart.Plain (boundary : Text) (part : WrittenPart) : Prop where
  apart : Apart (startMarker boundary) part.text
  unended : part.body.getLast? ≠ some 10

theorem trimNewlines_shorter (data : Octets) : (trimNewlines data).length ≤ data.length := by
  fun_induction trimNewlines data with
  | case1 rest ih =>
      simp only [List.length_cons]
      omega
  | case2 rest other ih =>
      simp only [List.length_cons]
      omega
  | case3 => exact Nat.le_refl _

theorem trimTrailingCrlf_shorter (data : Octets) :
    (trimTrailingCrlf data).length ≤ data.length := by
  have shorter := trimNewlines_shorter data.reverse
  rw [List.length_reverse] at shorter
  rwa [trimTrailingCrlf, List.length_reverse]

theorem trimTrailingCrlf_crlf (body : Octets) :
    trimTrailingCrlf (body ++ [13, 10]) = trimTrailingCrlf body := by
  simp [trimTrailingCrlf, trimNewlines]

theorem trimNewlines_eq_iff (data : Octets) : trimNewlines data = data ↔ data.head? ≠ some 10 := by
  fun_cases trimNewlines data with
  | case1 rest =>
      have shorter := trimNewlines_shorter rest
      constructor
      · intro same
        rw [same, List.length_cons, List.length_cons] at shorter
        omega
      · intro unended
        exact absurd rfl unended
  | case2 rest other =>
      have shorter := trimNewlines_shorter rest
      constructor
      · intro same
        rw [same, List.length_cons] at shorter
        omega
      · intro unended
        exact absurd rfl unended
  | case3 _ _ alone =>
      constructor
      · rintro - ended
        obtain ⟨rest, rfl⟩ := List.head?_eq_some_iff.mp ended
        exact alone rest rfl
      · intro _
        rfl

theorem trimTrailingCrlf_eq_iff (body : Octets) :
    trimTrailingCrlf body = body ↔ body.getLast? ≠ some 10 := by
  have ends := trimNewlines_eq_iff body.reverse
  rw [List.head?_reverse] at ends
  rw [← ends, trimTrailingCrlf, List.reverse_eq_iff]

theorem nextBoundary_text {startMarker endMarker rest : Octets} (nonempty : startMarker ≠ [])
    (longer : startMarker <+: endMarker) (starts : startMarker <+: rest) (text : Octets) :
    Apart startMarker text ∧ nextBoundary startMarker endMarker (text ++ rest) =
        some (text, decide (endMarker <+: rest), rest) ∨
      ¬Apart startMarker text ∧ ∃ count, count < text.length ∧ text[count]? = startMarker.head? ∧
        ∃ following, nextBoundary startMarker endMarker (text ++ rest) =
          some (text.take count, following) := by
  induction text with
  | nil =>
      left
      obtain ⟨first, more, rfl⟩ := List.exists_cons_of_ne_nil (starts.ne_nil nonempty)
      refine ⟨apart_nil nonempty, ?_⟩
      rw [List.nil_append, nextBoundary]
      by_cases ends : endMarker <+: first :: more
      · rw [if_pos ends, decide_eq_true ends]
      · rw [if_neg ends, if_pos starts, decide_eq_false ends]
  | cons octet text ih =>
      rw [apart_cons nonempty, ← prefix_behind starts, List.cons_append, nextBoundary]
      by_cases here : startMarker <+: octet :: (text ++ rest)
      · right
        obtain ⟨first, more, rfl⟩ := List.exists_cons_of_ne_nil nonempty
        refine ⟨fun both => both.1 here, 0, Nat.zero_lt_succ _, ?_, ?_⟩
        · rw [(List.cons_prefix_cons.mp here).1]
          rfl
        · by_cases ends : endMarker <+: octet :: (text ++ rest)
          · exact ⟨_, if_pos ends⟩
          · exact ⟨_, (if_neg ends).trans (if_pos here)⟩
      · have unended : ¬endMarker <+: octet :: (text ++ rest) := fun ends => here (longer.trans ends)
        rw [if_neg here, if_neg unended]
        rcases ih with ⟨apart, found⟩ | ⟨within, count, short, begins, following, found⟩
        · exact Or.inl ⟨⟨here, apart⟩, by rw [found]; rfl⟩
        · exact Or.inr ⟨fun both => within both.2, count + 1, Nat.succ_lt_succ short, begins,
            following, by rw [found]; rfl⟩

section Part

variable (letters : CaseMapping) (written : WrittenPart)

theorem lowercase_field (field : HeaderField) :
    letters.toLowercase field.name = field.name.map Char.toLower := by
  apply letters.lowercase_ascii
  intro character member
  have bound := (field.token character member).2.1
  omega

theorem lookup_fields {fields : List HeaderField}
    (distinct : (fields.map fun field => field.name.map Char.toLower).Nodup) (name value : Text) :
    (storeFields ∅ (fields.map fun field => (letters.toLowercase field.name, field.value))).lookup
        name = some value ↔
      ∃ field ∈ fields, field.name.map Char.toLower = name ∧ field.value = value := by
  simp only [lowercase_field]
  rw [lookup_storeFields_nodup (by rwa [List.map_map]), List.mem_map]
  simp only [Prod.mk.injEq]

theorem readPart_text :
    written.Kept (readPart letters written.text) ↔ written.body.getLast? ≠ some 10 := by
  have table : ∀ name value, (readPart letters written.text).headers.lookup name = some value ↔
      ∃ field ∈ written.fields, field.name.map Char.toLower = name ∧ field.value = value := by
    intro name value
    rw [← lookup_fields letters written.distinct, ← parseHeaders_fieldBlock letters]
    rfl
  have body : (readPart letters written.text).body = trimTrailingCrlf written.body := by
    have behind : written.text.drop (parseHeaders letters written.text).2 =
        written.body ++ [13, 10] := by
      rw [WrittenPart.text, parseHeaders_offset, List.drop_left]
    exact (congrArg trimTrailingCrlf behind).trans (trimTrailingCrlf_crlf written.body)
  rw [← trimTrailingCrlf_eq_iff, ← body]
  exact and_iff_right table

theorem readPart_fields {count : Nat} (short : count < (fieldLines written.fields).length) :
    ¬written.Kept (readPart letters ((fieldLines written.fields).take count)) := by
  rintro ⟨kept, -⟩
  obtain ⟨found, bound, lines⟩ := completeLines_cut short
  have table : (readPart letters ((fieldLines written.fields).take count)).headers =
      storeFields ∅ ((written.fields.take found).map fun field =>
        (letters.toLowercase field.name, field.value)) := by
    have parsed := parseFrom_fields letters ∅ none ((fieldLines written.fields).take count)
    rw [lines, joinedFields_lines] at parsed
    exact parsed
  have distinct := written.distinct
  rw [← List.take_append_drop found written.fields, List.map_append] at distinct
  have missing : written.fields[found] ∈ written.fields := List.getElem_mem bound
  obtain ⟨field, member, same, -⟩ := (lookup_fields letters distinct.of_append_left _ _).mp
    (table ▸ (kept _ _).mpr ⟨_, missing, rfl, rfl⟩)
  have later : written.fields[found] ∈ written.fields.drop found := by
    rw [List.drop_eq_getElem_cons bound]
    exact List.mem_cons_self
  have first := List.mem_map_of_mem (f := fun field : HeaderField => field.name.map Char.toLower) member
  have second := List.mem_map_of_mem (f := fun field : HeaderField => field.name.map Char.toLower) later
  exact List.disjoint_of_nodup_append distinct first (same ▸ second)

theorem readPart_body {count : Nat} (short : count < written.body.length) :
    ¬written.Kept (readPart letters (fieldBlock written.fields ++ written.body.take count)) := by
  rintro ⟨-, same⟩
  have cut : (readPart letters (fieldBlock written.fields ++ written.body.take count)).body =
      trimTrailingCrlf (written.body.take count) := by
    have behind : (fieldBlock written.fields ++ written.body.take count).drop
        (parseHeaders letters (fieldBlock written.fields ++ written.body.take count)).2 =
          written.body.take count := by
      rw [parseHeaders_offset, List.drop_left]
    exact congrArg trimTrailingCrlf behind
  have shorter := trimTrailingCrlf_shorter (written.body.take count)
  rw [← cut, same, List.length_take] at shorter
  omega

theorem readPart_cut {count : Nat} (hyphen : written.text[count]? = some 45) :
    ¬written.Kept (readPart letters (written.text.take count)) := by
  have block : fieldBlock written.fields = fieldLines written.fields ++ [13, 10] := rfl
  have foreign : ∀ position : Nat, ([13, 10] : Octets)[position]? ≠ some 45 := by
    intro position found
    exact absurd (List.mem_of_getElem? found) (by decide)
  rw [WrittenPart.text] at hyphen ⊢
  by_cases fields : count < (fieldLines written.fields).length
  · rw [block, List.append_assoc, List.take_append_of_le_length (Nat.le_of_lt fields)]
    exact readPart_fields letters written fields
  · by_cases head : count < (fieldBlock written.fields).length
    · rw [List.getElem?_append_left head, block,
        List.getElem?_append_right (Nat.le_of_not_lt fields)] at hyphen
      exact absurd hyphen (foreign _)
    · obtain ⟨more, rfl⟩ := Nat.exists_eq_add_of_le (Nat.le_of_not_lt head)
      rw [List.getElem?_append_right (Nat.le_add_right _ _), Nat.add_sub_cancel_left] at hyphen
      have short : more < written.body.length := by
        by_contra long
        rw [List.getElem?_append_right (Nat.le_of_not_lt long)] at hyphen
        exact foreign _ hyphen
      rw [List.take_length_add_append, List.take_append_of_le_length (Nat.le_of_lt short)]
      exact readPart_body letters written short

end Part

/-! All parts. -/

section Parts

variable (letters : CaseMapping) (boundary : Text)

theorem assembleMultipart_starts (parts : List WrittenPart) :
    startMarker boundary <+: assembleMultipart boundary parts := by
  cases parts with
  | nil => exact List.prefix_append _ _
  | cons part parts => exact List.prefix_append _ _

theorem endMarker_assemble (parts : List WrittenPart) :
    endMarker boundary <+: assembleMultipart boundary parts ↔ parts = [] := by
  cases parts with
  | nil => exact iff_of_true ⟨[13, 10], by simp [endMarker, assembleMultipart]⟩ rfl
  | cons part parts =>
      refine iff_of_false ?_ (List.cons_ne_nil _ _)
      rw [endMarker, assembleMultipart, List.prefix_append_right_inj]
      rintro ⟨rest, same⟩
      cases same

def behindDelimiter (parts : List WrittenPart) : Octets :=
  skipLine ((assembleMultipart boundary parts).drop (startMarker boundary).length)

theorem behindDelimiter_nil : behindDelimiter boundary [] = [] := by
  rw [behindDelimiter, assembleMultipart, List.drop_left]
  rfl

theorem behindDelimiter_cons (part : WrittenPart) (parts : List WrittenPart) :
    behindDelimiter boundary (part :: parts) = part.text ++ assembleMultipart boundary parts := by
  rw [behindDelimiter, assembleMultipart, List.drop_left]
  rfl

theorem splitMultipart_assemble (parts : List WrittenPart) :
    splitMultipart letters (assembleMultipart boundary parts) boundary =
      splitParts letters boundary (behindDelimiter boundary parts) := by
  have starts := assembleMultipart_starts boundary parts
  rw [splitMultipart, behindDelimiter]
  cases shape : assembleMultipart boundary parts with
  | nil =>
      rw [shape, startMarker] at starts
      cases List.prefix_nil.mp starts
  | cons octet rest =>
      rw [shape] at starts
      rw [firstBoundary, if_pos starts]

theorem splitParts_next {rest data found : Octets} {isEnd : Bool}
    (next : nextBoundary (startMarker boundary) (endMarker boundary) rest =
      some (data, isEnd, found)) :
    splitParts letters boundary rest = readPart letters data ::
      if isEnd then []
      else splitParts letters boundary (skipLine (found.drop (startMarker boundary).length)) := by
  rw [splitParts]
  split
  · rename_i none
    rw [next] at none
    cases none
  · rename_i data' isEnd' found' same
    rw [next] at same
    cases same
    rfl

theorem splitParts_nil : splitParts letters boundary [] = [] := by
  rw [splitParts]
  rfl

theorem splitParts_cons (part : WrittenPart) (parts : List WrittenPart) :
    Apart (startMarker boundary) part.text ∧
        splitParts letters boundary (behindDelimiter boundary (part :: parts)) =
          readPart letters part.text ::
            splitParts letters boundary (behindDelimiter boundary parts) ∨
      ¬Apart (startMarker boundary) part.text ∧ ∃ first others,
        splitParts letters boundary (behindDelimiter boundary (part :: parts)) = first :: others ∧
          ¬part.Kept first := by
  have starts := assembleMultipart_starts boundary parts
  have longer : startMarker boundary <+: endMarker boundary := List.prefix_append _ _
  rw [behindDelimiter_cons]
  rcases nextBoundary_text (List.cons_ne_nil _ _) longer starts part.text with
    ⟨apart, found⟩ | ⟨within, count, short, hyphen, ⟨isEnd, rest⟩, found⟩
  · left
    refine ⟨apart, ?_⟩
    rw [splitParts_next letters boundary found]
    by_cases last : parts = []
    · rw [decide_eq_true ((endMarker_assemble boundary parts).mpr last), last,
        behindDelimiter_nil, splitParts_nil]
      rfl
    · rw [decide_eq_false (mt (endMarker_assemble boundary parts).mp last)]
      rfl
  · right
    exact ⟨within, _, _, splitParts_next letters boundary found,
      readPart_cut letters part hyphen⟩

theorem splitUndone_iff (parts : List WrittenPart) :
    SplitUndone letters boundary parts ↔ ∀ part ∈ parts, part.Plain boundary := by
  rw [SplitUndone, splitMultipart_assemble]
  induction parts with
  | nil => simp [behindDelimiter_nil, splitParts_nil]
  | cons part parts ih =>
      have plain : part.Plain boundary ↔ Apart (startMarker boundary) part.text ∧
          part.Kept (readPart letters part.text) := by
        rw [readPart_text]
        exact ⟨fun plain => ⟨plain.apart, plain.unended⟩, fun both => ⟨both.1, both.2⟩⟩
      rw [List.forall_mem_cons, plain, ← ih]
      rcases splitParts_cons letters boundary part parts with
        ⟨apart, split⟩ | ⟨within, first, others, split, lost⟩
      · rw [split, List.forall₂_cons, and_iff_right apart]
      · rw [split, List.forall₂_cons]
        exact iff_of_false (fun both => lost both.1) fun both => within both.1.1

variable {letters boundary}

theorem SplitUndone.bodies {parts : List WrittenPart} (undone : SplitUndone letters boundary parts) :
    (splitMultipart letters (assembleMultipart boundary parts) boundary).map MimePart.body =
      parts.map WrittenPart.body := by
  rw [SplitUndone] at undone
  generalize splitMultipart letters (assembleMultipart boundary parts) boundary = found at undone ⊢
  induction undone with
  | nil => rfl
  | cons kept others ih => rw [List.map_cons, List.map_cons, ih, kept.2]

end Parts

def oneLine : WrittenPart := ⟨[], [97, 10], List.nodup_nil⟩

/-- The line feed at the end of a body is lost; none of its lines starts with the marker. -/
theorem oneLine_cut : (∀ line ∈ splitLines oneLine.body, ¬startMarker ['b'] <+: line) ∧
    ¬SplitUndone asciiCase ['b'] [oneLine] := by
  constructor
  · decide +kernel
  · intro undone
    have cut : (splitMultipart asciiCase (assembleMultipart ['b'] [oneLine]) ['b']).map
        MimePart.body = [[97]] := by decide +kernel
    rw [undone.bodies] at cut
    exact absurd cut (by decide)

end Rusmes
