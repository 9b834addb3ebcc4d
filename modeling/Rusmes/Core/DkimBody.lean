import Rusmes.Library.CrlfLines
import Rusmes.Proto.Scanner

/-!
The body canonicalization of `dkim_verify.rs`.
-/

namespace Rusmes

open WireText

def isBlank (octet : UInt8) : Bool := octet = 32 || octet = 9

def isLineEnd (octet : UInt8) : Bool := isBlank octet || octet = 13

/-- The runs of blanks are reduced to a space each; the first one may have begun before. -/
def collapseBlanks : Bool → Octets → Octets
  | _, [] => []
  | prevWasSpace, octet :: rest =>
      if isBlank octet then
        if prevWasSpace then collapseBlanks true rest else 32 :: collapseBlanks true rest
      else octet :: collapseBlanks false rest

def canonicalizeLine (line : Octets) : Octets :=
  collapseBlanks false (line.rdropWhile isLineEnd)

def canonicalizeRelaxed (body : Octets) : Octets :=
  endEach (((body.splitOn 10).rdropWhile fun line => line.all isLineEnd).map canonicalizeLine)

/-- The trailing line ends are taken off; the body is given from its last octet on. -/
def dropTrailingEnds : Octets → Octets
  | 10 :: 13 :: rest => dropTrailingEnds rest
  | 10 :: octet :: rest => dropTrailingEnds (octet :: rest)
  | rest => rest

def canonicalizeSimple (body : Octets) : Octets :=
  (dropTrailingEnds body.reverse).reverse ++ [13, 10]

def canonicalizeBody (letters : CaseMapping) (messageData : Octets) (method : Text) : Octets :=
  let bodyOffset := (parseHeaders letters messageData).2
  if messageData.length ≤ bodyOffset then []
  else
    let body := messageData.drop bodyOffset
    if method = "relaxed".toList then canonicalizeRelaxed body else canonicalizeSimple body

def blankToSpace (octet : UInt8) : UInt8 := if isBlank octet then 32 else octet

def SpacesApart (first second : UInt8) : Prop := first ≠ 32 ∨ second ≠ 32

instance : DecidableRel SpacesApart := fun first second =>
  inferInstanceAs (Decidable (first ≠ 32 ∨ second ≠ 32))

def relaxLine (line : Octets) : Octets :=
  ((line.rdropWhile isBlank).map blankToSpace).destutter SpacesApart

def simpleForm (body : Octets) : Octets :=
  let lines := (crlfCut body).rdropWhile (· = [])
  if lines = [] then [13, 10] else endEach lines

def relaxedForm (body : Octets) : Octets :=
  endEach (((crlfCut body).map relaxLine).rdropWhile (· = []))

structure BodyCanonical (letters : CaseMapping) (message body : Octets) : Prop where
  simple : canonicalizeBody letters message "simple".toList = simpleForm body
  relaxed : canonicalizeBody letters message "relaxed".toList = relaxedForm body
  twice : ∀ method ∈ ["simple".toList, "relaxed".toList], ∀ again offset,
    BodyStart again offset → again.drop offset = canonicalizeBody letters message method →
      canonicalizeBody letters again method = canonicalizeBody letters message method

theorem destutter'_head (first : UInt8) (rest : Octets) :
    rest.destutter' SpacesApart first = first :: (rest.destutter' SpacesApart first).tail := by
  induction rest with
  | nil => rfl
  | cons second rest ih =>
      rw [List.destutter'_cons]
      split
      · rfl
      · exact ih

theorem destutter'_apart {first : UInt8} (solid : first ≠ 32) (rest : Octets) :
    rest.destutter' SpacesApart first = first :: rest.destutter SpacesApart := by
  cases rest with
  | nil => rfl
  | cons second rest => rw [List.destutter'_cons, if_pos (.inl solid), List.destutter_cons']

theorem collapseBlanks_eq (prevWasSpace : Bool) (line : Octets) :
    collapseBlanks prevWasSpace line =
      if prevWasSpace then ((line.map blankToSpace).destutter' SpacesApart 32).tail
      else (line.map blankToSpace).destutter SpacesApart := by
  induction line generalizing prevWasSpace with
  | nil => cases prevWasSpace <;> rfl
  | cons octet rest ih =>
      rw [collapseBlanks, List.map_cons, List.destutter_cons', List.destutter'_cons, blankToSpace]
      cases blank : isBlank octet with
      | true =>
          have together : ¬SpacesApart 32 32 := by simp [SpacesApart]
          simp only [if_true, if_neg together, ih, ← destutter'_head]
      | false =>
          have solid : octet ≠ 32 := by
            rintro rfl
            cases blank
          have apart : SpacesApart 32 octet := Or.inr solid
          simp only [Bool.false_eq_true, if_false, if_pos apart, List.tail_cons, ih,
            destutter'_apart solid, ite_self]

theorem collapseBlanks_false (line : Octets) :
    collapseBlanks false line = (line.map blankToSpace).destutter SpacesApart := by
  rw [collapseBlanks_eq, if_neg (by simp)]

theorem canonicalizeLine_ended {line : Octets} :
    canonicalizeLine (line ++ [13]) = canonicalizeLine line := by
  rw [canonicalizeLine, canonicalizeLine, List.rdropWhile_concat_pos _ _ _ (by rfl)]

theorem canonicalizeLine_eq {line : Octets} (whole : 13 ∉ line) :
    canonicalizeLine line = relaxLine line := by
  have same : line.rdropWhile isLineEnd = line.rdropWhile isBlank := by
    induction line using List.reverseRecOn with
    | nil => rfl
    | append_singleton line octet ih =>
        rw [List.mem_append, List.mem_singleton, not_or] at whole
        rw [List.rdropWhile_concat, List.rdropWhile_concat, ih whole.1]
        simp [isLineEnd, Ne.symm whole.2]
  rw [canonicalizeLine, relaxLine, same, collapseBlanks_false]

theorem canonicalizeLine_eq_nil {line : Octets} :
    canonicalizeLine line = [] ↔ line.all isLineEnd = true := by
  rw [canonicalizeLine, collapseBlanks_false, List.destutter_eq_nil, List.map_eq_nil_iff,
    List.rdropWhile_eq_nil_iff, List.all_eq_true]

theorem rdropWhile_map {α β : Type} (test : β → Bool) (change : α → β) (items : List α) :
    (items.map change).rdropWhile test = (items.rdropWhile (test ∘ change)).map change := by
  simp [List.rdropWhile, ← List.map_reverse, List.dropWhile_map]

theorem splitOn_endEach {lines : List Octets} {last : Octets}
    (unbroken : ∀ line ∈ lines ++ [last], Unbroken line) :
    (endEach lines ++ last).splitOn 10 = lines.map (· ++ [13]) ++ [last] := by
  induction lines with
  | nil => exact List.splitOn_eq_singleton (unbroken last (by simp)).2
  | cons line lines ih =>
      have shape : endEach (line :: lines) ++ last = (line ++ [13]) ++ 10 :: (endEach lines ++ last) := by
        simp [endEach]
      have whole : 10 ∉ line ++ [13] := by simp [(unbroken line (by simp)).2]
      rw [shape, List.splitOn_append_cons_self_of_not_mem whole,
        ih fun other member => unbroken other (List.mem_cons_of_mem _ member)]
      rfl

theorem canonicalizeRelaxed_eq {lines : List Octets} {last : Octets}
    (unbroken : ∀ line ∈ lines ++ [last], Unbroken line) :
    canonicalizeRelaxed (endEach lines ++ last) =
      endEach (((lines ++ [last]).map relaxLine).rdropWhile (· = [])) := by
  have empty : (fun line : Octets => line.all isLineEnd) =
      (fun line : Octets => decide (line = [])) ∘ canonicalizeLine := by
    funext line
    rw [Function.comp_apply, Bool.eq_iff_iff, decide_eq_true_eq, canonicalizeLine_eq_nil]
  have relaxed : (lines.map (· ++ [13]) ++ [last]).map canonicalizeLine =
      (lines ++ [last]).map relaxLine := by
    rw [List.map_append, List.map_append, List.map_map]
    congr 1
    · apply List.map_congr_left
      intro line member
      rw [Function.comp_apply, canonicalizeLine_ended,
        canonicalizeLine_eq (unbroken line (by simp [member])).1]
    · rw [List.map_singleton, List.map_singleton,
        canonicalizeLine_eq (unbroken last (by simp)).1]
  rw [canonicalizeRelaxed, splitOn_endEach unbroken, empty, ← rdropWhile_map, relaxed]

theorem dropTrailingEnds_last {body : Octets} {octet : UInt8} (plain : octet ≠ 10) :
    dropTrailingEnds (body ++ [octet]).reverse = (body ++ [octet]).reverse := by
  rw [List.reverse_append, List.reverse_singleton, List.singleton_append, dropTrailingEnds]
  · rintro rest same
    exact plain (List.cons.inj same).1
  · rintro other rest same
    exact plain (List.cons.inj same).1

theorem canonicalizeSimple_open (lines : List Octets) {last : Octets} (unbroken : Unbroken last)
    (nonempty : last ≠ []) :
    canonicalizeSimple (endEach lines ++ last) = endEach (lines ++ [last]) := by
  obtain ⟨front, octet, rfl⟩ := (List.eq_nil_or_concat' last).resolve_left nonempty
  have plain : octet ≠ 10 := by
    rintro rfl
    exact unbroken.2 (by simp)
  rw [canonicalizeSimple, ← List.append_assoc, dropTrailingEnds_last plain, List.reverse_reverse,
    endEach_concat]
  simp

theorem canonicalizeSimple_eq {lines : List Octets} {last : Octets}
    (unbroken : ∀ line ∈ lines ++ [last], Unbroken line) :
    canonicalizeSimple (endEach lines ++ last) =
      if (lines ++ [last]).rdropWhile (· = []) = [] then [13, 10]
      else endEach ((lines ++ [last]).rdropWhile (· = [])) := by
  induction lines using List.reverseRecOn generalizing last with
  | nil =>
      by_cases empty : last = []
      · subst empty
        rfl
      · rw [canonicalizeSimple_open [] (unbroken last (by simp)) empty,
          List.rdropWhile_concat_neg _ _ _ (by simpa using empty), if_neg (by simp)]
  | append_singleton lines line ih =>
      by_cases empty : last = []
      · subst empty
        have shorter : canonicalizeSimple (endEach (lines ++ [line]) ++ []) =
            canonicalizeSimple (endEach lines ++ line) := by
          simp [canonicalizeSimple, endEach_concat, dropTrailingEnds]
        rw [shorter, ih fun other member => unbroken other (List.mem_append_left _ member),
          List.rdropWhile_concat_pos _ _ [] (by simp)]
      · rw [canonicalizeSimple_open _ (unbroken last (by simp)) empty,
          List.rdropWhile_concat_neg _ _ _ (by simpa using empty), if_neg (by simp)]

theorem relaxLine_unbroken {line : Octets} (unbroken : Unbroken line) :
    Unbroken (relaxLine line) := by
  have each : ∀ octet, octet ≠ 32 → octet ∉ line → octet ∉ relaxLine line := by
    intro octet solid absent member
    obtain ⟨source, inside, same⟩ := List.mem_map.mp ((List.destutter_sublist _ _).subset member)
    rw [blankToSpace] at same
    split at same
    · exact solid same.symm
    · rw [same] at inside
      exact absent ((List.rdropWhile_prefix _ _).subset inside)
  exact ⟨each 13 (by decide) unbroken.1, each 10 (by decide) unbroken.2⟩

theorem collapseBlanks_concat (prevWasSpace : Bool) (line : Octets) {octet : UInt8}
    (solid : isBlank octet = false) :
    collapseBlanks prevWasSpace (line ++ [octet]) = collapseBlanks prevWasSpace line ++ [octet] := by
  induction line generalizing prevWasSpace with
  | nil => simp [collapseBlanks, solid]
  | cons first line ih =>
      rw [List.cons_append, collapseBlanks, collapseBlanks, ih, ih]
      split
      · split
        · rfl
        · rfl
      · rfl

theorem relaxLine_ends (line : Octets) :
    (relaxLine line).rdropWhile isBlank = relaxLine line := by
  rw [relaxLine, ← collapseBlanks_false]
  rcases List.eq_nil_or_concat' (line.rdropWhile isBlank) with empty | ⟨front, octet, shape⟩
  · rw [empty]
    rfl
  · have solid : isBlank octet = false := by
      have nonempty : line.rdropWhile isBlank ≠ [] := by simp [shape]
      have last := List.rdropWhile_last_not isBlank line nonempty
      simpa [shape] using last
    rw [shape, collapseBlanks_concat _ _ solid, List.rdropWhile_concat_neg _ _ _ (by simp [solid])]

theorem blankToSpace_idem (octet : UInt8) :
    blankToSpace (blankToSpace octet) = blankToSpace octet := by
  cases blank : isBlank octet with
  | true =>
      have space : blankToSpace octet = 32 := if_pos blank
      rw [space]
      rfl
  | false =>
      have same : blankToSpace octet = octet := if_neg (by simp [blank])
      rw [same, same]

theorem relaxLine_idem (line : Octets) : relaxLine (relaxLine line) = relaxLine line := by
  have spaces : (relaxLine line).map blankToSpace = relaxLine line := by
    refine (List.map_congr_left fun octet member => ?_).trans (List.map_id _)
    obtain ⟨source, -, rfl⟩ := List.mem_map.mp ((List.destutter_sublist _ _).subset member)
    exact blankToSpace_idem source
  have again : relaxLine (relaxLine line) = (relaxLine line).destutter SpacesApart := by
    rw [relaxLine, relaxLine_ends, spaces]
  rw [again, relaxLine, List.destutter_idem]

section Forms

variable {body : Octets}

theorem canonicalizeSimple_form (only : CrlfOnly body) :
    canonicalizeSimple body = simpleForm body := by
  obtain ⟨lines, last, rfl, unbroken⟩ := only.exists_lines
  have cut := @crlfCut_endEach lines last (fun line member => unbroken line (by simp [member]))
    (unbroken last (by simp)).1
  rw [canonicalizeSimple_eq unbroken, simpleForm, cut]

theorem canonicalizeRelaxed_form (only : CrlfOnly body) :
    canonicalizeRelaxed body = relaxedForm body := by
  obtain ⟨lines, last, rfl, unbroken⟩ := only.exists_lines
  have cut := @crlfCut_endEach lines last (fun line member => unbroken line (by simp [member]))
    (unbroken last (by simp)).1
  rw [canonicalizeRelaxed_eq unbroken, relaxedForm, cut]

theorem crlfCut_unbroken (only : CrlfOnly body) : ∀ line ∈ crlfCut body, Unbroken line := by
  obtain ⟨lines, last, rfl, unbroken⟩ := only.exists_lines
  have cut := @crlfCut_endEach lines last (fun line member => unbroken line (by simp [member]))
    (unbroken last (by simp)).1
  rwa [cut]

theorem rdropWhile_ended (lines : List Octets) :
    (lines.rdropWhile (· = []) ++ [[]]).rdropWhile (· = []) = lines.rdropWhile (· = []) := by
  rw [List.rdropWhile_concat_pos _ _ [] (by simp), List.rdropWhile_idempotent]

theorem canonicalizeSimple_twice (only : CrlfOnly body) :
    canonicalizeSimple (simpleForm body) = simpleForm body := by
  rw [simpleForm]
  split
  · rfl
  · rename_i nonempty
    have unbroken : ∀ line ∈ (crlfCut body).rdropWhile (· = []) ++ [[]], Unbroken line := by
      intro line member
      rcases List.mem_append.mp member with kept | last
      · exact crlfCut_unbroken only line ((List.rdropWhile_prefix _ _).subset kept)
      · simp_all [Unbroken]
    have again := canonicalizeSimple_eq unbroken
    rwa [List.append_nil, rdropWhile_ended, if_neg nonempty] at again

theorem canonicalizeRelaxed_twice (only : CrlfOnly body) :
    canonicalizeRelaxed (relaxedForm body) = relaxedForm body := by
  have kept : ∀ line ∈ ((crlfCut body).map relaxLine).rdropWhile (· = []),
      Unbroken line ∧ relaxLine line = line := by
    intro line member
    obtain ⟨source, inside, rfl⟩ := List.mem_map.mp ((List.rdropWhile_prefix _ _).subset member)
    exact ⟨relaxLine_unbroken (crlfCut_unbroken only source inside), relaxLine_idem source⟩
  have unbroken : ∀ line ∈ ((crlfCut body).map relaxLine).rdropWhile (· = []) ++ [[]],
      Unbroken line := by
    intro line member
    rcases List.mem_append.mp member with inside | last
    · exact (kept line inside).1
    · simp_all [Unbroken]
  have same : (((crlfCut body).map relaxLine).rdropWhile (· = []) ++ [[]]).map relaxLine =
      ((crlfCut body).map relaxLine).rdropWhile (· = []) ++ [[]] := by
    rw [List.map_append, List.map_congr_left fun line member => (kept line member).2, List.map_id']
    rfl
  have again := canonicalizeRelaxed_eq unbroken
  rwa [List.append_nil, same, rdropWhile_ended] at again

end Forms

theorem BodyStart.unique {data : Octets} {first second : Nat} (one : BodyStart data first)
    (other : BodyStart data second) : first = second := by
  rcases one with ⟨start, empty, earliest⟩ | ⟨none, rfl⟩
  · rcases other with ⟨start', empty', earliest'⟩ | ⟨none, -⟩
    · obtain rfl : start = start' :=
        Nat.le_antisymm (earliest start' second empty') (earliest' start first empty)
      rcases empty.2 with ⟨carriage, -, rfl⟩ | ⟨feed, rfl⟩
      · rcases empty'.2 with ⟨-, -, rfl⟩ | ⟨feed, -⟩
        · rfl
        · rw [carriage] at feed
          cases feed
      · rcases empty'.2 with ⟨carriage, -⟩ | ⟨-, rfl⟩
        · rw [carriage] at feed
          cases feed
        · rfl
    · exact absurd empty (none start first)
  · rcases other with ⟨start, empty, -⟩ | ⟨-, rfl⟩
    · exact absurd empty (none start second)
    · rfl

section Message

variable (letters : CaseMapping)

theorem canonicalizeBody_eq {message : Octets} {offset : Nat} (starts : BodyStart message offset)
    (method : Text) :
    canonicalizeBody letters message method =
      if message.drop offset = [] then []
      else if method = "relaxed".toList then canonicalizeRelaxed (message.drop offset)
      else canonicalizeSimple (message.drop offset) := by
  have same : (parseHeaders letters message).2 = offset :=
    (parseFrom_offset letters ∅ none message).unique starts
  rw [canonicalizeBody, same]
  simp only [List.drop_eq_nil_iff]

/-- The body of a message is brought into its canonical forms exactly if there is a body. -/
theorem canonicalizeBody_iff {message : Octets} {offset : Nat} (starts : BodyStart message offset)
    (only : CrlfOnly (message.drop offset)) :
    BodyCanonical letters message (message.drop offset) ↔ message.drop offset ≠ [] := by
  constructor
  · intro canonical empty
    have simple := canonical.simple
    rw [canonicalizeBody_eq letters starts, if_pos empty, empty] at simple
    cases simple
  · intro nonempty
    have form := canonicalizeBody_eq letters starts
    simp only [if_neg nonempty] at form
    refine ⟨?_, ?_, ?_⟩
    · rw [form, if_neg (by decide), canonicalizeSimple_form only]
    · rw [form, if_pos rfl, canonicalizeRelaxed_form only]
    · intro method known again behind starts' same
      rw [canonicalizeBody_eq letters starts', same]
      split
      · rename_i empty
        exact empty.symm
      · rw [form]
        split
        · rw [canonicalizeRelaxed_form only, canonicalizeRelaxed_twice only]
        · rw [canonicalizeSimple_form only, canonicalizeSimple_twice only]

end Message

def headersOnly : Octets := [65, 58, 98, 13, 10, 13, 10]

theorem headersOnly_start (body : Octets) : BodyStart (headersOnly ++ body) 7 := by
  have read := parseFrom_offset asciiCase ∅ none (headersOnly ++ body)
  have shape : headersOnly ++ body = [65, 58, 98, 13] ++ 10 :: ([13] ++ 10 :: body) := rfl
  rwa [shape, parseFrom_next asciiCase ∅ none (by decide) (by decide),
    parseFrom_empty asciiCase _ _ (by decide) (by decide)] at read

/-- Where there is no body the line end of its simple form is missing. -/
theorem headersOnly_unended :
    BodyStart headersOnly 7 ∧ CrlfOnly (headersOnly.drop 7) ∧
      ¬BodyCanonical asciiCase headersOnly (headersOnly.drop 7) := by
  refine ⟨headersOnly_start [], ⟨by decide, fun index => ?_⟩, ?_⟩
  · simp [headersOnly]
  · intro canonical
    exact absurd canonical.simple (by decide +kernel)

theorem greeting_canonical :
    BodyCanonical asciiCase (headersOnly ++ [104, 105, 32, 13, 10, 13, 10])
      [104, 105, 32, 13, 10, 13, 10] := by
  refine (canonicalizeBody_iff asciiCase (headersOnly_start _) ⟨by decide, fun index => ?_⟩).mpr
    (by decide)
  rcases index with _ | _ | _ | _ | _ | _ | _ | index
  all_goals simp [headersOnly]

end Rusmes
