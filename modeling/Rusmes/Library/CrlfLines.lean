import Mathlib.Data.List.Destutter
import Rusmes.Library.WireText

/-!
Octets whose only line ends are pairs of a carriage return and a line feed, cut into lines and
put together again, and the blanks within a line.
-/

namespace WireText

def CrlfOnly (octets : Octets) : Prop :=
  octets.head? ≠ some 10 ∧
    ∀ index : Nat, octets[index]? = some 13 ↔ octets[index + 1]? = some 10

def crlfCut : Octets → List Octets
  | [] => [[]]
  | 13 :: 10 :: rest => [] :: crlfCut rest
  | octet :: rest => (crlfCut rest).modifyHead (octet :: ·)

def endEach (lines : List Octets) : Octets := lines.flatMap (· ++ [13, 10])

def Unbroken (line : Octets) : Prop := 13 ∉ line ∧ 10 ∉ line

theorem endEach_concat (lines : List Octets) (line : Octets) :
    endEach (lines ++ [line]) = endEach lines ++ (line ++ [13, 10]) := by
  simp [endEach]

theorem crlfCut_cons {octet : UInt8} (plain : octet ≠ 13) (rest : Octets) :
    crlfCut (octet :: rest) = (crlfCut rest).modifyHead (octet :: ·) := by
  rw [crlfCut]
  rintro _ rfl _
  exact plain rfl

theorem crlfCut_last {line : Octets} (whole : 13 ∉ line) : crlfCut line = [line] := by
  induction line with
  | nil => rfl
  | cons octet line ih =>
      rw [List.mem_cons, not_or] at whole
      rw [crlfCut_cons (Ne.symm whole.1), ih whole.2]
      rfl

theorem crlfCut_line {line : Octets} (whole : 13 ∉ line) (rest : Octets) :
    crlfCut (line ++ 13 :: 10 :: rest) = line :: crlfCut rest := by
  induction line with
  | nil => rw [List.nil_append, crlfCut]
  | cons octet line ih =>
      rw [List.mem_cons, not_or] at whole
      rw [List.cons_append, crlfCut_cons (Ne.symm whole.1), ih whole.2]
      rfl

theorem crlfCut_endEach {lines : List Octets} {last : Octets}
    (unbroken : ∀ line ∈ lines, Unbroken line) (whole : 13 ∉ last) :
    crlfCut (endEach lines ++ last) = lines ++ [last] := by
  induction lines with
  | nil => exact crlfCut_last whole
  | cons line lines ih =>
      have shape : endEach (line :: lines) ++ last = line ++ 13 :: 10 :: (endEach lines ++ last) := by
        simp [endEach]
      rw [shape, crlfCut_line (unbroken line List.mem_cons_self).1,
        ih fun other member => unbroken other (List.mem_cons_of_mem _ member)]
      rfl

theorem CrlfOnly.tail {octet : UInt8} {rest : Octets} (plain : octet ≠ 13)
    (only : CrlfOnly (octet :: rest)) : CrlfOnly rest := by
  refine ⟨?_, fun index => ?_⟩
  · intro feed
    have first := only.2 0
    rw [List.getElem?_cons_zero, List.getElem?_cons_succ, ← List.head?_eq_getElem?, feed] at first
    exact plain (Option.some.inj (first.mpr rfl))
  · have later := only.2 (index + 1)
    rwa [List.getElem?_cons_succ, List.getElem?_cons_succ] at later

theorem CrlfOnly.exists_lines {octets : Octets} (only : CrlfOnly octets) :
    ∃ lines last, octets = endEach lines ++ last ∧
      ∀ line ∈ lines ++ [last], Unbroken line := by
  induction size : octets.length using Nat.strongRecOn generalizing octets with
  | ind size ih =>
      cases octets with
      | nil => exact ⟨[], [], rfl, by simp [Unbroken]⟩
      | cons octet rest =>
          rw [List.length_cons] at size
          by_cases carriage : octet = 13
          · subst carriage
            have feed : rest[0]? = some 10 := (only.2 0).mp rfl
            obtain ⟨rest, rfl⟩ := List.head?_eq_some_iff.mp (List.head?_eq_getElem? ▸ feed)
            have behind : CrlfOnly rest := by
              refine ⟨?_, fun index => only.2 (index + 2)⟩
              intro another
              have second := (only.2 1).mpr
              rw [List.getElem?_cons_succ, List.getElem?_cons_succ, List.getElem?_cons_succ,
                ← List.head?_eq_getElem?, another] at second
              exact absurd (second rfl) (by simp)
            rw [List.length_cons] at size
            obtain ⟨lines, last, rfl, unbroken⟩ := ih rest.length (by omega) behind rfl
            refine ⟨[] :: lines, last, rfl, ?_⟩
            rintro line (_ | ⟨_, member⟩)
            · simp [Unbroken]
            · exact unbroken line member
          · have plain : octet ≠ 10 := fun feed => only.1 (congrArg some feed)
            obtain ⟨lines, last, rfl, unbroken⟩ :=
              ih rest.length (by omega) (only.tail carriage) rfl
            cases lines with
            | nil =>
                refine ⟨[], octet :: last, rfl, ?_⟩
                intro line member
                rw [List.nil_append, List.mem_singleton] at member
                have others := unbroken last (by simp)
                subst member
                simp only [Unbroken, List.mem_cons, not_or]
                exact ⟨⟨Ne.symm carriage, others.1⟩, Ne.symm plain, others.2⟩
            | cons first lines =>
                refine ⟨(octet :: first) :: lines, last, by simp [endEach], ?_⟩
                rintro line (_ | ⟨_, member⟩)
                · have others := unbroken first (by simp)
                  simp only [Unbroken, List.mem_cons, not_or]
                  exact ⟨⟨Ne.symm carriage, others.1⟩, Ne.symm plain, others.2⟩
                · exact unbroken line (List.mem_cons_of_mem _ member)

end WireText
