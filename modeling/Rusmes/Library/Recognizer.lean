import Mathlib.Data.List.Pairwise
import Rusmes.Library.WireText

/-!
Recognisers of text. One takes text and gives what it has recognised with the
text that is left, or fails.
-/

open WireText

abbrev Recognizer (α : Type) := Text → Option (Text × α)

namespace Recognizer

variable {α β : Type}

def tagNoCase (tag : Text) : Recognizer Text := fun input =>
  if eqIgnoreAsciiCase (input.take tag.length) tag then
    some (input.drop tag.length, input.take tag.length)
  else none

def char (expected : Char) : Recognizer Char := fun input =>
  match input with
  | [] => none
  | first :: remaining => if first = expected then some (remaining, first) else none

def takeWhile1 (accepts : Char → Bool) : Recognizer Text := fun input =>
  if input.takeWhile accepts = [] then none
  else some (input.dropWhile accepts, input.takeWhile accepts)

def isSpace (character : Char) : Bool :=
  character = ' ' || character = '\t'

def space0 : Recognizer Text := fun input =>
  some (input.dropWhile isSpace, input.takeWhile isSpace)

def space1 : Recognizer Text :=
  takeWhile1 isSpace

def rest : Recognizer Text := fun input =>
  some ([], input)

def map (first : Recognizer α) (change : α → β) : Recognizer β := fun input =>
  (first input).map fun (remaining, value) => (remaining, change value)

def preceded (first : Recognizer α) (second : Recognizer β) : Recognizer β := fun input => do
  let (input, _) ← first input
  second input

def opt (first : Recognizer α) : Recognizer (Option α) := fun input =>
  match first input with
  | some (remaining, value) => some (remaining, some value)
  | none => some (input, none)

def delimited (opening closing : Char) (inner : Recognizer α) : Recognizer α := fun input => do
  let (input, _) ← char opening input
  let (input, value) ← inner input
  let (input, _) ← char closing input
  some (input, value)

def alt (choices : List (Recognizer α)) : Recognizer α := fun input =>
  choices.findSome? fun choice => choice input

theorem tagNoCase_eq_some {tag input remaining found : Text}
    (recognised : tagNoCase tag input = some (remaining, found)) :
    input = found ++ remaining ∧ eqIgnoreAsciiCase found tag = true := by
  rw [tagNoCase] at recognised
  split at recognised
  · rename_i same
    obtain ⟨rfl, rfl⟩ := Prod.mk.inj (Option.some.inj recognised)
    exact ⟨(List.take_append_drop _ _).symm, same⟩
  · cases recognised

theorem takeWhile1_eq_some {accepts : Char → Bool} {input remaining found : Text}
    (recognised : takeWhile1 accepts input = some (remaining, found)) :
    input = found ++ remaining ∧ found ≠ [] ∧ (∀ character ∈ found, accepts character = true) ∧
      ∀ first, remaining.head? = some first → accepts first = false := by
  rw [takeWhile1] at recognised
  split at recognised
  · cases recognised
  · rename_i nonempty
    obtain ⟨rfl, rfl⟩ := Prod.mk.inj (Option.some.inj recognised)
    refine ⟨List.takeWhile_append_dropWhile.symm, nonempty, ?_, ?_⟩
    · intro character member
      exact List.mem_takeWhile_imp member
    · intro first head
      have stopped := List.head?_dropWhile_not accepts input
      rw [head] at stopped
      simpa using stopped

theorem tagNoCase_append {tag found : Text} (same : eqIgnoreAsciiCase found tag = true)
    (remaining : Text) : tagNoCase tag (found ++ remaining) = some (remaining, found) := by
  have size : tag.length = found.length := by
    have lengths := congrArg List.length (of_decide_eq_true same)
    simpa using lengths.symm
  rw [tagNoCase, size, List.take_left, List.drop_left, if_pos same]

theorem takeWhile1_append {accepts : Char → Bool} {found remaining : Text} (nonempty : found ≠ [])
    (taken : ∀ character ∈ found, accepts character = true)
    (stops : ∀ first, remaining.head? = some first → accepts first = false) :
    takeWhile1 accepts (found ++ remaining) = some (remaining, found) := by
  have left : remaining.takeWhile accepts = [] ∧ remaining.dropWhile accepts = remaining := by
    cases remaining with
    | nil => exact ⟨rfl, rfl⟩
    | cons first rest =>
        have stop := stops first rfl
        simp [stop]
  rw [takeWhile1, List.takeWhile_append_of_pos taken, List.dropWhile_append_of_pos taken, left.1,
    left.2, List.append_nil, if_neg nonempty]

theorem preceded_eq_some {first : Recognizer α} {second : Recognizer β} {input : Text}
    {result : Text × β} :
    preceded first second input = some result ↔
      ∃ middle, first input = some middle ∧ second middle.1 = some result := by
  simp [preceded, Option.bind_eq_some_iff]

theorem delimited_eq_some {opening closing : Char} {inner : Recognizer α} {input remaining : Text}
    {value : α} :
    delimited opening closing inner input = some (remaining, value) ↔
      ∃ between, input = opening :: between ∧
        inner between = some (closing :: remaining, value) := by
  have opened {expected : Char} {input : Text} {result : Text × Char} :
      char expected input = some result ↔ result.2 = expected ∧ input = expected :: result.1 := by
    cases input with
    | nil => simp [char]
    | cons first rest =>
        by_cases same : first = expected
        · subst same
          simp only [char, if_pos, Option.some.injEq, Prod.ext_iff, List.cons.injEq, true_and]
          exact ⟨fun ⟨left, taken⟩ => ⟨taken.symm, left⟩, fun ⟨taken, left⟩ => ⟨left, taken.symm⟩⟩
        · simp [char, same]
  simp only [delimited, Option.bind_eq_bind, Option.bind_eq_some_iff, Prod.exists, opened,
    Option.some.injEq, Prod.mk.injEq]
  constructor
  · rintro ⟨between, _, ⟨-, rfl⟩, after, _, inside, _, _, ⟨-, rfl⟩, rfl, rfl⟩
    exact ⟨between, rfl, inside⟩
  · rintro ⟨between, rfl, inside⟩
    exact ⟨between, opening, ⟨rfl, rfl⟩, closing :: remaining, value, inside, remaining, closing,
      ⟨rfl, rfl⟩, rfl, rfl⟩

def OpensWith (tag : Text) (recognizer : Recognizer α) : Prop :=
  ∀ input, tagNoCase tag input = none → recognizer input = none

def apart (first second : Text) : Bool :=
  !eqIgnoreAsciiCase (first.take second.length) (second.take first.length)

theorem tagNoCase_exclusive {first second : Text} (different : apart first second = true)
    (input : Text) : tagNoCase first input = none ∨ tagNoCase second input = none := by
  have shorten {tag : Text} (length : Nat)
      (same : eqIgnoreAsciiCase (input.take tag.length) tag = true) :
      (input.take (min length tag.length)).map Char.toLower = (tag.take length).map Char.toLower := by
    have whole := congrArg (List.take length) (of_decide_eq_true same)
    simpa [List.map_take, List.take_take] using whole
  simp only [tagNoCase]
  split
  · rename_i firstSame
    split
    · rename_i secondSame
      have left := shorten second.length firstSame
      have right := shorten first.length secondSame
      rw [Nat.min_comm] at right
      have clash : eqIgnoreAsciiCase (first.take second.length) (second.take first.length) = true :=
        decide_eq_true (left.symm.trans right)
      rw [apart, clash] at different
      cases different
    · exact Or.inr rfl
  · exact Or.inl rfl

theorem alt_eq_some_iff {choices : List (Text × Recognizer α)}
    (opens : ∀ choice ∈ choices, OpensWith choice.1 choice.2)
    (different : choices.Pairwise fun first second => apart first.1 second.1 = true)
    {input : Text} {result : Text × α} :
    alt (choices.map Prod.snd) input = some result ↔
      ∃ choice ∈ choices, choice.2 input = some result := by
  constructor
  · intro recognised
    obtain ⟨recognizer, member, found⟩ := List.exists_of_findSome?_eq_some recognised
    obtain ⟨choice, listed, rfl⟩ := List.mem_map.mp member
    exact ⟨choice, listed, found⟩
  · rintro ⟨choice, member, recognised⟩
    induction choices with
    | nil => cases member
    | cons first others ih =>
        obtain ⟨fromFirst, different⟩ := List.pairwise_cons.mp different
        rw [List.map_cons, alt, List.findSome?_cons]
        rcases List.mem_cons.mp member with rfl | later
        · rw [recognised]
        · have silent : first.2 input = none := by
            rcases tagNoCase_exclusive (fromFirst choice later) input with none | none
            · exact opens first List.mem_cons_self input none
            · rw [opens choice member input none] at recognised
              cases recognised
          rw [silent]
          exact ih (fun other inside => opens other (List.mem_cons_of_mem first inside)) different
            later

theorem alt_opened {choices : List (Text × Recognizer α)}
    (opens : ∀ choice ∈ choices, OpensWith choice.1 choice.2)
    (different : choices.Pairwise fun first second => apart first.1 second.1 = true)
    {choice : Text × Recognizer α} (member : choice ∈ choices) {input : Text}
    {opened : Text × Text} (tagged : tagNoCase choice.1 input = some opened) :
    alt (choices.map Prod.snd) input = choice.2 input := by
  have exclusive : choices.Pairwise fun first second =>
      tagNoCase first.1 input = none ∨ tagNoCase second.1 input = none :=
    different.imp fun distinct => tagNoCase_exclusive distinct input
  have symmetric : Std.Symm fun first second : Text × Recognizer α =>
      tagNoCase first.1 input = none ∨ tagNoCase second.1 input = none :=
    ⟨fun _ _ either => either.symm⟩
  apply Option.ext
  intro result
  rw [alt_eq_some_iff opens different]
  constructor
  · rintro ⟨other, inside, recognised⟩
    by_cases same : other = choice
    · rwa [← same]
    · rcases exclusive.forall inside member same with none | none
      · rw [opens other inside input none] at recognised
        cases recognised
      · rw [tagged] at none
        cases none
  · intro recognised
    exact ⟨choice, member, recognised⟩

theorem alt_first {before : List (Text × Recognizer α)} {choice : Recognizer α}
    {after : List (Recognizer α)} {opening input : Text} {opened : Text × Text}
    {result : Text × α} (opens : ∀ other ∈ before, OpensWith other.1 other.2)
    (different : ∀ other ∈ before, apart opening other.1 = true)
    (tagged : tagNoCase opening input = some opened) (recognised : choice input = some result) :
    alt (before.map Prod.snd ++ choice :: after) input = some result := by
  induction before with
  | nil => rw [List.map_nil, List.nil_append, alt, List.findSome?_cons, recognised]
  | cons first before ih =>
      have silent : first.2 input = none := by
        apply opens first List.mem_cons_self
        rcases tagNoCase_exclusive (different first List.mem_cons_self) input with none | none
        · rw [tagged] at none
          cases none
        · exact none
      rw [List.map_cons, List.cons_append, alt, List.findSome?_cons, silent]
      exact ih (fun other member => opens other (List.mem_cons_of_mem _ member))
        fun other member => different other (List.mem_cons_of_mem _ member)

end Recognizer
