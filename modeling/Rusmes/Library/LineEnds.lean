import Rusmes.Library.Splitting

/-!
Texts whose lines end with a carriage return and a line feed. Cutting a text into lines and
ending each of them again gives the text back exactly if it has no other line ends and
does not stop within a line.
-/

namespace WireText

/-- Every line feed comes right after a carriage return; the first character comes after
the given one. -/
def feedsAfter (previous : Char) : Text → Prop
  | [] => True
  | character :: rest => (character = '\n' → previous = '\r') ∧ feedsAfter character rest

def NoBareFeed (text : Text) : Prop := feedsAfter ' ' text

def stripReturn (line : Text) : Text :=
  if line.getLast? = some '\r' then line.dropLast else line

theorem feedsAfter_append (previous : Char) (first second : Text) :
    feedsAfter previous (first ++ second) ↔
      feedsAfter previous first ∧ feedsAfter (first.getLast?.getD previous) second := by
  induction first generalizing previous with
  | nil => simp [feedsAfter]
  | cons character first ih =>
      have last : (character :: first).getLast?.getD previous =
          first.getLast?.getD character := by
        cases first with
        | nil => rfl
        | cons next first => simp [List.getLast?_cons]
      rw [List.cons_append, feedsAfter, feedsAfter, ih, last, and_assoc]

theorem feedsAfter_congr {first second : Char} (plain : first ≠ '\r') (other : second ≠ '\r')
    (text : Text) : feedsAfter first text ↔ feedsAfter second text := by
  cases text with
  | nil => exact Iff.rfl
  | cons character text => simp [feedsAfter, plain, other]

theorem feedsAfter_unbroken {text : Text} (unbroken : '\n' ∉ text) (previous : Char) :
    feedsAfter previous text := by
  induction text generalizing previous with
  | nil => trivial
  | cons character text ih =>
      rw [List.mem_cons, not_or] at unbroken
      exact ⟨fun feed => absurd feed.symm unbroken.1, ih unbroken.2 character⟩

theorem noBareFeed_append {first second : Text}
    (apart : first.getLast? ≠ some '\r' ∨ second.head? ≠ some '\n') :
    NoBareFeed (first ++ second) ↔ NoBareFeed first ∧ NoBareFeed second := by
  rw [NoBareFeed, feedsAfter_append]
  apply and_congr_right
  intro _
  rcases apart with ends | begins
  · apply feedsAfter_congr _ (by decide)
    cases final : first.getLast? with
    | none => decide
    | some character =>
        intro same
        rw [final] at ends
        exact ends (congrArg some same)
  · cases second with
    | nil => exact Iff.rfl
    | cons character second =>
        have other : character ≠ '\n' := fun same => begins (congrArg some same)
        simp [NoBareFeed, feedsAfter, other]

theorem textLines_nil : textLines [] = [] := rfl

theorem textLines_last {line : Text} (unbroken : '\n' ∉ line) (nonempty : line ≠ []) :
    textLines line = [line] := by
  rw [textLines, splitOn_unbroken unbroken]
  simp [nonempty]

theorem textLines_line {line : Text} (unbroken : '\n' ∉ line) (rest : Text) :
    textLines (line ++ '\n' :: rest) = stripReturn line :: textLines rest := by
  have more := splitOn_ne_nil '\n' rest
  obtain ⟨part, parts, shape⟩ := List.exists_cons_of_ne_nil more
  rw [textLines, splitOn_append unbroken, textLines, shape, List.dropLast_cons_cons, List.map_cons,
    List.getLast?_cons_cons]
  rfl

theorem stripReturn_unbroken {line : Text} (unbroken : '\n' ∉ line) : '\n' ∉ stripReturn line := by
  rw [stripReturn]
  split
  · exact fun member => unbroken (List.dropLast_subset line member)
  · exact unbroken

theorem textLines_unbroken {text line : Text} (member : line ∈ textLines text) : '\n' ∉ line := by
  induction text using pieces_induction '\n' with
  | last whole unbroken =>
      by_cases empty : whole = []
      · rw [empty, textLines_nil] at member
        cases member
      · rw [textLines_last unbroken empty, List.mem_singleton] at member
        rw [member]
        exact unbroken
  | next first rest unbroken ih =>
      rw [textLines_line unbroken] at member
      rcases List.mem_cons.mp member with rfl | later
      · exact stripReturn_unbroken unbroken
      · exact ih later

def endedLines (text : Text) : Text := (textLines text).flatMap (· ++ ['\r', '\n'])

theorem stripReturn_ended {line rest more : Text} :
    stripReturn line ++ '\r' :: '\n' :: more = line ++ '\n' :: rest ↔
      line.getLast? = some '\r' ∧ more = rest := by
  rcases List.eq_nil_or_concat' line with rfl | ⟨front, final, rfl⟩
  · simp [stripReturn]
  · by_cases carriage : final = '\r'
    · subst carriage
      simp [stripReturn]
    · simp only [stripReturn, List.getLast?_concat, Option.some.injEq, carriage, if_false,
        false_and, iff_false, List.append_cancel_left_eq, List.cons.injEq]
      intro same
      exact absurd same.1 (by decide)

theorem endedLines_line {line : Text} (unbroken : '\n' ∉ line) (rest : Text) :
    endedLines (line ++ '\n' :: rest) = stripReturn line ++ '\r' :: '\n' :: endedLines rest := by
  rw [endedLines, textLines_line unbroken, List.flatMap_cons, ← endedLines]
  simp

theorem noBareFeed_next {line : Text} (unbroken : '\n' ∉ line) (rest : Text) :
    NoBareFeed (line ++ '\n' :: rest) ↔ line.getLast? = some '\r' ∧ NoBareFeed rest := by
  have before : line.getLast?.getD ' ' = '\r' ↔ line.getLast? = some '\r' := by
    cases line.getLast? with
    | none => simp
    | some character => simp
  rw [NoBareFeed, feedsAfter_append, feedsAfter, before]
  simp only [feedsAfter_unbroken unbroken, true_and, forall_const]
  rw [feedsAfter_congr (by decide : '\n' ≠ '\r') (by decide : ' ' ≠ '\r')]
  rfl

theorem endedLines_iff (text : Text) : endedLines text = text ↔
    NoBareFeed text ∧ (text = [] ∨ text.getLast? = some '\n') := by
  induction text using pieces_induction '\n' with
  | last line unbroken =>
      by_cases empty : line = []
      · subst empty
        simp [endedLines, textLines_nil, NoBareFeed, feedsAfter]
      · have open_ : line.getLast? ≠ some '\n' :=
          fun final => unbroken (List.mem_of_getLast? final)
        rw [endedLines, textLines_last unbroken empty]
        simp [empty, open_]
  | next line rest unbroken ih =>
      have final : (line ++ '\n' :: rest = [] ∨ (line ++ '\n' :: rest).getLast? = some '\n') ↔
          (rest = [] ∨ rest.getLast? = some '\n') := by
        cases rest with
        | nil => simp
        | cons character rest => simp [List.getLast?_append]
      rw [endedLines_line unbroken, stripReturn_ended, ih, noBareFeed_next unbroken, final, and_assoc]

theorem noBareFeed_of_endedLines {text more : Text} (longer : endedLines text = text ++ more) :
    NoBareFeed text := by
  induction text using pieces_induction '\n' with
  | last line unbroken => exact feedsAfter_unbroken unbroken ' '
  | next line rest unbroken ih =>
      rw [endedLines_line unbroken, List.append_assoc, List.cons_append, stripReturn_ended] at longer
      exact (noBareFeed_next unbroken rest).mpr ⟨longer.1, ih longer.2⟩

theorem textLines_append {first : Text} (ended : first = [] ∨ first.getLast? = some '\n')
    (second : Text) : textLines (first ++ second) = textLines first ++ textLines second := by
  induction first using pieces_induction '\n' with
  | last line unbroken =>
      have empty : line = [] :=
        ended.resolve_right fun final => unbroken (List.mem_of_getLast? final)
      rw [empty]
      rfl
  | next line rest unbroken ih =>
      have later : rest = [] ∨ rest.getLast? = some '\n' := by
        rcases rest with _ | ⟨character, rest⟩
        · exact Or.inl rfl
        · right
          have final := ended.resolve_left (by simp)
          rwa [List.getLast?_append_of_ne_nil _ (List.cons_ne_nil _ _), List.getLast?_cons_cons]
            at final
      rw [List.append_assoc, List.cons_append, textLines_line unbroken, ih later,
        textLines_line unbroken]
      rfl

end WireText
