import Mathlib.Data.List.Infix
import Rusmes.Library.Words

/-!
A text cut at a separator. The two sides of a cut are taken apart on their own, the
parts give the text back, and the last occurrence of a pattern is the one after which
the pattern does not occur again.
-/

namespace WireText

theorem splitOn_ne_nil (separator : Char) (text : Text) : splitOn separator text ≠ [] := by
  cases text with
  | nil => exact List.cons_ne_nil _ _
  | cons character rest =>
      rw [splitOn]
      split
      · exact List.cons_ne_nil _ _
      · split <;> exact List.cons_ne_nil _ _

theorem splitOn_cons_ne {separator character : Char} (plain : character ≠ separator)
    (text : Text) :
    splitOn separator (character :: text) =
      (splitOn separator text).modifyHead (character :: ·) := by
  rw [splitOn, if_neg plain]
  cases parts : splitOn separator text with
  | nil => exact absurd parts (splitOn_ne_nil separator text)
  | cons part parts => rfl

theorem splitOn_cut (separator : Char) (text rest : Text) :
    splitOn separator (text ++ separator :: rest) =
      splitOn separator text ++ splitOn separator rest := by
  induction text with
  | nil => simp [splitOn]
  | cons character text ih =>
      by_cases cut : character = separator
      · rw [List.cons_append, splitOn, if_pos cut, splitOn, if_pos cut, ih]
        rfl
      · rw [List.cons_append, splitOn_cons_ne cut, splitOn_cons_ne cut, ih]
        cases parts : splitOn separator text with
        | nil => exact absurd parts (splitOn_ne_nil separator text)
        | cons part parts => rfl

theorem joinWith_splitOn (separator : Char) (text : Text) :
    joinWith [separator] (splitOn separator text) = text := by
  induction text with
  | nil => rfl
  | cons character text ih =>
      cases parts : splitOn separator text with
      | nil => exact absurd parts (splitOn_ne_nil separator text)
      | cons part others =>
          rw [parts] at ih
          by_cases cut : character = separator
          · rw [splitOn, if_pos cut, parts, joinWith_cons_cons, ih, cut]
            rfl
          · rw [splitOn_cons_ne cut, parts, List.modifyHead_cons, ← ih]
            cases others <;> simp [joinWith]

theorem splitOn_whole {separator : Char} {text part : Text}
    (member : part ∈ splitOn separator text) : separator ∉ part := by
  induction text generalizing part with
  | nil =>
      rw [List.mem_singleton.mp member]
      exact List.not_mem_nil
  | cons character text ih =>
      by_cases cut : character = separator
      · rw [splitOn, if_pos cut] at member
        rcases List.mem_cons.mp member with rfl | later
        · exact List.not_mem_nil
        · exact ih later
      · rw [splitOn_cons_ne cut] at member
        cases parts : splitOn separator text with
        | nil => exact absurd parts (splitOn_ne_nil separator text)
        | cons first others =>
            rw [parts, List.modifyHead_cons] at member
            rw [parts] at ih
            rcases List.mem_cons.mp member with rfl | later
            · rw [List.mem_cons, not_or]
              exact ⟨Ne.symm cut, ih List.mem_cons_self⟩
            · exact ih (List.mem_cons_of_mem first later)

theorem splitOn_follows {separator : Char} {text first part : Text} {others : List Text}
    (parts : splitOn separator text = first :: others) (member : part ∈ others) :
    separator :: part <:+: text := by
  obtain ⟨earlier, later, rfl⟩ := List.append_of_mem member
  have whole := joinWith_splitOn separator text
  rw [parts] at whole
  rw [← whole]
  clear parts member whole
  induction earlier generalizing first with
  | nil =>
      refine ⟨first, joinWith [separator] (part :: later) |>.drop part.length, ?_⟩
      rw [List.nil_append, joinWith_cons_cons]
      cases later <;> simp [joinWith]
  | cons second earlier ih =>
      rw [List.cons_append, joinWith_cons_cons, ← List.append_assoc]
      exact (@ih second).trans (List.suffix_append _ _).isInfix

theorem splitOn_joinWith {separator : Char} {parts : List Text} (nonempty : parts ≠ [])
    (whole : ∀ part ∈ parts, separator ∉ part) :
    splitOn separator (joinWith [separator] parts) = parts := by
  induction parts with
  | nil => exact absurd rfl nonempty
  | cons part parts ih =>
      have first := whole part List.mem_cons_self
      cases parts with
      | nil => exact splitOn_unbroken first
      | cons second parts =>
          have others := ih (List.cons_ne_nil _ _)
            fun other member => whole other (List.mem_cons_of_mem _ member)
          rw [joinWith_cons_cons, List.singleton_append, splitOn_append first, others]

theorem joinWith_first (separator more first : Text) (parts : List Text) :
    joinWith separator ((more ++ first) :: parts) = more ++ joinWith separator (first :: parts) := by
  cases parts with
  | nil => rfl
  | cons second parts => rw [joinWith_cons_cons, joinWith_cons_cons, List.append_assoc]

theorem splitOn_spaced {separator : Char} (solid : separator ≠ ' ') {part : Text} {parts : List Text}
    (first : separator ∉ part) (plain : ∀ other ∈ parts, separator ∉ other) :
    splitOn separator (joinWith [separator, ' '] (part :: parts)) = part :: parts.map (' ' :: ·) := by
  induction parts generalizing part with
  | nil => exact splitOn_unbroken first
  | cons second parts ih =>
      have next : separator ∉ ' ' :: second := by simp [plain second List.mem_cons_self, solid]
      have rest := @ih (' ' :: second) next fun other member =>
        plain other (List.mem_cons_of_mem _ member)
      have shape : joinWith [separator, ' '] (part :: second :: parts) =
          part ++ separator :: joinWith [separator, ' '] ((' ' :: second) :: parts) := by
        have blank := joinWith_first [separator, ' '] [' '] second parts
        rw [List.singleton_append, List.singleton_append] at blank
        rw [joinWith_cons_cons, blank]
        simp
      rw [shape, splitOn_append first, rest, List.map_cons]

theorem splitOn_listed {part : Text} {parts : List Text} (first : ',' ∉ part)
    (plain : ∀ other ∈ parts, ',' ∉ other) :
    splitOn ',' (joinWith ", ".toList (part :: parts)) = part :: parts.map (' ' :: ·) :=
  splitOn_spaced (by decide) first plain

theorem joinWith_flatMap (separator part : Text) (parts : List Text) :
    joinWith separator (part :: parts) = part ++ parts.flatMap (separator ++ ·) := by
  induction parts generalizing part with
  | nil => simp [joinWith]
  | cons second parts ih =>
      rw [joinWith_cons_cons, ih, List.flatMap_cons, List.append_assoc]

theorem joinWith_last (separator last more : Text) (parts : List Text) :
    joinWith separator (parts ++ [last]) ++ more = joinWith separator (parts ++ [last ++ more]) := by
  induction parts with
  | nil => rfl
  | cons part parts ih =>
      obtain ⟨second, others, same⟩ := List.exists_cons_of_ne_nil
        (List.append_ne_nil_of_right_ne_nil parts (List.cons_ne_nil last []))
      obtain ⟨next, rest, equal⟩ := List.exists_cons_of_ne_nil
        (List.append_ne_nil_of_right_ne_nil parts (List.cons_ne_nil (last ++ more) []))
      rw [same, equal] at ih
      rw [List.cons_append, List.cons_append, same, equal, joinWith_cons_cons, joinWith_cons_cons,
        ← ih, List.append_assoc, List.append_assoc]

theorem splitOnce_append {separator : Char} {before : Text} (absent : separator ∉ before)
    (after : Text) : splitOnce separator (before ++ separator :: after) = some (before, after) := by
  have plain : ∀ character ∈ before, decide (character ≠ separator) = true := by
    intro character member
    exact decide_eq_true fun same => absent (same ▸ member)
  rw [splitOnce, if_pos (by simp), List.takeWhile_append_of_pos plain,
    List.dropWhile_append_of_pos plain]
  simp

theorem splitOn_trim {separator : Char} (solid : isWhitespace separator = false) (text : Text) :
    (splitOn separator (trim text)).map trim = (splitOn separator text).map trim := by
  have apart : ∀ {blanks : Text}, (∀ character ∈ blanks, isWhitespace character = true) →
      separator ∉ blanks := by
    intro blanks white member
    rw [white separator member] at solid
    cases solid
  have before : ∀ {blanks : Text}, (∀ character ∈ blanks, isWhitespace character = true) → ∀ text,
      (splitOn separator (blanks ++ text)).map trim = (splitOn separator text).map trim := by
    intro blanks white text
    by_cases member : separator ∈ text
    · obtain ⟨first, rest, rfl, absent⟩ := List.eq_append_cons_of_mem member
      have whole : separator ∉ blanks ++ first := by simp [apart white, absent]
      rw [← List.append_assoc, splitOn_append whole, splitOn_append absent, List.map_cons, List.map_cons,
        trim_blanks white]
    · have whole : separator ∉ blanks ++ text := by simp [apart white, member]
      rw [splitOn_unbroken whole, splitOn_unbroken member, List.map_singleton, List.map_singleton,
        trim_blanks white]
  have behind : ∀ {blanks : Text}, (∀ character ∈ blanks, isWhitespace character = true) → ∀ text,
      (splitOn separator (text ++ blanks)).map trim = (splitOn separator text).map trim := by
    intro blanks white text
    induction text using pieces_induction separator with
    | last text member =>
        have whole : separator ∉ text ++ blanks := by simp [apart white, member]
        have cut : trimEnd (text ++ blanks) = trimEnd text := trimEnd_append white
        rw [splitOn_unbroken whole, splitOn_unbroken member, List.map_singleton, List.map_singleton,
          ← trim_trimEnd, cut, trim_trimEnd]
    | next first rest absent ih =>
        rw [List.append_assoc, List.cons_append, splitOn_append absent, splitOn_append absent,
          List.map_cons, List.map_cons, ih]
  obtain ⟨later, ends, whiteLater⟩ := trimEnd_whole (trimStart text)
  have starts : text = text.takeWhile isWhitespace ++ trimStart text :=
    List.takeWhile_append_dropWhile.symm
  have white : ∀ character ∈ text.takeWhile isWhitespace, isWhitespace character = true :=
    fun character member => List.mem_takeWhile_imp member
  conv_rhs => rw [starts, before white, ends, behind whiteLater]
  rfl

theorem rsplitOnce_append {separator : Char} {after : Text} (absent : separator ∉ after)
    (before : Text) : rsplitOnce separator (before ++ separator :: after) = some (before, after) := by
  have none : rsplitOnce separator after = none := by
    induction after with
    | nil => rfl
    | cons first rest ih =>
        rw [rsplitOnce, ih fun member => absent (.tail _ member)]
        simpa using fun same : first = separator => absent (same ▸ List.mem_cons_self ..)
  induction before with
  | nil => simp [rsplitOnce, none]
  | cons first before ih => simp [rsplitOnce, ih]

theorem rsplitOnceAt_eq_none {first : Char} {lead text : Text} :
    rsplitOnceAt (first :: lead) text = none ↔ ¬first :: lead <:+: text := by
  induction text with
  | nil => simp [rsplitOnceAt]
  | cons character rest ih =>
      rw [List.infix_cons_iff, not_or, ← ih, rsplitOnceAt]
      cases later : rsplitOnceAt (first :: lead) rest with
      | some parts => simp
      | none => simp [List.cons_prefix_cons]

theorem rsplitOnceAt_eq_some {first : Char} {lead text before after : Text} :
    rsplitOnceAt (first :: lead) text = some (before, after) ↔
      text = before ++ (first :: lead ++ after) ∧ ¬first :: lead <:+: lead ++ after := by
  induction text generalizing before with
  | nil => simp [rsplitOnceAt]
  | cons character rest ih =>
      rw [rsplitOnceAt]
      cases later : rsplitOnceAt (first :: lead) rest with
      | some parts =>
          cases before with
          | nil =>
              constructor
              · intro found
                cases found
              · rintro ⟨whole, alone⟩
                rw [List.nil_append, List.cons_append, List.cons.injEq] at whole
                rw [whole.2, rsplitOnceAt_eq_none.mpr alone] at later
                cases later
          | cons other before =>
              rw [later] at ih
              have found := @ih before
              rw [Option.some.injEq, Prod.ext_iff] at found
              rw [List.cons_append, List.cons.injEq, and_assoc, ← found]
              simp only [Option.some.injEq, Prod.mk.injEq, List.cons.injEq, and_assoc]
      | none =>
          have absent := rsplitOnceAt_eq_none.mp later
          simp only [Option.ite_none_right_eq_some, Option.some.injEq, Prod.mk.injEq]
          constructor
          · rintro ⟨⟨tail, whole⟩, rfl, rfl⟩
            rw [← whole, List.drop_left, List.nil_append]
            rw [List.cons_append, List.cons.injEq] at whole
            exact ⟨rfl, by rw [whole.2]; exact absent⟩
          · rintro ⟨whole, alone⟩
            cases before with
            | nil =>
                rw [List.nil_append] at whole
                rw [whole, List.drop_left]
                exact ⟨List.prefix_append _ _, rfl, rfl⟩
            | cons other before =>
                rw [List.cons_append, List.cons.injEq] at whole
                refine absurd ?_ absent
                rw [whole.2]
                exact (List.prefix_append (first :: lead) after).isInfix.trans
                  (List.suffix_append before _).isInfix

section Marker

variable {α : Type} {marker : List α}

def Apart (marker text : List α) : Prop :=
  ¬marker <:+: (text ++ marker).dropLast

theorem apart_nil (nonempty : marker ≠ []) : Apart marker [] := by
  intro inside
  have short := inside.length_le
  have positive : 0 < marker.length := List.length_pos_iff.mpr nonempty
  rw [List.nil_append, List.length_dropLast] at short
  omega

theorem apart_cons (nonempty : marker ≠ []) (first : α) (text : List α) :
    Apart marker (first :: text) ↔ ¬marker <+: first :: (text ++ marker) ∧ Apart marker text := by
  have full : text ++ marker ≠ [] := List.append_ne_nil_of_right_ne_nil text nonempty
  have here : marker <+: first :: (text ++ marker) ↔ marker <+: first :: (text ++ marker).dropLast := by
    constructor
    · intro starts
      rw [← List.dropLast_cons_of_ne_nil full]
      refine List.prefix_of_prefix_length_le starts (List.dropLast_prefix _) ?_
      rw [List.length_dropLast, List.length_cons, List.length_append]
      omega
    · intro starts
      rw [← List.dropLast_cons_of_ne_nil full] at starts
      exact starts.trans (List.dropLast_prefix _)
  rw [Apart, List.cons_append, List.dropLast_cons_of_ne_nil full, List.infix_cons_iff, not_or, here,
    Apart]

theorem prefix_behind {rest : List α} (starts : marker <+: rest) (text : List α) (first : α) :
    marker <+: first :: (text ++ rest) ↔ marker <+: first :: (text ++ marker) := by
  obtain ⟨more, rfl⟩ := starts
  rw [← List.append_assoc, ← List.cons_append]
  constructor
  · intro whole
    refine List.prefix_of_prefix_length_le whole (List.prefix_append _ more) ?_
    rw [List.length_cons, List.length_append]
    omega
  · intro whole
    exact whole.trans (List.prefix_append _ more)

end Marker

end WireText
