import Rusmes.Library.Glob
import Rusmes.Sieve.Interpreter

/-!
The loop of `wildcard_match` as a matcher of patterns: it goes back to its last star only,
which is enough, but takes a star that stands at a star for that one character.
-/

namespace Rusmes

open WireText

abbrev Globs (value pattern : Text) : Prop := Glob '?' '*' value pattern

abbrev GlobsLiterally (value pattern : Text) : Prop := LiteralGlob '?' '*' value pattern

def SinceStar (value : Text) (ahead : Nat) (pattern : Text) (star : Option Text) : Prop :=
  ∀ after, star = some after → ∃ passed, after = passed ++ pattern ∧
    List.Forall₂ (fun character symbol => symbol = '?' ∨ symbol = character)
      (value.take ahead) passed

/-- A match of the pattern that is left, or of the one after the last star further on. -/
def MatchesOn (value : Text) (ahead : Nat) (pattern : Text) (star : Option Text) : Prop :=
  GlobsLiterally (value.drop ahead) pattern ∨
    ∃ after, star = some after ∧ ∃ left, left <:+ value.tail ∧ GlobsLiterally left after

section Loop

variable {value pattern : Text} {ahead : Nat} {star : Option Text} {character symbol : Char}
  {rest : Text}

theorem any_ne_star : '?' ≠ '*' := by decide

theorem SinceStar.resume (since : SinceStar value ahead pattern star) {after left : Text}
    (starred : star = some after) (suffix : left <:+ value.tail)
    (matched : GlobsLiterally left after) :
    ∃ final, final <:+ value.drop ahead ∧ GlobsLiterally final pattern := by
  obtain ⟨passed, shape, literally⟩ := since after starred
  rw [shape] at matched
  refine literalGlob_resume any_ne_star literally ?_ matched
  rw [List.take_append_drop]
  exact suffix.trans (List.tail_suffix value)

theorem SinceStar.consume (since : SinceStar value ahead (symbol :: pattern) star)
    (here : value.drop ahead = character :: rest) (same : symbol = '?' ∨ symbol = character) :
    SinceStar value (ahead + 1) pattern star := by
  intro after starred
  obtain ⟨passed, shape, literally⟩ := since after starred
  refine ⟨passed ++ [symbol], by rw [shape, List.append_assoc]; rfl, ?_⟩
  have taken : value.take (ahead + 1) = value.take ahead ++ [character] := by
    rw [List.take_add, here]
    rfl
  rw [taken]
  exact List.rel_append literally (.cons same .nil)

theorem sinceStar_start (value pattern : Text) : SinceStar value 0 pattern (some pattern) := by
  intro after starred
  exact ⟨[], (Option.some.inj starred).symm, .nil⟩

theorem sinceStar_none (value pattern : Text) : SinceStar value 0 pattern none := by
  intro after starred
  cases starred

theorem drop_succ (here : value.drop ahead = character :: rest) : value.drop (ahead + 1) = rest := by
  rw [← List.drop_drop, here]
  rfl

theorem matchesOn_end (since : SinceStar value ahead pattern star) (ended : value.drop ahead = []) :
    MatchesOn value ahead pattern star ↔ ∀ symbol ∈ pattern, symbol = '*' := by
  rw [MatchesOn, ended, ← literalGlob_nil_iff]
  constructor
  · rintro (matched | ⟨after, starred, left, suffix, matched⟩)
    · exact matched
    · obtain ⟨final, within, others⟩ := since.resume starred suffix matched
      rw [ended] at within
      rwa [List.suffix_nil.mp within] at others
  · exact Or.inl

theorem matchesOn_consume (here : value.drop ahead = character :: rest)
    (same : symbol = '?' ∨ symbol = character) :
    MatchesOn value ahead (symbol :: pattern) star ↔ MatchesOn value (ahead + 1) pattern star := by
  rw [MatchesOn, MatchesOn, here, drop_succ here]
  exact or_congr_left (literalGlob_same_iff any_ne_star same)

theorem matchesOn_star (since : SinceStar value ahead ('*' :: pattern) star)
    (here : value.drop ahead = character :: rest) (away : character ≠ '*') :
    MatchesOn value ahead ('*' :: pattern) star ↔
      MatchesOn (value.drop ahead) 0 pattern (some pattern) := by
  have starts : ∀ {final}, final <:+ character :: rest → GlobsLiterally final ('*' :: pattern) →
      ∃ left, left <:+ character :: rest ∧ GlobsLiterally left pattern := by
    intro final within matched
    cases matched with
    | star _ suffix others => exact ⟨_, suffix.trans within, others⟩
    | itself others => exact ⟨_, (List.suffix_cons _ _).trans within, others⟩
  rw [MatchesOn, MatchesOn, here, List.drop_zero, List.tail_cons]
  constructor
  · intro matched
    have found : ∃ left, left <:+ character :: rest ∧ GlobsLiterally left pattern := by
      rcases matched with now | ⟨after, starred, left, suffix, later⟩
      · exact starts List.suffix_rfl now
      · obtain ⟨final, within, others⟩ := since.resume starred suffix later
        rw [here] at within
        exact starts within others
    obtain ⟨left, suffix, others⟩ := found
    rcases List.suffix_cons_iff.mp suffix with whole | inside
    · rw [whole] at others
      exact Or.inl others
    · exact Or.inr ⟨pattern, rfl, left, inside, others⟩
  · rintro (now | ⟨after, same, left, suffix, others⟩)
    · exact Or.inl ((literalGlob_star_iff any_ne_star away).mpr ⟨_, List.suffix_rfl, now⟩)
    · rw [← Option.some.inj same] at others
      exact Or.inl ((literalGlob_star_iff any_ne_star away).mpr
        ⟨left, suffix.trans (List.suffix_cons _ _), others⟩)

theorem matchesOn_stuck {after : Text}
    (stuck : ¬GlobsLiterally (value.drop ahead) pattern) :
    MatchesOn value ahead pattern (some after) ↔ MatchesOn value.tail 0 after (some after) := by
  rw [MatchesOn, MatchesOn, List.drop_zero]
  constructor
  · rintro (now | ⟨other, same, left, suffix, matched⟩)
    · exact absurd now stuck
    · rw [← Option.some.inj same] at matched
      cases shape : value.tail with
      | nil =>
          rw [shape, List.suffix_nil] at suffix
          rw [suffix] at matched
          exact Or.inl matched
      | cons first others =>
          rw [shape] at suffix
          rcases List.suffix_cons_iff.mp suffix with whole | inside
          · rw [whole] at matched
            exact Or.inl matched
          · exact Or.inr ⟨after, rfl, left, inside, matched⟩
  · rintro (now | ⟨other, same, left, suffix, matched⟩)
    · exact Or.inr ⟨after, rfl, _, List.suffix_rfl, now⟩
    · rw [← Option.some.inj same] at matched
      exact Or.inr ⟨after, rfl, left, suffix.trans (List.tail_suffix _), matched⟩

theorem stuck_of_head (notSame : ¬(pattern.head? = some '?' ∨ pattern.head? = some character))
    (notStar : pattern.head? ≠ some '*') : ¬GlobsLiterally (character :: rest) pattern := by
  cases pattern with
  | nil => nofun
  | cons symbol pattern =>
      rw [List.head?_cons, Option.some.injEq, Option.some.injEq, not_or] at notSame
      rw [List.head?_cons, ne_eq, Option.some.injEq] at notStar
      exact literalGlob_apart notSame.1 notSame.2 notStar

theorem wildcardLoop_end (ended : value.drop ahead = []) :
    wildcardLoop value ahead pattern star = pattern.all (· = '*') := by
  rw [wildcardLoop.eq_def]
  split
  · rfl
  · rename_i more
    rw [ended] at more
    cases more

theorem wildcardLoop_step (here : value.drop ahead = character :: rest) :
    wildcardLoop value ahead pattern star =
      if pattern.head? = some '?' ∨ pattern.head? = some character then
        wildcardLoop value (ahead + 1) pattern.tail star
      else if pattern.head? = some '*' then
        wildcardLoop (value.drop ahead) 0 pattern.tail (some pattern.tail)
      else
        match star with
        | some after => wildcardLoop value.tail 0 after star
        | none => false := by
  rw [wildcardLoop.eq_def]
  split
  · rename_i ended
    rw [ended] at here
    cases here
  · rename_i other _ shape
    rw [shape] at here
    rw [(List.cons.inj here).1]
    rfl

theorem wildcardLoop_iff (value : Text) (ahead : Nat) (pattern : Text) (star : Option Text)
    (since : SinceStar value ahead pattern star) :
    wildcardLoop value ahead pattern star = true ↔ MatchesOn value ahead pattern star := by
  induction value, ahead, pattern, star using wildcardLoop.induct with
  | case1 value ahead pattern star ended =>
      rw [wildcardLoop_end ended, matchesOn_end since ended]
      simp
  | case2 value ahead pattern star character rest here same ih =>
      rw [wildcardLoop_step here, if_pos same]
      cases pattern with
      | nil => simp at same
      | cons symbol pattern =>
          rw [List.head?_cons, Option.some.injEq, Option.some.injEq] at same
          rw [matchesOn_consume here same]
          exact ih (since.consume here same)
  | case3 value ahead pattern star character rest here other starred ih =>
      rw [wildcardLoop_step here, if_neg other, if_pos starred]
      cases pattern with
      | nil => cases starred
      | cons symbol pattern =>
          obtain rfl := Option.some.inj starred
          rw [not_or, List.head?_cons, Option.some.injEq, Option.some.injEq] at other
          rw [matchesOn_star since here (Ne.symm other.2)]
          exact ih (sinceStar_start _ _)
  | case4 value ahead pattern character rest here other unstarred after ih =>
      rw [wildcardLoop_step here, if_neg other, if_neg unstarred]
      rw [matchesOn_stuck (here ▸ stuck_of_head other unstarred)]
      exact ih (sinceStar_start _ _)
  | case5 value ahead pattern character rest here other unstarred =>
      rw [wildcardLoop_step here, if_neg other, if_neg unstarred]
      constructor
      · nofun
      · rintro (matched | ⟨_, absent, _⟩)
        · rw [here] at matched
          exact absurd matched (stuck_of_head other unstarred)
        · cases absent

end Loop

/-- The matcher of `:matches` takes a star of the pattern that meets a star literally. -/
theorem wildcardMatch_literally (letters : CaseMapping) (value pattern : Text) :
    wildcardMatch letters value pattern = true ↔
      GlobsLiterally (letters.toLowercase value) (letters.toLowercase pattern) := by
  rw [wildcardMatch, wildcardLoop_iff _ _ _ _ (sinceStar_none _ _), MatchesOn, List.drop_zero]
  constructor
  · rintro (matched | ⟨_, absent, _⟩)
    · exact matched
    · cases absent
  · exact Or.inl

/-- `:matches` is the matching of patterns, exactly where a pattern that matches still does
when each of its stars that comes to stand at a star of the value takes just that. -/
theorem wildcardMatch_iff (letters : CaseMapping) (value pattern : Text) :
    (wildcardMatch letters value pattern = true ↔
        Globs (letters.toLowercase value) (letters.toLowercase pattern)) ↔
      (Globs (letters.toLowercase value) (letters.toLowercase pattern) →
        GlobsLiterally (letters.toLowercase value) (letters.toLowercase pattern)) := by
  rw [wildcardMatch_literally]
  exact ⟨fun same => same.mpr, fun literal => ⟨LiteralGlob.glob, literal⟩⟩

/-- A star at the end of a pattern is spent on a star of the value. -/
theorem star_spent_on_star :
    ¬(wildcardMatch asciiCase "a*b".toList "a*".toList = true ↔
      Globs (asciiCase.toLowercase "a*b".toList) (asciiCase.toLowercase "a*".toList)) := by
  intro same
  have matched : Globs "a*b".toList "a*".toList :=
    .itself (by decide) (by decide) (.star List.nil_suffix .nil)
  have found := same.mpr matched
  rw [wildcardMatch_literally] at found
  have literally : GlobsLiterally ['a', '*', 'b'] ['a', '*'] := found
  cases literally with
  | itself others =>
      cases others with
      | star away _ _ => exact away rfl
      | itself last => cases last

end Rusmes
