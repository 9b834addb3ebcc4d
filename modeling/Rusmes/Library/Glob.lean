import Mathlib.Data.List.Forall2
import Mathlib.Data.List.Infix

/-!
Patterns over an alphabet, where one symbol stands for any single symbol and another for
any list of them, or where some symbols stand for lists of the symbols they allow.
-/

section Glob

variable {α : Type} (any star : α)

inductive Glob : List α → List α → Prop
  | nil : Glob [] []
  | any (symbol : α) {value pattern : List α} (others : Glob value pattern) :
      Glob (symbol :: value) (any :: pattern)
  | star {value left pattern : List α} (suffix : left <:+ value) (others : Glob left pattern) :
      Glob value (star :: pattern)
  | itself {symbol : α} {value pattern : List α} (single : symbol ≠ any) (plain : symbol ≠ star)
      (others : Glob value pattern) : Glob (symbol :: value) (symbol :: pattern)

/-- A match in which a star that comes to stand at a star takes it, and nothing more. -/
inductive LiteralGlob : List α → List α → Prop
  | nil : LiteralGlob [] []
  | any (symbol : α) {value pattern : List α} (others : LiteralGlob value pattern) :
      LiteralGlob (symbol :: value) (any :: pattern)
  | star {value left pattern : List α} (away : value.head? ≠ some star) (suffix : left <:+ value)
      (others : LiteralGlob left pattern) : LiteralGlob value (star :: pattern)
  | itself {symbol : α} {value pattern : List α} (others : LiteralGlob value pattern) :
      LiteralGlob (symbol :: value) (symbol :: pattern)

variable {any star} {symbol character : α} {value pattern : List α}

theorem LiteralGlob.glob (matched : LiteralGlob any star value pattern) :
    Glob any star value pattern := by
  induction matched with
  | nil => exact .nil
  | any symbol _ ih => exact .any symbol ih
  | star _ suffix _ ih => exact .star suffix ih
  | @itself symbol value pattern _ ih =>
      by_cases single : symbol = any
      · rw [single]
        exact .any any ih
      · by_cases plain : symbol = star
        · rw [plain]
          exact .star (List.suffix_cons star value) ih
        · exact .itself single plain ih

theorem literalGlob_nil_iff :
    LiteralGlob any star [] pattern ↔ ∀ symbol ∈ pattern, symbol = star := by
  induction pattern with
  | nil => simp [LiteralGlob.nil]
  | cons symbol pattern ih =>
      rw [List.forall_mem_cons, ← ih]
      constructor
      · intro matched
        cases matched with
        | star _ suffix others =>
            rw [List.suffix_nil.mp suffix] at others
            exact ⟨rfl, others⟩
      · rintro ⟨rfl, others⟩
        exact .star nofun List.suffix_rfl others

theorem literalGlob_same_iff (distinct : any ≠ star) (same : symbol = any ∨ symbol = character) :
    LiteralGlob any star (character :: value) (symbol :: pattern) ↔
      LiteralGlob any star value pattern := by
  constructor
  · intro matched
    cases matched with
    | any _ others => exact others
    | itself others => exact others
    | star away _ _ =>
        rcases same with single | here
        · exact absurd single.symm distinct
        · exact absurd (congrArg some here.symm) away
  · intro others
    rcases same with rfl | rfl
    · exact .any character others
    · exact .itself others

theorem literalGlob_star_iff (distinct : any ≠ star) (away : character ≠ star) :
    LiteralGlob any star (character :: value) (star :: pattern) ↔
      ∃ left, left <:+ character :: value ∧ LiteralGlob any star left pattern := by
  constructor
  · intro matched
    cases matched with
    | any _ _ => exact absurd rfl distinct
    | itself _ => exact absurd rfl away
    | star _ suffix others => exact ⟨_, suffix, others⟩
  · rintro ⟨left, suffix, others⟩
    refine .star ?_ suffix others
    intro starts
    exact away (Option.some.inj starts)

theorem literalGlob_apart (single : symbol ≠ any) (other : symbol ≠ character)
    (plain : symbol ≠ star) :
    ¬LiteralGlob any star (character :: value) (symbol :: pattern) := by
  intro matched
  cases matched with
  | any _ _ => exact single rfl
  | itself _ => exact other rfl
  | star _ _ _ => exact plain rfl

/-- What was matched symbol by symbol need not be matched again: a match that starts over
it has a match of what comes after it. -/
theorem literalGlob_resume (distinct : any ≠ star) {taken passed rest : List α}
    (literally : List.Forall₂ (fun character symbol => symbol = any ∨ symbol = character)
      taken passed) :
    ∀ {left}, left <:+ taken ++ rest → LiteralGlob any star left (passed ++ pattern) →
      ∃ final, final <:+ rest ∧ LiteralGlob any star final pattern := by
  induction literally with
  | nil =>
      intro left suffix matched
      exact ⟨left, suffix, matched⟩
  | @cons character symbol taken passed same _ ih =>
      intro left suffix matched
      cases left with
      | nil =>
          have stars := literalGlob_nil_iff.mp matched
          refine ih List.nil_suffix (literalGlob_nil_iff.mpr ?_)
          intro symbol member
          exact stars symbol (List.mem_cons_of_mem _ member)
      | cons first left =>
          have later : left <:+ taken ++ rest := by
            rcases List.suffix_cons_iff.mp suffix with whole | inside
            · rw [(List.cons.inj whole).2]
              exact List.suffix_rfl
            · exact (List.suffix_cons first left).trans inside
          by_cases again : symbol = any ∨ symbol = first
          · exact ih later ((literalGlob_same_iff distinct again).mp matched)
          · rw [not_or] at again
            by_cases starred : symbol = star
            · -- the star stood at a star before, so the match starts after that
              have here : character = star := by
                rw [← starred]
                exact (same.resolve_left again.1).symm
              have away : first ≠ star := fun starts => again.2 (starred.trans starts.symm)
              rw [List.cons_append, starred, literalGlob_star_iff distinct away] at matched
              obtain ⟨inner, suffixes, others⟩ := matched
              rcases List.suffix_cons_iff.mp suffix with whole | inside
              · exact absurd ((List.cons.inj whole).1.trans here) away
              · exact ih (suffixes.trans inside) others
            · exact absurd matched (literalGlob_apart again.1 again.2 starred)

end Glob

section Wild

variable {α : Type} (wild : α → Option (α → Prop))

/-- A list is of the shape that a pattern gives, where a wild symbol stands for any list
of the symbols it allows and every other symbol for itself. -/
inductive Wild : List α → List α → Prop
  | nil : Wild [] []
  | skip {symbol : α} {allowed : α → Prop} {value pattern : List α} (skipped : List α)
      (wildcard : wild symbol = some allowed) (within : ∀ other ∈ skipped, allowed other)
      (others : Wild value pattern) : Wild (skipped ++ value) (symbol :: pattern)
  | itself {symbol : α} {value pattern : List α} (plain : wild symbol = none)
      (others : Wild value pattern) : Wild (symbol :: value) (symbol :: pattern)

variable {wild} {symbol : α} {allowed : α → Prop} {value pattern : List α}

theorem wild_nil_iff : Wild wild value [] ↔ value = [] := by
  constructor
  · intro matched
    cases matched
    rfl
  · rintro rfl
    exact .nil

theorem wild_skip_iff (wildcard : wild symbol = some allowed) :
    Wild wild value (symbol :: pattern) ↔
      ∃ taken < value.length + 1, (∀ other ∈ value.take taken, allowed other) ∧
        Wild wild (value.drop taken) pattern := by
  constructor
  · intro matched
    cases matched with
    | @skip _ allows value _ skipped same within others =>
        rw [Option.some.inj (wildcard.symm.trans same)]
        refine ⟨skipped.length, ?_, ?_, ?_⟩
        · simp only [List.length_append]
          omega
        · rw [List.take_left]
          exact within
        · rw [List.drop_left]
          exact others
    | itself plain _ => exact absurd (plain.symm.trans wildcard) (by simp)
  · rintro ⟨taken, _, within, others⟩
    rw [← List.take_append_drop taken value]
    exact .skip _ wildcard within others

theorem wild_last_iff (wildcard : wild symbol = some allowed) :
    Wild wild value [symbol] ↔ ∀ other ∈ value, allowed other := by
  rw [wild_skip_iff wildcard]
  constructor
  · rintro ⟨taken, _, within, others⟩
    rw [wild_nil_iff, List.drop_eq_nil_iff] at others
    rwa [List.take_of_length_le others] at within
  · intro within
    refine ⟨value.length, by omega, ?_, ?_⟩
    · rwa [List.take_length]
    · rw [List.drop_length]
      exact .nil

theorem wild_itself_iff (plain : wild symbol = none) :
    Wild wild value (symbol :: pattern) ↔
      ∃ rest, value = symbol :: rest ∧ Wild wild rest pattern := by
  constructor
  · intro matched
    cases matched with
    | skip _ wildcard _ _ => exact absurd (plain.symm.trans wildcard) (by simp)
    | itself _ others => exact ⟨_, rfl, others⟩
  · rintro ⟨rest, rfl, others⟩
    exact .itself plain others

end Wild
