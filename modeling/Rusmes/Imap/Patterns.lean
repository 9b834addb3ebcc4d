import Rusmes.Library.Glob
import Rusmes.Imap.Handlers

/-!
The patterns of LSUB: a loop that compares character by character and, at a wildcard, calls
itself with every rest of the name.
-/

namespace Rusmes

open WireText

def mailboxWild (symbol : Char) : Option (Char → Prop) :=
  if symbol = '*' then some fun _ => True
  else if symbol = '%' then some (· ≠ '/')
  else none

abbrev MatchesMailbox (name pattern : Text) : Prop := Wild mailboxWild name pattern

/-- One call of `match_mailbox_pattern`, with the calls it makes as a parameter. -/
def matchMailboxLoop (again : Text → Text → Option Bool) : Text → Text → Option Bool
  | [], [] => some true
  | _ :: _, [] => some false
  | name, '*' :: rest =>
      if rest = [] then some true
      else (List.range (name.length + 1)).anyM fun skipped => again (name.drop skipped) rest
  | name, '%' :: rest =>
      if rest = [] then some ('/' ∉ name)
      else (List.range (name.length + 1)).anyM fun skipped =>
        if '/' ∈ name.take skipped then some false else again (name.drop skipped) rest
  | character :: name, symbol :: pattern =>
      if symbol = character then matchMailboxLoop again name pattern else some false
  | [], _ :: _ => some false

/-- The calls nested at most so deep; `none` where that does not end them. -/
def matchMailboxCalls : Nat → Text → Text → Option Bool
  | 0, _, _ => none
  | depth + 1, name, pattern =>
      if pattern = ['*'] then some true
      else matchMailboxLoop (matchMailboxCalls depth) name pattern

section Calls

variable {symbol character : Char} {name pattern : Text}

theorem matchMailboxPattern_itself (star : symbol ≠ '*') (percent : symbol ≠ '%') :
    matchMailboxPattern (character :: name) (symbol :: pattern) =
      (character = symbol && matchMailboxPattern name pattern) := by
  rw [matchMailboxPattern]
  · exact star
  · exact percent

theorem matchMailboxPattern_over (star : symbol ≠ '*') (percent : symbol ≠ '%') :
    matchMailboxPattern [] (symbol :: pattern) = false := by
  rw [matchMailboxPattern]
  · exact star
  · exact percent

theorem anyM_some {α : Type} {items : List α} {run : α → Option Bool} {test : α → Bool}
    (runs : ∀ item ∈ items, run item = some (test item)) :
    items.anyM run = some (items.any test) := by
  induction items with
  | nil => rfl
  | cons item items ih =>
      have later := ih fun other member => runs other (List.mem_cons_of_mem _ member)
      rw [List.anyM, runs item List.mem_cons_self, List.any_cons]
      cases test item with
      | true => rfl
      | false => simpa using later

theorem matchMailboxLoop_eq (again : Text → Text → Option Bool) (name pattern : Text)
    (shorter : ∀ rest, rest.length < pattern.length → ∀ name,
      again name rest = some (matchMailboxPattern name rest)) :
    matchMailboxLoop again name pattern = some (matchMailboxPattern name pattern) := by
  fun_induction matchMailboxLoop again name pattern with
  | case1 => simp [matchMailboxPattern]
  | case2 => simp [matchMailboxPattern]
  | case3 => simp [matchMailboxPattern]
  | case4 name rest more =>
      rw [matchMailboxPattern, decide_eq_false more, Bool.false_or]
      apply anyM_some
      intro skipped _
      exact shorter rest (by simp) _
  | case5 => simp [matchMailboxPattern]
  | case6 name rest more =>
      rw [matchMailboxPattern, if_neg more]
      apply anyM_some
      intro skipped _
      by_cases crossed : '/' ∈ name.take skipped
      · simp [crossed]
      · simp [crossed, shorter rest]
  | case7 name symbol pattern star percent ih =>
      rw [ih fun rest below => shorter rest (Nat.lt_succ_of_lt below)]
      rw [matchMailboxPattern_itself star percent, decide_eq_true rfl, Bool.true_and]
  | case8 character name symbol pattern star percent other =>
      rw [matchMailboxPattern_itself star percent, decide_eq_false (Ne.symm other),
        Bool.false_and]
  | case9 symbol pattern star percent => rw [matchMailboxPattern_over star percent]

theorem matchMailboxCalls_eq (depth : Nat) (name pattern : Text) (deep : pattern.length < depth) :
    matchMailboxCalls depth name pattern = some (matchMailboxPattern name pattern) := by
  induction depth generalizing name pattern with
  | zero => omega
  | succ depth ih =>
      rw [matchMailboxCalls]
      split
      · next whole => simp [whole, matchMailboxPattern]
      · apply matchMailboxLoop_eq
        intro rest below name
        exact ih name rest (by omega)

end Calls

theorem matchMailboxPattern_iff (name pattern : Text) :
    matchMailboxPattern name pattern = true ↔ MatchesMailbox name pattern := by
  induction pattern generalizing name with
  | nil => simp [matchMailboxPattern, MatchesMailbox, wild_nil_iff]
  | cons symbol rest ih =>
      by_cases star : symbol = '*'
      · have wildcard : mailboxWild symbol = some fun _ => True := by simp [mailboxWild, star]
        by_cases last : rest = []
        · subst star last
          simp [matchMailboxPattern, MatchesMailbox, wild_last_iff wildcard]
        · subst star
          rw [matchMailboxPattern, MatchesMailbox, wild_skip_iff wildcard]
          simp [last, ih, MatchesMailbox]
      · by_cases percent : symbol = '%'
        · have wildcard : mailboxWild symbol = some (· ≠ '/') := by simp [mailboxWild, percent]
          have level : ∀ text : Text, (∀ other ∈ text, other ≠ '/') ↔ '/' ∉ text := by
            intro text
            constructor
            · intro within member
              exact within '/' member rfl
            · intro outside other member same
              exact outside (same ▸ member)
          by_cases last : rest = []
          · subst percent last
            simp [matchMailboxPattern, MatchesMailbox, wild_last_iff wildcard, level]
          · subst percent
            rw [matchMailboxPattern, MatchesMailbox, wild_skip_iff wildcard]
            simp [last, ih, MatchesMailbox, level]
        · have plain : mailboxWild symbol = none := by simp [mailboxWild, star, percent]
          rw [MatchesMailbox, wild_itself_iff plain]
          cases name with
          | nil => simp [matchMailboxPattern_over star percent]
          | cons character name =>
              rw [matchMailboxPattern_itself star percent]
              simp [ih, MatchesMailbox]

/-- Calls nested no deeper than the pattern is long come to an end, with the answer of the
wildcard relation. -/
theorem mailboxPattern_wildcards (name pattern : Text) (spare : Nat) :
    matchMailboxCalls (pattern.length + 1 + spare) name pattern =
        some (matchMailboxPattern name pattern) ∧
      (matchMailboxPattern name pattern = true ↔ MatchesMailbox name pattern) := by
  constructor
  · apply matchMailboxCalls_eq
    omega
  · exact matchMailboxPattern_iff name pattern

end Rusmes
