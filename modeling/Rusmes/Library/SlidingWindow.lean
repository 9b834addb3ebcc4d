import Mathlib.Data.List.Basic
import Mathlib.Data.List.Induction

/-!
Times in sliding windows. A list of times is thin for a width if no window that ends at one
of them holds more than a bound of those listed up to there; then no window at all does.
-/

namespace SlidingWindow

def recent (width now time : Nat) : Bool := now < time + width

def inWindow (width start time : Nat) : Bool := start ≤ time && time < start + width

def Thin (width bound : Nat) (times : List Nat) : Prop :=
  ∀ before time after, times = before ++ time :: after →
    (before ++ [time]).countP (recent width time) ≤ bound

theorem thin_nil (width bound : Nat) : Thin width bound [] := by
  intro before time after split
  simp at split

theorem Thin.snoc {width bound : Nat} {times : List Nat} (thin : Thin width bound times)
    {time : Nat} (room : (times ++ [time]).countP (recent width time) ≤ bound) :
    Thin width bound (times ++ [time]) := by
  intro before current after split
  rcases List.eq_nil_or_concat' after with none | ⟨others, last, shape⟩
  · rw [none] at split
    obtain ⟨same, final⟩ := List.append_inj' split rfl
    rw [List.cons.injEq] at final
    rw [← same, ← final.1]
    exact room
  · rw [shape, ← List.cons_append, ← List.append_assoc] at split
    exact thin before current others (List.append_inj' split rfl).1

theorem Thin.count_le {width bound : Nat} {times : List Nat} (thin : Thin width bound times)
    (start : Nat) : times.countP (inWindow width start) ≤ bound := by
  induction times using List.reverseRecOn with
  | nil => simp
  | append_singleton times time ih =>
      have earlier : Thin width bound times := by
        intro before current after split
        exact thin before current (after ++ [time]) (by simp [split])
      by_cases inside : inWindow width start time = true
      · have seen : (times ++ [time]).countP (inWindow width start) ≤
            (times ++ [time]).countP (recent width time) := by
          apply List.countP_mono_left
          intro other _ within
          simp only [inWindow, recent, Bool.and_eq_true, decide_eq_true_eq] at inside within ⊢
          omega
        have room := thin times time [] rfl
        omega
      · rw [List.countP_append, List.countP_singleton, if_neg inside]
        exact ih earlier

theorem countP_recent_filter {width earlier later : Nat} (order : earlier ≤ later)
    (times : List Nat) :
    (times.filter (recent width earlier)).countP (recent width later) =
      times.countP (recent width later) := by
  rw [List.countP_filter]
  apply List.countP_congr
  intro time _
  simp only [recent, Bool.and_eq_true, decide_eq_true_eq]
  omega

end SlidingWindow
