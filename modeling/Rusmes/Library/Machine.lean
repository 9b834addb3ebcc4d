import Mathlib.Tactic.Common

/-!
Deterministic machines that go on or end. A loop of a program is a `step` on the
loop's state; `iterate` runs a bounded number of rounds, and the lemmas here say
how runs compose and how an invariant of one round carries over a whole run.
-/

namespace Machine

variable {State Result : Type}

inductive Progress (State Result : Type)
  | next (state : State)
  | ended (result : Result)

def Progress.goesOn (check : State → Bool) : Progress State Result → Bool
  | .next state => check state
  | .ended _ => false

theorem Progress.goesOn_iff {check : State → Bool} {progress : Progress State Result} :
    progress.goesOn check = true ↔ ∃ state, progress = .next state ∧ check state = true := by
  cases progress <;> simp [Progress.goesOn]

def iterate (step : State → Progress State Result) : Nat → State → Progress State Result
  | 0, state => .next state
  | rounds + 1, state =>
      match step state with
      | .next after => iterate step rounds after
      | .ended result => .ended result

variable {step : State → Progress State Result}

@[simp] theorem iterate_zero (state : State) : iterate step 0 state = .next state := rfl

theorem iterate_next {state after : State} (goes : step state = .next after) (rounds : Nat) :
    iterate step (rounds + 1) state = iterate step rounds after := by
  simp [iterate, goes]

theorem iterate_ended {state : State} {result : Result} (ends : step state = .ended result)
    (rounds : Nat) : iterate step (rounds + 1) state = .ended result := by
  simp [iterate, ends]

theorem iterate_add (first second : Nat) (state : State) :
    iterate step (first + second) state =
      match iterate step first state with
      | .next after => iterate step second after
      | .ended result => .ended result := by
  induction first generalizing state with
  | zero => simp
  | succ first ih =>
      rw [Nat.add_right_comm]
      cases advanced : step state with
      | next after => rw [iterate_next advanced, iterate_next advanced, ih]
      | ended result => rw [iterate_ended advanced, iterate_ended advanced]

theorem iterate_succ_next {rounds : Nat} {state after : State} :
    iterate step (rounds + 1) state = .next after ↔
      ∃ middle, iterate step rounds state = .next middle ∧ step middle = .next after := by
  rw [iterate_add]
  cases ran : iterate step rounds state with
  | ended result => simp
  | next middle =>
      cases advanced : step middle with
      | next last => simp [iterate, advanced]
      | ended result => simp [iterate, advanced]

/-- Induction over a run: what holds at the start and carries over each round of
this run holds at every round. -/
theorem iterate_induction {holds : Nat → State → Prop} {start : State} (initially : holds 0 start)
    (keeps : ∀ rounds state after, iterate step rounds start = .next state →
      holds rounds state → step state = .next after → holds (rounds + 1) after)
    {rounds : Nat} {state : State} (ran : iterate step rounds start = .next state) :
    holds rounds state := by
  induction rounds generalizing state with
  | zero =>
      rw [iterate_zero, Progress.next.injEq] at ran
      exact ran ▸ initially
  | succ rounds ih =>
      obtain ⟨middle, earlier, last⟩ := iterate_succ_next.mp ran
      exact keeps rounds middle state earlier (ih earlier) last

/-- A machine that keeps a property and never ends in a state that has it runs
for any number of rounds. -/
theorem iterate_forever {holds : State → Prop}
    (goes : ∀ state, holds state → ∃ after, step state = .next after ∧ holds after)
    {start : State} (initially : holds start) (rounds : Nat) :
    ∃ state, iterate step rounds start = .next state ∧ holds state := by
  induction rounds with
  | zero => exact ⟨start, rfl, initially⟩
  | succ rounds ih =>
      obtain ⟨middle, ran, reached⟩ := ih
      obtain ⟨after, last, kept⟩ := goes middle reached
      exact ⟨after, iterate_succ_next.mpr ⟨middle, ran, last⟩, kept⟩

/-- A machine whose every round lowers a measure ends within one round more than
the measure at the start. -/
theorem iterate_ends (step : State → Progress State Result) (measure : State → Nat)
    (lowers : ∀ state after, step state = .next after → measure after < measure state)
    (start : State) : ∃ result, iterate step (measure start + 1) start = .ended result := by
  induction size : measure start using Nat.strongRecOn generalizing start with
  | ind bound ih =>
      cases stepped : step start with
      | ended result => exact ⟨result, iterate_ended stepped bound⟩
      | next after =>
          have lower := lowers start after stepped
          obtain ⟨result, ended⟩ := ih (measure after) (by omega) after rfl
          refine ⟨result, ?_⟩
          rw [iterate_next stepped]
          have enough : bound = measure after + 1 + (bound - (measure after + 1)) := by omega
          rw [enough, iterate_add, ended]

section Inputs

variable {Input : Type} {advance : State → Input → State} (allowed : Input → Prop)
  (keeps : State → Prop) {good : State → Prop} {harmless : State → Input → Prop}

theorem foldl_keeps (preserved : ∀ state input, harmless state input → keeps state →
      keeps (advance state input))
    {inputs : List Input} {start : State}
    (steps : ∀ done input later, inputs = done ++ input :: later →
      harmless (done.foldl advance start) input)
    (initially : keeps start) {done : List Input} (part : done <+: inputs) :
    keeps (done.foldl advance start) := by
  induction inputs generalizing start done with
  | nil =>
      rw [List.prefix_nil.mp part]
      exact initially
  | cons first inputs ih =>
      cases done with
      | nil => exact initially
      | cons second done =>
          obtain ⟨same, part⟩ := List.cons_prefix_cons.mp part
          rw [same]
          refine ih ?_ (preserved start first (steps [] first inputs rfl) initially) part
          intro earlier input later split
          exact steps (first :: earlier) input later (by rw [split, List.cons_append])

/-- If one step from a good state stays good exactly when it is harmless, a run
from a good state is good throughout exactly when each of its steps is harmless. -/
theorem foldl_good_iff (preserved : ∀ state input, allowed input → keeps state → good state →
      good (advance state input) → keeps (advance state input))
    (exactly : ∀ state input, allowed input → keeps state → good state →
      (good (advance state input) ↔ harmless state input))
    {inputs : List Input} (only : ∀ input ∈ inputs, allowed input) {start : State}
    (initially : keeps start) (goodStart : good start) :
    (∀ done, done <+: inputs → good (done.foldl advance start)) ↔
      ∀ done input later, inputs = done ++ input :: later →
        harmless (done.foldl advance start) input := by
  induction inputs generalizing start with
  | nil =>
      constructor
      · intro _ done input later split
        simp at split
      · intro _ done part
        rw [List.prefix_nil.mp part]
        exact goodStart
  | cons first inputs ih =>
      have firstAllowed := only first List.mem_cons_self
      have firstExact := exactly start first firstAllowed initially goodStart
      have rest := fun goodNext => ih
        (fun other member => only other (List.mem_cons_of_mem first member))
        (preserved start first firstAllowed initially goodStart goodNext) goodNext
      constructor
      · intro always done input later split
        have goodNext := always [first] (List.cons_prefix_cons.mpr ⟨rfl, List.nil_prefix⟩)
        cases done with
        | nil =>
            rw [List.nil_append, List.cons.injEq] at split
            rw [← split.1]
            exact firstExact.mp goodNext
        | cons second done =>
            rw [List.cons_append, List.cons.injEq] at split
            rw [← split.1]
            refine (rest goodNext).mp ?_ done input later split.2
            intro more part
            exact always (first :: more) (List.cons_prefix_cons.mpr ⟨rfl, part⟩)
      · intro steps done part
        cases done with
        | nil => exact goodStart
        | cons second done =>
            obtain ⟨same, part⟩ := List.cons_prefix_cons.mp part
            rw [same]
            have goodNext := firstExact.mpr (steps [] first inputs rfl)
            refine (rest goodNext).mpr ?_ done part
            intro earlier input later split
            exact steps (first :: earlier) input later (by rw [split, List.cons_append])

end Inputs

section Answers

variable {Input Output : Type} {Model : Type}

def answers (respond : Input → State → Output × State) : List Input → State → List Output × State
  | [], state => ([], state)
  | input :: inputs, state =>
      let (output, state) := respond input state
      let (outputs, state) := answers respond inputs state
      (output :: outputs, state)

@[simp] theorem answers_nil (respond : Input → State → Output × State) (state : State) :
    answers respond [] state = ([], state) := rfl

theorem answers_cons (respond : Input → State → Output × State) (input : Input)
    (inputs : List Input) (state : State) :
    answers respond (input :: inputs) state =
      ((respond input state).1 :: (answers respond inputs (respond input state).2).1,
        (answers respond inputs (respond input state).2).2) := rfl

theorem answers_append (respond : Input → State → Output × State) (earlier later : List Input)
    (state : State) :
    answers respond (earlier ++ later) state =
      ((answers respond earlier state).1 ++
          (answers respond later (answers respond earlier state).2).1,
        (answers respond later (answers respond earlier state).2).2) := by
  induction earlier generalizing state with
  | nil => rfl
  | cons input earlier ih => rw [List.cons_append, answers_cons, answers_cons, ih, List.cons_append]

/-- A machine each of whose answers is the model's, with the relation kept, answers
like the model for any inputs. -/
theorem answers_refine {relates : State → Model → Prop} {respond : Input → State → Output × State}
    {specified : Input → Model → Output × Model}
    (one : ∀ input state model, relates state model →
      (respond input state).1 = (specified input model).1 ∧
        relates (respond input state).2 (specified input model).2)
    (inputs : List Input) {state : State} {model : Model} (initially : relates state model) :
    (answers respond inputs state).1 = (answers specified inputs model).1 ∧
      relates (answers respond inputs state).2 (answers specified inputs model).2 := by
  induction inputs generalizing state model with
  | nil => exact ⟨rfl, initially⟩
  | cons input inputs ih =>
      obtain ⟨same, kept⟩ := one input state model initially
      obtain ⟨rest, last⟩ := ih kept
      rw [answers_cons, answers_cons, same, rest]
      exact ⟨rfl, last⟩

end Answers

end Machine
