import Rusmes.Core.Router

/-!
What becomes of the action a mailet returns. The chain looks at the state the
mailet leaves in the mail and never at the action, and a portion split off is not
returned, so an action is honoured exactly when the mailet has carried it out on
the whole mail itself.
-/

namespace Rusmes

variable {σ : Type}

/-- The portion leaves the processor in the state asked for and no later mailet
runs on it; a dropped portion ends as a ghost. -/
def Honoured (outcome : Except String Mail) (invocation : Invocation σ)
    (later : List (Invocation σ)) : Prop :=
  match invocation.result with
  | .ok (some (.changeState target)) =>
      invocation.whole = true ∧ invocation.after.state = target ∧
        later = [] ∧ outcome = .ok invocation.after
  | .ok (some .drop) =>
      invocation.after.state = .ghost ∧
        (invocation.whole = true → later = [] ∧ outcome = .ok invocation.after)
  | _ => True

/-- Below the depth limit every router that has the processor registered for the
mail's state goes on with the processor registered for the state asked for. A mail
in `Ghost` is consumed and one in the state it came in is complete. -/
def SentOn (runtime : Runtime σ) (processor : Processor σ) (mail : Mail) (world : σ)
    (invocation : Invocation σ) : Prop :=
  ∀ target, invocation.result = .ok (some (.changeState target)) →
    target ≠ .ghost → target ≠ mail.state →
    ∀ (router : MailProcessorRouter σ) (depth : Nat),
      router.processors.lookup mail.state = some processor → depth < maxDepth →
      ∃ next, router.routeStep runtime ⟨depth, mail, world⟩ = .next next ∧
        next.mail = invocation.after ∧ router.receiver next = router.processors.lookup target

def HonoursActions (runtime : Runtime σ) (processor : Processor σ) (mail : Mail) (world : σ) :
    Prop :=
  ∀ invocation later, invocation :: later <:+ (processor.process runtime mail world).trace →
    Honoured (processor.process runtime mail world).outcome invocation later ∧
      SentOn runtime processor mail world invocation

def Unmatched : List (ProcessingStep σ) → Mail → σ → Prop
  | [], _, _ => True
  | step :: rest, mail, world =>
      ∃ next, step.matcher.matchMail mail world = (.ok [], next) ∧ Unmatched rest mail next

/-- The mailet that asked for the state was given the whole mail and set the state
itself, and the state is not the processor's or no later step matches. -/
def CarriedOut (state : MailState) (rest : List (ProcessingStep σ)) (invocation : Invocation σ) :
    Prop :=
  match invocation.result with
  | .ok (some (.changeState target)) =>
      invocation.whole = true ∧ invocation.after.state = target ∧
        (target ≠ state ∨ Unmatched rest invocation.after invocation.world)
  | .ok (some .drop) =>
      invocation.after.state = .ghost ∧
        (invocation.whole = true →
          MailState.ghost ≠ state ∨ Unmatched rest invocation.after invocation.world)
  | _ => True

def Processor.AlongChain (runtime : Runtime σ) (processor : Processor σ)
    (holds : List (ProcessingStep σ) → Invocation σ → Prop) :
    Nat → List (ProcessingStep σ) → Mail → σ → Prop
  | _, [], _, _ => True
  | index, step :: rest, mail, world =>
      (∀ invocation ∈ (processor.runStep runtime index step mail world).trace,
        holds rest invocation) ∧
      ∀ after, (processor.runStep runtime index step mail world).outcome = .remaining after →
        processor.AlongChain runtime holds (index + 1) rest after
          (processor.runStep runtime index step mail world).world

theorem Processor.runStep_cases (runtime : Runtime σ) (processor : Processor σ) (index : Nat)
    (step : ProcessingStep σ) (mail : Mail) (world : σ) :
    (∃ error next, processor.runStep runtime index step mail world = ⟨.failed error, next, []⟩) ∨
    (∃ next, step.matcher.matchMail mail world = (.ok [], next) ∧
      processor.runStep runtime index step mail world = ⟨.remaining mail, next, []⟩) ∨
    ∃ invocation,
      (∃ error, invocation.result = .error error ∧
        processor.runStep runtime index step mail world =
          ⟨.failed error, invocation.world, [invocation]⟩) ∨
      (∃ unmatched, invocation.whole = false ∧
        processor.runStep runtime index step mail world =
          ⟨processor.checkState unmatched, invocation.world, [invocation]⟩) ∨
      (invocation.result = .ok none ∧
        processor.runStep runtime index step mail world =
          ⟨.remaining invocation.after, invocation.world, [invocation]⟩) ∨
      (invocation.whole = true ∧
        processor.runStep runtime index step mail world =
          ⟨processor.checkState invocation.after, invocation.world, [invocation]⟩) := by
  rcases found : step.matcher.matchMail mail world with ⟨selected, next⟩
  cases selected with
  | error error => exact Or.inl ⟨error, next, by simp [Processor.runStep, found]⟩
  | ok matched =>
      by_cases empty : matched = []
      · subst empty
        exact Or.inr (Or.inl ⟨next, rfl, by simp [Processor.runStep, found]⟩)
      · refine Or.inr (Or.inr ?_)
        by_cases divides : matched.length < mail.recipients.length
        · have dispatched : processor.runStep runtime index step mail world =
              processor.splitStep runtime index step matched mail next := by
            simp [Processor.runStep, found, empty, divides]
          let fresh := runtime.newMailId next
          let portion := (mail.split fresh.1 matched).1
          rcases answered : invokeWithPolicy runtime step.mailet portion step.config fresh.2 with
            ⟨result, after, world⟩
          refine ⟨⟨index, false, portion, result, after, world⟩, ?_⟩
          rw [dispatched]
          cases result with
          | error error =>
              refine Or.inl ⟨error, rfl, ?_⟩
              simp [Processor.splitStep, fresh, portion, answered]
          | ok action =>
              refine Or.inr (Or.inl ⟨(mail.split fresh.1 matched).2, rfl, ?_⟩)
              simp [Processor.splitStep, fresh, portion, answered]
        · have dispatched : processor.runStep runtime index step mail world =
              processor.wholeStep runtime index step mail next := by
            simp [Processor.runStep, found, empty, divides]
          rcases answered : invokeWithPolicy runtime step.mailet mail step.config next with
            ⟨result, after, world⟩
          refine ⟨⟨index, true, mail, result, after, world⟩, ?_⟩
          rw [dispatched]
          cases result with
          | error error =>
              refine Or.inl ⟨error, rfl, ?_⟩
              simp [Processor.wholeStep, answered]
          | ok action =>
              cases action with
              | none =>
                  refine Or.inr (Or.inr (Or.inl ⟨rfl, ?_⟩))
                  simp [Processor.wholeStep, answered]
              | some action =>
                  refine Or.inr (Or.inr (Or.inr ⟨rfl, ?_⟩))
                  simp [Processor.wholeStep, answered]

theorem Processor.processFrom_unmatched_iff (runtime : Runtime σ) (processor : Processor σ)
    (index : Nat) (steps : List (ProcessingStep σ)) (mail : Mail) (world : σ) :
    ((processor.processFrom runtime index steps mail world).trace = [] ∧
      (processor.processFrom runtime index steps mail world).outcome = .ok mail) ↔
      Unmatched steps mail world := by
  induction steps generalizing index world with
  | nil => simp [Processor.processFrom, Unmatched]
  | cons step rest ih =>
      simp only [Unmatched]
      rcases processor.runStep_cases runtime index step mail world with
        ⟨error, next, ran⟩ | ⟨next, unselected, ran⟩ | ⟨invocation, invoked⟩
      · simp only [Processor.processFrom, ran]
        constructor
        · rintro ⟨_, impossible⟩
          cases impossible
        · rintro ⟨next, unselected, _⟩
          simp [Processor.runStep, unselected] at ran
      · simp only [Processor.processFrom, ran, List.nil_append, unselected, Prod.mk.injEq, true_and,
          exists_eq_left']
        exact ih (index + 1) next
      · have traced : (processor.runStep runtime index step mail world).trace = [invocation] := by
          rcases invoked with ⟨_, _, ran⟩ | ⟨_, _, ran⟩ | ⟨_, ran⟩ | ⟨_, ran⟩ <;> rw [ran]
        constructor
        · rintro ⟨untouched, _⟩
          simp only [Processor.processFrom] at untouched
          split at untouched <;> simp [traced] at untouched
        · rintro ⟨next, unselected, _⟩
          simp [Processor.runStep, unselected] at traced

theorem honoured_split_iff (state : MailState) (rest : List (ProcessingStep σ))
    {outcome : Except String Mail} {invocation : Invocation σ} {later : List (Invocation σ)}
    (split : invocation.whole = false) :
    Honoured outcome invocation later ↔ CarriedOut state rest invocation := by
  simp [Honoured, CarriedOut, split]

theorem honoured_whole_iff (state : MailState) (rest : List (ProcessingStep σ))
    {outcome : Except String Mail} {invocation : Invocation σ} {later : List (Invocation σ)}
    (leaves : (later = [] ∧ outcome = .ok invocation.after) ↔
      (invocation.after.state ≠ state ∨ Unmatched rest invocation.after invocation.world)) :
    Honoured outcome invocation later ↔ CarriedOut state rest invocation := by
  simp only [Honoured, CarriedOut]
  split
  · constructor
    · rintro ⟨whole, rfl, left⟩
      exact ⟨whole, rfl, leaves.mp left⟩
    · rintro ⟨whole, rfl, left⟩
      exact ⟨whole, rfl, leaves.mpr left⟩
  · constructor
    · rintro ⟨ghost, left⟩
      exact ⟨ghost, fun whole => ghost ▸ leaves.mp (left whole)⟩
    · rintro ⟨ghost, left⟩
      exact ⟨ghost, fun whole => leaves.mpr (ghost ▸ left whole)⟩
  · rfl

theorem forall_suffix_cons {holds : Invocation σ → List (Invocation σ) → Prop}
    {first : Invocation σ} {trace : List (Invocation σ)} :
    (∀ invocation later, invocation :: later <:+ first :: trace → holds invocation later) ↔
      holds first trace ∧
        ∀ invocation later, invocation :: later <:+ trace → holds invocation later := by
  constructor
  · intro every
    refine ⟨every first trace (List.suffix_refl _), fun invocation later inside => ?_⟩
    exact every invocation later (inside.trans (List.suffix_cons first trace))
  · rintro ⟨here, others⟩ invocation later inside
    rcases List.suffix_cons_iff.mp inside with same | inside
    · rw [List.cons.injEq] at same
      rw [same.1, same.2]
      exact here
    · exact others invocation later inside

theorem Processor.processFrom_honoured_iff (runtime : Runtime σ) (processor : Processor σ)
    (index : Nat) (steps : List (ProcessingStep σ)) (mail : Mail) (world : σ) :
    (∀ invocation later,
      invocation :: later <:+ (processor.processFrom runtime index steps mail world).trace →
      Honoured (processor.processFrom runtime index steps mail world).outcome invocation later) ↔
      processor.AlongChain runtime (CarriedOut processor.state) index steps mail world := by
  induction steps generalizing index mail world with
  | nil => simp [Processor.processFrom, Processor.AlongChain]
  | cons step rest ih =>
      simp only [Processor.AlongChain]
      rcases processor.runStep_cases runtime index step mail world with
        ⟨error, next, ran⟩ | ⟨next, unselected, ran⟩ | ⟨invocation, invoked⟩
      · simp [Processor.processFrom, ran]
      · simp only [Processor.processFrom, ran, List.nil_append, List.not_mem_nil,
          StepOutcome.remaining.injEq, forall_eq']
        rw [ih (index + 1) mail next]
        simp
      · rcases invoked with ⟨error, failed, ran⟩ | ⟨unmatched, split, ran⟩ | ⟨skipped, ran⟩ |
          ⟨whole, ran⟩
        · simp only [Processor.processFrom, ran, forall_suffix_cons, List.mem_singleton, forall_eq]
          simp [Honoured, CarriedOut, failed]
        · by_cases kept : unmatched.state = processor.state
          · simp only [Processor.processFrom, ran, Processor.checkState_remaining kept,
              List.cons_append, List.nil_append, forall_suffix_cons, List.mem_singleton, forall_eq,
              StepOutcome.remaining.injEq, forall_eq']
            rw [ih, honoured_split_iff processor.state rest split]
          · simp only [Processor.processFrom, ran, Processor.checkState_left kept,
              forall_suffix_cons, List.mem_singleton, forall_eq]
            rw [honoured_split_iff processor.state rest split]
            simp
        · simp only [Processor.processFrom, ran, List.cons_append, List.nil_append,
            forall_suffix_cons, List.mem_singleton, forall_eq, StepOutcome.remaining.injEq,
            forall_eq']
          rw [ih]
          simp [Honoured, CarriedOut, skipped]
        · by_cases kept : invocation.after.state = processor.state
          · simp only [Processor.processFrom, ran, Processor.checkState_remaining kept,
              List.cons_append, List.nil_append, forall_suffix_cons, List.mem_singleton, forall_eq,
              StepOutcome.remaining.injEq, forall_eq']
            rw [ih, honoured_whole_iff processor.state rest]
            rw [processor.processFrom_unmatched_iff]
            simp [kept]
          · simp only [Processor.processFrom, ran, Processor.checkState_left kept,
              forall_suffix_cons, List.mem_singleton, forall_eq]
            rw [honoured_whole_iff processor.state rest (by simp [kept])]
            simp

theorem sentOn_of_honoured {runtime : Runtime σ} {processor : Processor σ} {mail : Mail}
    {world : σ} {invocation : Invocation σ} {later : List (Invocation σ)}
    (honoured : Honoured (processor.process runtime mail world).outcome invocation later) :
    SentOn runtime processor mail world invocation := by
  intro target asked visible other router depth registered within
  simp only [Honoured, asked] at honoured
  obtain ⟨_, left, _, finished⟩ := honoured
  have unguarded : (Routing.mk depth mail world).guarded = mail :=
    Routing.guarded_within (Nat.le_of_lt within)
  refine ⟨⟨depth + 1, invocation.after, (processor.process runtime mail world).world⟩, ?_, rfl, ?_⟩
  · rw [MailProcessorRouter.routeStep_next_iff, unguarded]
    simp [MailProcessorRouter.handsOn, registered, finished, left, visible, other]
  · have below : depth + 1 ≤ maxDepth := within
    rw [MailProcessorRouter.receiver, Routing.guarded_within below, left]

/-- The actions of a run are honoured exactly when, at every step the loop gets
to, the mailet has carried its action out itself. -/
theorem Processor.process_honours_iff (runtime : Runtime σ) (processor : Processor σ) (mail : Mail)
    (world : σ) :
    HonoursActions runtime processor mail world ↔
      processor.AlongChain runtime (CarriedOut processor.state) 0 processor.steps mail world := by
  rw [← processor.processFrom_honoured_iff]
  constructor
  · intro honours invocation later inside
    exact (honours invocation later inside).1
  · intro honours invocation later inside
    have honoured := honours invocation later inside
    exact ⟨honoured, sentOn_of_honoured honoured⟩

/-- The processor of the router's own test: its mailet asks for `Transport` and
leaves the mail alone. -/
def changesToTransport : Processor Unit where
  name := "root"
  state := .root
  steps := [{
    matcher := ⟨"All", fun mail world => (.ok mail.recipients, world)⟩
    mailet := ⟨"StateChangeMailet", fun mail world =>
      ⟨.ok (.changeState .transport), mail, world, 0, fun _ => (mail, world)⟩⟩
    config := {} }]

theorem changeState_ignored :
    ¬HonoursActions idleRuntime changesToTransport (noteFromAlice [bob]) () := by
  intro honours
  have honoured := (honours ⟨0, true, noteFromAlice [bob], .ok (some (.changeState .transport)),
    noteFromAlice [bob], ()⟩ [] (List.suffix_refl _)).1
  exact absurd honoured.2.1 (by decide)

end Rusmes
