import Rusmes.Core.Processor

/-!
What a failed attempt of a mailet leaves behind. The mailet works on the mail itself, so
the next attempt and the next step see what it has done before it failed, and a portion
split off for a step that is then skipped is not merged again.
-/

namespace Rusmes

open WireText

variable {σ : Type}

def retryAttempts (runtime : Runtime σ) (mailet : Mailet σ) (timeoutMs : Option Nat)
    (backoffMs : Nat) : Nat → Mail → σ → List (Mail × σ)
  | left, mail, world =>
      (mail, world) ::
        match invokeWithTimeout mailet mail timeoutMs world with
        | (.ok _, _, _) => []
        | (.error _, after, world) =>
            match left with
            | 0 => []
            | left + 1 =>
                retryAttempts runtime mailet timeoutMs backoffMs left after
                  (runtime.sleep backoffMs world)

def QuietAttempts (runtime : Runtime σ) (mailet : Mailet σ) (timeoutMs : Option Nat)
    (backoffMs : Nat) : Nat → Mail → σ → Prop
  | 0, _, _ => True
  | left + 1, mail, world =>
      ∀ error after next, invokeWithTimeout mailet mail timeoutMs world = (.error error, after, next) →
        after = mail ∧
          QuietAttempts runtime mailet timeoutMs backoffMs left after (runtime.sleep backoffMs next)

/-- What a step gives its mailet: all of the mail, or the portion split off for it. -/
structure Portion (σ : Type) where
  whole : Bool
  mail : Mail
  world : σ

def ProcessingStep.served (runtime : Runtime σ) (step : ProcessingStep σ) (mail : Mail)
    (world : σ) : Option (Portion σ) :=
  match step.matcher.matchMail mail world with
  | (.error _, _) => none
  | (.ok matched, world) =>
      if matched.isEmpty then none
      else if matched.length < mail.recipients.length then
        let (fresh, world) := runtime.newMailId world
        some ⟨false, (mail.split fresh matched).1, world⟩
      else some ⟨true, mail, world⟩

/-- A failed attempt of the step is seen by no other attempt and by no other step: each
attempt has the mail that the first one had, and a step skipped might as well be absent. -/
def ProcessingStep.LeavesNoTrace (runtime : Runtime σ) (processor : Processor σ) (index : Nat)
    (step : ProcessingStep σ) (mail : Mail) (world : σ) : Prop :=
  ∀ portion, step.served runtime mail world = some portion →
    match step.config.errorPolicy with
    | .abort => True
    | .retry max backoffMs =>
        (retryAttempts runtime step.mailet step.config.timeoutMs backoffMs max portion.mail
          portion.world).IsChain fun attempt next => next.1 = attempt.1
    | .skip =>
        ∀ error after next,
          invokeWithTimeout step.mailet portion.mail step.config.timeoutMs portion.world =
              (.error error, after, next) →
            (processor.runStep runtime index step mail world).outcome = .remaining mail ∧
              ∀ rest, (processor.processFrom runtime index (step :: rest) mail world).outcome =
                (processor.processFrom runtime (index + 1) rest mail next).outcome

/-- The mailet leaves the mail alone when it fails, and where a portion was split off for
it, the portion has nobody that the mail had. -/
def ProcessingStep.FailsQuietly (runtime : Runtime σ) (processor : Processor σ)
    (step : ProcessingStep σ) (mail : Mail) (world : σ) : Prop :=
  ∀ portion, step.served runtime mail world = some portion →
    match step.config.errorPolicy with
    | .abort => True
    | .retry max backoffMs =>
        QuietAttempts runtime step.mailet step.config.timeoutMs backoffMs max portion.mail
          portion.world
    | .skip =>
        ∀ error after next,
          invokeWithTimeout step.mailet portion.mail step.config.timeoutMs portion.world =
              (.error error, after, next) →
            if portion.whole then after = portion.mail
            else (∀ recipient ∈ mail.recipients, recipient ∉ portion.mail.recipients) ∧
              mail.state = processor.state

/-- A property of a step, its mail and its world holds at every step the loop gets to. -/
def Processor.AtEachStep (runtime : Runtime σ) (processor : Processor σ)
    (holds : Nat → ProcessingStep σ → Mail → σ → Prop) :
    Nat → List (ProcessingStep σ) → Mail → σ → Prop
  | _, [], _, _ => True
  | index, step :: rest, mail, world =>
      holds index step mail world ∧
        ∀ after, (processor.runStep runtime index step mail world).outcome = .remaining after →
          processor.AtEachStep runtime holds (index + 1) rest after
            (processor.runStep runtime index step mail world).world

section Retry

variable {runtime : Runtime σ} {mailet : Mailet σ} {timeoutMs : Option Nat} {max backoffMs : Nat}

theorem retryAttempts_chain_iff (left : Nat) (mail : Mail) (world : σ) :
    ((retryAttempts runtime mailet timeoutMs backoffMs left mail world).IsChain
        fun attempt next => next.1 = attempt.1) ↔
      QuietAttempts runtime mailet timeoutMs backoffMs left mail world := by
  induction left generalizing mail world with
  | zero =>
      rw [retryAttempts, QuietAttempts, iff_true]
      rcases invokeWithTimeout mailet mail timeoutMs world with ⟨_ | _, _, _⟩ <;>
        exact List.IsChain.singleton _
  | succ left ih =>
      rw [retryAttempts, QuietAttempts]
      rcases invokeWithTimeout mailet mail timeoutMs world with ⟨error | action, after, next⟩
      · have shape : ∃ others,
            retryAttempts runtime mailet timeoutMs backoffMs left after
              (runtime.sleep backoffMs next) = (after, runtime.sleep backoffMs next) :: others := by
          rw [retryAttempts]
          exact ⟨_, rfl⟩
        obtain ⟨others, shape⟩ := shape
        have later := ih after (runtime.sleep backoffMs next)
        dsimp only
        rw [shape] at later ⊢
        rw [List.isChain_cons_cons, later]
        constructor
        · rintro ⟨same, quiet⟩ _ _ _ ran
          obtain ⟨_, rfl, rfl⟩ := Prod.mk.inj ran |>.imp_right Prod.mk.inj
          exact ⟨same, quiet⟩
        · intro quiet
          exact quiet error after next rfl
      · refine iff_of_true (List.IsChain.singleton _) ?_
        intro error after next ran
        cases ran

end Retry

section Skip

variable {runtime : Runtime σ} {processor : Processor σ} {step : ProcessingStep σ} {index : Nat}
  {mail portion after : Mail} {world next last : σ} {error : MailetError}

theorem invokeWithPolicy_skipped (policy : step.config.errorPolicy = .skip)
    (failed : invokeWithTimeout step.mailet portion step.config.timeoutMs next =
      (.error error, after, last)) :
    invokeWithPolicy runtime step.mailet portion step.config next = (.ok none, after, last) := by
  rw [invokeWithPolicy, policy]
  dsimp only
  rw [failed]

theorem runStep_skipped_whole (policy : step.config.errorPolicy = .skip)
    (served : step.served runtime mail world = some ⟨true, portion, next⟩)
    (failed : invokeWithTimeout step.mailet portion step.config.timeoutMs next =
      (.error error, after, last)) :
    portion = mail ∧ (processor.runStep runtime index step mail world).outcome = .remaining after ∧
      (processor.runStep runtime index step mail world).world = last := by
  rw [ProcessingStep.served] at served
  rw [Processor.runStep]
  rcases found : step.matcher.matchMail mail world with ⟨_ | matched, middle⟩
  · rw [found] at served
    cases served
  · rw [found] at served
    dsimp only at served ⊢
    split at served
    · cases served
    · split at served
      · cases served
      · rename_i some all
        obtain ⟨rfl, rfl⟩ := (Portion.mk.inj (Option.some.inj served)).2
        simp only [if_neg some, if_neg all, Processor.wholeStep,
          invokeWithPolicy_skipped policy failed, and_self]

theorem runStep_skipped_split (policy : step.config.errorPolicy = .skip)
    (served : step.served runtime mail world = some ⟨false, portion, next⟩)
    (failed : invokeWithTimeout step.mailet portion step.config.timeoutMs next =
      (.error error, after, last)) :
    (processor.runStep runtime index step mail world).outcome =
        processor.checkState { mail with
          recipients := mail.recipients.filter fun recipient =>
            !portion.recipients.contains recipient } ∧
      (processor.runStep runtime index step mail world).world = last := by
  rw [ProcessingStep.served] at served
  rw [Processor.runStep]
  rcases found : step.matcher.matchMail mail world with ⟨_ | matched, middle⟩
  · rw [found] at served
    cases served
  · rw [found] at served
    dsimp only at served ⊢
    split at served
    · cases served
    · split at served
      · rename_i some divides
        obtain ⟨rfl, rfl⟩ := (Portion.mk.inj (Option.some.inj served)).2
        simp only [if_neg some, if_pos divides, Processor.splitStep,
          invokeWithPolicy_skipped policy failed]
        exact ⟨rfl, trivial⟩
      · cases served

theorem checkState_eq_remaining_iff {checked : Mail} :
    processor.checkState checked = .remaining mail ↔
      checked = mail ∧ mail.state = processor.state := by
  rw [Processor.checkState]
  by_cases changed : checked.state ≠ processor.state
  · rw [if_pos changed]
    constructor
    · intro impossible
      cases impossible
    · rintro ⟨rfl, kept⟩
      exact absurd kept changed
  · rw [if_neg changed, StepOutcome.remaining.injEq]
    rw [not_ne_iff] at changed
    exact ⟨fun same => ⟨same, same ▸ changed⟩, fun both => both.1⟩

theorem unmatched_eq_iff (matched : List MailAddress) :
    ({ mail with recipients := mail.recipients.filter fun recipient =>
        !matched.contains recipient } : Mail) = mail ↔
      ∀ recipient ∈ mail.recipients, recipient ∉ matched := by
  constructor
  · intro same recipient member
    have kept := congrArg Mail.recipients same
    rw [List.filter_eq_self] at kept
    simpa using kept recipient member
  · intro apart
    have kept : (mail.recipients.filter fun recipient => !matched.contains recipient) =
        mail.recipients := by
      rw [List.filter_eq_self]
      intro recipient member
      simpa using apart recipient member
    rw [kept]

theorem processFrom_remaining {rest : List (ProcessingStep σ)}
    (remains : (processor.runStep runtime index step mail world).outcome = .remaining after)
    (left : (processor.runStep runtime index step mail world).world = last) :
    (processor.processFrom runtime index (step :: rest) mail world).outcome =
      (processor.processFrom runtime (index + 1) rest after last).outcome := by
  simp only [Processor.processFrom, remains, left]

theorem ProcessingStep.leavesNoTrace_iff (runtime : Runtime σ) (processor : Processor σ)
    (index : Nat) (step : ProcessingStep σ) (mail : Mail) (world : σ) :
    step.LeavesNoTrace runtime processor index mail world ↔
      step.FailsQuietly runtime processor mail world := by
  rw [LeavesNoTrace, FailsQuietly]
  refine forall₂_congr fun portion served => ?_
  cases policy : step.config.errorPolicy with
  | abort => exact Iff.rfl
  | retry max backoffMs => exact retryAttempts_chain_iff max portion.mail portion.world
  | skip =>
      refine forall₄_congr fun error after next failed => ?_
      rcases portion with ⟨_ | _, portion, start⟩
      · obtain ⟨outcome, left⟩ := @runStep_skipped_split _ runtime processor step index mail portion
          after world start next error policy served failed
        rw [if_neg Bool.false_ne_true, ← unmatched_eq_iff, ← checkState_eq_remaining_iff, ← outcome]
        exact ⟨And.left, fun remains => ⟨remains, fun _ => processFrom_remaining remains left⟩⟩
      · obtain ⟨rfl, outcome, left⟩ := @runStep_skipped_whole _ runtime processor step index mail
          portion after world start next error policy served failed
        rw [if_pos rfl, outcome, StepOutcome.remaining.injEq]
        refine ⟨And.left, fun same => ⟨same, fun _ => ?_⟩⟩
        rw [same] at outcome
        exact processFrom_remaining outcome left

end Skip

theorem Processor.atEachStep_congr {runtime : Runtime σ} {processor : Processor σ}
    {first second : Nat → ProcessingStep σ → Mail → σ → Prop}
    (same : ∀ index step mail world, first index step mail world ↔ second index step mail world)
    (index : Nat) (steps : List (ProcessingStep σ)) (mail : Mail) (world : σ) :
    processor.AtEachStep runtime first index steps mail world ↔
      processor.AtEachStep runtime second index steps mail world := by
  induction steps generalizing index mail world with
  | nil => exact Iff.rfl
  | cons step rest ih =>
      rw [AtEachStep, AtEachStep, same]
      exact and_congr_right fun _ => forall₂_congr fun after _ => ih _ _ _

/-- No failure of a run leaves a trace, exactly when at every step it gets to the mailet
fails quietly. -/
theorem Processor.process_leavesNoTrace_iff (runtime : Runtime σ) (processor : Processor σ)
    (mail : Mail) (world : σ) :
    processor.AtEachStep runtime (fun index step => step.LeavesNoTrace runtime processor index) 0
        processor.steps mail world ↔
      processor.AtEachStep runtime (fun _ step => step.FailsQuietly runtime processor) 0
        processor.steps mail world :=
  processor.atEachStep_congr
    (fun index step mail world => step.leavesNoTrace_iff runtime processor index mail world) 0
    processor.steps mail world

def marksThenFails : Processor Unit where
  name := "root"
  state := .root
  steps := [{
    matcher := ⟨"All", fun mail world => (.ok mail.recipients, world)⟩
    mailet := ⟨"MarkThenFail", fun mail world =>
      let marked := mail.setAttribute "marked".toList (.boolean true)
      ⟨.error "late failure", marked, world, 0, fun _ => (marked, world)⟩⟩
    config := { errorPolicy := .skip } }]

theorem skipped_step_marks :
    ¬marksThenFails.AtEachStep idleRuntime
      (fun index step => step.LeavesNoTrace idleRuntime marksThenFails index) 0
      marksThenFails.steps (noteFromAlice [bob]) () := by
  rintro ⟨traceless, _⟩
  have marked := (traceless ⟨true, noteFromAlice [bob], ()⟩ rfl _ _ _ rfl).1
  have attributes := congrArg (fun mail : Mail => mail.getAttribute "marked".toList)
    (StepOutcome.remaining.inj marked)
  exact absurd attributes (by decide)

end Rusmes
