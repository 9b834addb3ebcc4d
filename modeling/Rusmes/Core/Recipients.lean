import Rusmes.Core.Processor

/-!
Which recipients a processor run serves when every matcher selects recipients by
a predicate and every mailet lets the mail pass. The chain serves and keeps all
of them exactly when no step splits the mail.
-/

namespace Rusmes

open WireText

variable {σ : Type}

/-- The matcher selects by a predicate, and the mailet answers `Continue` in time
and leaves recipients and state alone. -/
structure ProcessingStep.Passes (step : ProcessingStep σ) (selects : MailAddress → Bool) : Prop where
  matched : ∀ mail world,
    (step.matcher.matchMail mail world).1 = .ok (mail.recipients.filter selects)
  answers : ∀ mail world, (step.mailet.service mail world).result = .ok .continue
  inTime : ∀ mail world ms, step.config.timeoutMs = some ms →
    (step.mailet.service mail world).elapsedMs ≤ ms
  recipients : ∀ mail world, (step.mailet.service mail world).mail.recipients = mail.recipients
  state : ∀ mail world, (step.mailet.service mail world).mail.state = mail.state

structure SelectingStep (σ : Type) where
  step : ProcessingStep σ
  selects : MailAddress → Bool
  passes : step.Passes selects

def servedBy (trace : List (Invocation σ)) (index : Nat) : List MailAddress :=
  (trace.filter fun invocation => invocation.step = index).flatMap fun invocation =>
    invocation.before.recipients

/-- The mailet of every step was invoked for exactly the recipients its matcher
selects, and the mail that comes out still has all of them. -/
def ServesEvery (index : Nat) (plan : List (SelectingStep σ)) (mail : Mail)
    (run : ProcessRun σ) : Prop :=
  (∀ offset entry, plan[offset]? = some entry →
    (servedBy run.trace (index + offset)).Perm (mail.recipients.filter entry.selects)) ∧
  ∃ final, run.outcome = .ok final ∧ final.recipients = mail.recipients

def AllOrNone (selects : MailAddress → Bool) (recipients : List MailAddress) : Prop :=
  recipients.filter selects = [] ∨ recipients.filter selects = recipients

/-- Every step selects all recipients or none, and unless the mail is in the
processor's own state at most one step selects any. -/
def NeverSplits (state : MailState) (plan : List (SelectingStep σ)) (mail : Mail) : Prop :=
  (∀ entry ∈ plan, AllOrNone entry.selects mail.recipients) ∧
  (mail.state = state ∨ plan.Pairwise fun earlier later =>
    mail.recipients.filter earlier.selects ≠ [] → mail.recipients.filter later.selects = [])

theorem invokeWithTimeout_passes {step : ProcessingStep σ} {selects : MailAddress → Bool}
    (passes : step.Passes selects) (mail : Mail) (world : σ) :
    invokeWithTimeout step.mailet mail step.config.timeoutMs world =
      (.ok .continue, (step.mailet.service mail world).mail,
        (step.mailet.service mail world).world) := by
  cases limit : step.config.timeoutMs with
  | none => simp [invokeWithTimeout, passes.answers]
  | some ms => simp [invokeWithTimeout, passes.answers, passes.inTime mail world ms limit]

theorem invokeWithPolicy_passes {step : ProcessingStep σ} {selects : MailAddress → Bool}
    (passes : step.Passes selects) (runtime : Runtime σ) (mail : Mail) (world : σ) :
    invokeWithPolicy runtime step.mailet mail step.config world =
      (.ok (some .continue), (step.mailet.service mail world).mail,
        (step.mailet.service mail world).world) := by
  have invoked := invokeWithTimeout_passes passes mail world
  cases policy : step.config.errorPolicy with
  | skip => simp [invokeWithPolicy, policy, invoked]
  | abort => simp [invokeWithPolicy, policy, invoked]
  | retry max backoffMs => simp [invokeWithPolicy, policy, retryLoop, invoked]

theorem runStep_none {step : ProcessingStep σ} {selects : MailAddress → Bool}
    (passes : step.Passes selects) (runtime : Runtime σ) (processor : Processor σ) (index : Nat)
    {mail : Mail} (unselected : mail.recipients.filter selects = []) (world : σ) :
    ∃ next, processor.runStep runtime index step mail world = ⟨.remaining mail, next, []⟩ := by
  have matched := passes.matched mail world
  rcases found : step.matcher.matchMail mail world with ⟨outcome, next⟩
  rw [found, unselected] at matched
  subst matched
  exact ⟨next, by simp [Processor.runStep, found]⟩

theorem runStep_whole {step : ProcessingStep σ} {selects : MailAddress → Bool}
    (passes : step.Passes selects) (runtime : Runtime σ) (processor : Processor σ) (index : Nat)
    {mail : Mail} (all : mail.recipients.filter selects = mail.recipients)
    (someone : mail.recipients ≠ []) (world : σ) :
    ∃ invocation next after,
      processor.runStep runtime index step mail world =
        ⟨processor.checkState after, next, [invocation]⟩ ∧
      invocation.step = index ∧ invocation.before = mail ∧
      after.recipients = mail.recipients ∧ after.state = mail.state := by
  have matched := passes.matched mail world
  rcases found : step.matcher.matchMail mail world with ⟨outcome, next⟩
  rw [found, all] at matched
  subst matched
  have dispatched : processor.runStep runtime index step mail world =
      processor.wholeStep runtime index step mail next := by
    simp [Processor.runStep, found, someone]
  rw [dispatched, Processor.wholeStep, invokeWithPolicy_passes passes]
  exact ⟨_, _, _, rfl, rfl, rfl, passes.recipients mail next, passes.state mail next⟩

theorem runStep_partial {step : ProcessingStep σ} {selects : MailAddress → Bool}
    (passes : step.Passes selects) (runtime : Runtime σ) (processor : Processor σ) (index : Nat)
    {mail : Mail} (divided : ¬AllOrNone selects mail.recipients) (world : σ) :
    ∃ invocation next rest,
      processor.runStep runtime index step mail world =
        ⟨processor.checkState rest, next, [invocation]⟩ ∧
      rest.recipients.length < mail.recipients.length := by
  simp only [AllOrNone, not_or] at divided
  have shorter : (mail.recipients.filter selects).length < mail.recipients.length := by
    apply Nat.lt_of_le_of_ne (List.length_filter_le _ _)
    intro same
    exact divided.2 (List.filter_sublist.eq_of_length same)
  have matched := passes.matched mail world
  rcases found : step.matcher.matchMail mail world with ⟨outcome, next⟩
  rw [found] at matched
  subst matched
  have dispatched : processor.runStep runtime index step mail world =
      processor.splitStep runtime index step (mail.recipients.filter selects) mail next := by
    simp only [Processor.runStep, found, List.isEmpty_iff, divided.1, if_false, shorter, if_true]
  rw [dispatched, Processor.splitStep]
  simp only [invokeWithPolicy_passes passes]
  refine ⟨_, _, _, rfl, ?_⟩
  rw [Mail.split_filter]
  obtain ⟨recipient, member⟩ := List.exists_mem_of_ne_nil _ divided.1
  have parts := List.mem_filter.mp member
  exact List.length_filter_lt_length_iff_exists.mpr ⟨recipient, parts.1, by simp [parts.2]⟩

theorem servedBy_eq_nil {trace : List (Invocation σ)} {index : Nat}
    (later : ∀ invocation ∈ trace, index < invocation.step) : servedBy trace index = [] := by
  have none : trace.filter (fun invocation => invocation.step = index) = [] := by
    apply List.filter_eq_nil_iff.mpr
    intro invocation member
    have above := later invocation member
    simp only [decide_eq_true_eq]
    omega
  simp [servedBy, none]

theorem servedBy_append (first second : List (Invocation σ)) (index : Nat) :
    servedBy (first ++ second) index = servedBy first index ++ servedBy second index := by
  simp [servedBy]

theorem servedBy_singleton (invocation : Invocation σ) (index : Nat) :
    servedBy [invocation] index =
      if invocation.step = index then invocation.before.recipients else [] := by
  by_cases here : invocation.step = index <;> simp [servedBy, here]

theorem processFrom_recipients_le (runtime : Runtime σ) (processor : Processor σ) (index : Nat)
    (plan : List (SelectingStep σ)) (mail final : Mail) (world : σ)
    (finished : (processor.processFrom runtime index (plan.map (·.step)) mail world).outcome =
      .ok final) :
    final.recipients.length ≤ mail.recipients.length := by
  induction plan generalizing index mail world with
  | nil =>
      simp only [List.map_nil, Processor.processFrom, Except.ok.injEq] at finished
      rw [finished]
  | cons entry rest ih =>
      have carried (checked : Mail) (next : σ) (trace : List (Invocation σ))
          (ran : processor.runStep runtime index entry.step mail world =
            ⟨processor.checkState checked, next, trace⟩)
          (bound : checked.recipients.length ≤ mail.recipients.length) :
          final.recipients.length ≤ mail.recipients.length := by
        by_cases kept : checked.state = processor.state
        · simp only [List.map_cons, Processor.processFrom, ran,
            Processor.checkState_remaining kept] at finished
          exact Nat.le_trans (ih (index + 1) checked next finished) bound
        · simp only [List.map_cons, Processor.processFrom, ran, Processor.checkState_left kept,
            Except.ok.injEq] at finished
          rw [← finished]
          exact bound
      by_cases whole : AllOrNone entry.selects mail.recipients
      · by_cases unselected : mail.recipients.filter entry.selects = []
        · obtain ⟨next, ran⟩ := runStep_none entry.passes runtime processor index unselected world
          simp only [List.map_cons, Processor.processFrom, ran] at finished
          exact ih (index + 1) mail next finished
        · have all := whole.resolve_left unselected
          obtain ⟨_, next, after, ran, _, _, same, _⟩ := runStep_whole entry.passes runtime processor
            index all (all ▸ unselected) world
          exact carried after next _ ran (by rw [same])
      · obtain ⟨_, next, after, ran, shorter⟩ := runStep_partial entry.passes runtime processor
          index whole world
        exact carried after next _ ran (Nat.le_of_lt shorter)

theorem servesEvery_skip {index : Nat} {entry : SelectingStep σ} {rest : List (SelectingStep σ)}
    {mail : Mail} {run : ProcessRun σ}
    (unselected : mail.recipients.filter entry.selects = [])
    (later : ∀ invocation ∈ run.trace, index < invocation.step) :
    ServesEvery index (entry :: rest) mail run ↔ ServesEvery (index + 1) rest mail run := by
  simp only [ServesEvery]
  constructor
  · rintro ⟨served, finished⟩
    refine ⟨fun offset other found => ?_, finished⟩
    rw [Nat.add_right_comm, Nat.add_assoc]
    exact served (offset + 1) other found
  · rintro ⟨served, finished⟩
    refine ⟨fun offset other found => ?_, finished⟩
    cases offset with
    | zero =>
        simp only [List.getElem?_cons_zero, Option.some.injEq] at found
        subst other
        rw [unselected, Nat.add_zero, servedBy_eq_nil later]
    | succ offset =>
        rw [← Nat.add_assoc, Nat.add_right_comm]
        exact served offset other found

theorem servesEvery_whole {index : Nat} {entry : SelectingStep σ} {rest : List (SelectingStep σ)}
    {mail after : Mail} {run : ProcessRun σ} {invocation : Invocation σ}
    (all : mail.recipients.filter entry.selects = mail.recipients)
    (here : invocation.step = index) (before : invocation.before = mail)
    (same : after.recipients = mail.recipients)
    (later : ∀ invocation ∈ run.trace, index < invocation.step) :
    ServesEvery index (entry :: rest) mail { run with trace := invocation :: run.trace } ↔
      ServesEvery (index + 1) rest after run := by
  have other (offset : Nat) : servedBy (invocation :: run.trace) (index + 1 + offset) =
      servedBy run.trace (index + 1 + offset) := by
    have apart : ¬index = index + 1 + offset := by omega
    rw [← List.singleton_append, servedBy_append, servedBy_singleton, here, if_neg apart,
      List.nil_append]
  have first : servedBy (invocation :: run.trace) index = mail.recipients := by
    rw [← List.singleton_append, servedBy_append, servedBy_singleton, servedBy_eq_nil later]
    simp [here, before]
  simp only [ServesEvery, same]
  constructor
  · rintro ⟨served, finished⟩
    refine ⟨fun offset step found => ?_, finished⟩
    have result := served (offset + 1) step found
    rwa [← Nat.add_assoc, Nat.add_right_comm, other] at result
  · rintro ⟨served, finished⟩
    refine ⟨fun offset step found => ?_, finished⟩
    cases offset with
    | zero =>
        simp only [List.getElem?_cons_zero, Option.some.injEq] at found
        subst step
        rw [Nat.add_zero, first, all]
    | succ offset =>
        rw [← Nat.add_assoc, Nat.add_right_comm, other]
        exact served offset step found

theorem servesEvery_stop {index : Nat} {entry : SelectingStep σ} {rest : List (SelectingStep σ)}
    {mail after : Mail} {next : σ} {invocation : Invocation σ}
    (all : mail.recipients.filter entry.selects = mail.recipients)
    (here : invocation.step = index) (before : invocation.before = mail)
    (same : after.recipients = mail.recipients) :
    ServesEvery index (entry :: rest) mail ⟨.ok after, next, [invocation]⟩ ↔
      ∀ later ∈ rest, mail.recipients.filter later.selects = [] := by
  have apart (offset : Nat) : ¬index = index + (offset + 1) := by omega
  constructor
  · rintro ⟨served, _⟩ later member
    obtain ⟨offset, found⟩ := List.mem_iff_getElem?.mp member
    have result := served (offset + 1) later found
    rw [servedBy_singleton, here, if_neg (apart offset)] at result
    exact result.nil_eq.symm
  · intro unserved
    refine ⟨fun offset other found => ?_, after, rfl, same⟩
    rw [servedBy_singleton, here, before]
    cases offset with
    | zero =>
        simp only [List.getElem?_cons_zero, Option.some.injEq] at found
        subst other
        simp [all]
    | succ offset => rw [if_neg (apart offset), unserved other (List.mem_of_getElem? found)]

theorem processFrom_partial (runtime : Runtime σ) (processor : Processor σ) (index : Nat)
    (entry : SelectingStep σ) (rest : List (SelectingStep σ)) (mail : Mail) (world : σ)
    (divided : ¬AllOrNone entry.selects mail.recipients) :
    ¬ServesEvery index (entry :: rest) mail
      (processor.processFrom runtime index ((entry :: rest).map (·.step)) mail world) := by
  rintro ⟨_, final, finished, same⟩
  obtain ⟨_, next, unmatched, ran, shorter⟩ := runStep_partial entry.passes runtime processor
    index divided world
  by_cases kept : unmatched.state = processor.state
  · simp only [List.map_cons, Processor.processFrom, ran,
      Processor.checkState_remaining kept] at finished
    have bound := processFrom_recipients_le runtime processor (index + 1) rest
      unmatched final next finished
    rw [same] at bound
    omega
  · simp only [List.map_cons, Processor.processFrom, ran, Processor.checkState_left kept,
      Except.ok.injEq] at finished
    rw [finished, same] at shorter
    omega

theorem neverSplits_cons (state : MailState) (entry : SelectingStep σ)
    (rest : List (SelectingStep σ)) (mail : Mail) :
    NeverSplits state (entry :: rest) mail ↔
      AllOrNone entry.selects mail.recipients ∧ NeverSplits state rest mail ∧
        (mail.state = state ∨ mail.recipients.filter entry.selects = [] ∨
          ∀ later ∈ rest, mail.recipients.filter later.selects = []) := by
  simp only [NeverSplits, List.forall_mem_cons, List.pairwise_cons]
  constructor
  · rintro ⟨⟨first, others⟩, inside | ⟨head, tail⟩⟩
    · exact ⟨first, ⟨others, Or.inl inside⟩, Or.inl inside⟩
    · refine ⟨first, ⟨others, Or.inr tail⟩, Or.inr ?_⟩
      by_cases unselected : mail.recipients.filter entry.selects = []
      · exact Or.inl unselected
      · exact Or.inr fun later member => head later member unselected
  · rintro ⟨first, ⟨others, inside | tail⟩, outside⟩
    · exact ⟨⟨first, others⟩, Or.inl inside⟩
    · refine ⟨⟨first, others⟩, ?_⟩
      rcases outside with inside | unselected | none
      · exact Or.inl inside
      · exact Or.inr ⟨fun _ _ selected => absurd unselected selected, tail⟩
      · exact Or.inr ⟨fun later member _ => none later member, tail⟩

theorem neverSplits_of_none (state : MailState) (plan : List (SelectingStep σ)) (mail : Mail)
    (none : ∀ entry ∈ plan, mail.recipients.filter entry.selects = []) :
    NeverSplits state plan mail := by
  induction plan with
  | nil => simp [NeverSplits]
  | cons entry rest ih =>
      rw [neverSplits_cons]
      have first := none entry (by simp)
      exact ⟨Or.inl first, ih (fun other member => none other (by simp [member])),
        Or.inr (Or.inl first)⟩

theorem processFrom_servesEvery_iff (runtime : Runtime σ) (processor : Processor σ) (index : Nat)
    (plan : List (SelectingStep σ)) (mail : Mail) (world : σ) :
    ServesEvery index plan mail
        (processor.processFrom runtime index (plan.map (·.step)) mail world) ↔
      NeverSplits processor.state plan mail := by
  induction plan generalizing index mail world with
  | nil => simp [ServesEvery, NeverSplits, Processor.processFrom]
  | cons entry rest ih =>
      by_cases whole : AllOrNone entry.selects mail.recipients
      · by_cases unselected : mail.recipients.filter entry.selects = []
        · obtain ⟨next, ran⟩ := runStep_none entry.passes runtime processor index unselected world
          have skipped : processor.processFrom runtime index ((entry :: rest).map (·.step))
              mail world = processor.processFrom runtime (index + 1) (rest.map (·.step))
                mail next := by
            simp [Processor.processFrom, ran]
          rw [skipped, servesEvery_skip unselected (processor.processFrom_trace_index runtime
            (index + 1) (rest.map (·.step)) mail next), ih (index + 1) mail next]
          simp only [neverSplits_cons, whole, unselected, true_and, true_or, or_true, and_true]
        · have all := whole.resolve_left unselected
          obtain ⟨invocation, next, after, ran, here, before, same, kept⟩ := runStep_whole
            entry.passes runtime processor index all (all ▸ unselected) world
          rw [neverSplits_cons]
          by_cases inside : mail.state = processor.state
          · let later := processor.processFrom runtime (index + 1) (rest.map (·.step)) after next
            have continued : processor.processFrom runtime index ((entry :: rest).map (·.step))
                mail world = { later with trace := invocation :: later.trace } := by
              simp [later, Processor.processFrom, ran,
                Processor.checkState_remaining (kept.trans inside)]
            rw [continued, servesEvery_whole all here before same
              (processor.processFrom_trace_index runtime (index + 1) (rest.map (·.step)) after next),
              ih (index + 1) after next]
            simp only [NeverSplits, inside, kept, same, whole, true_and, true_or, and_true]
          · have stopped : processor.processFrom runtime index ((entry :: rest).map (·.step))
                mail world = ⟨.ok after, next, [invocation]⟩ := by
              have outside : after.state ≠ processor.state := by rwa [kept]
              simp [Processor.processFrom, ran, Processor.checkState_left outside]
            rw [stopped, servesEvery_stop all here before same]
            simp only [whole, inside, unselected, true_and, false_or]
            exact ⟨fun unserved => ⟨neverSplits_of_none _ rest mail unserved, unserved⟩,
              fun both => both.2⟩
      · have lost := processFrom_partial runtime processor index entry rest mail world whole
        simp only [neverSplits_cons, whole, false_and, iff_false]
        exact lost

/-- The chain serves every selected recipient and keeps every recipient exactly
when no step splits the mail and none ejects it before a later step would run. -/
theorem process_servesEvery_iff (runtime : Runtime σ) (name : String) (state : MailState)
    (plan : List (SelectingStep σ)) (mail : Mail) (world : σ) :
    let processor : Processor σ := { name, state, steps := plan.map (·.step) }
    ServesEvery 0 plan mail (processor.process runtime mail world) ↔
      NeverSplits state plan mail :=
  processFrom_servesEvery_iff runtime { name, state, steps := plan.map (·.step) } 0 plan mail world

def passThrough (selects : MailAddress → Bool) : SelectingStep Unit where
  step := {
    matcher := ⟨"Select", fun mail world => (.ok (mail.recipients.filter selects), world)⟩
    mailet := ⟨"Pass", fun mail world => ⟨.ok .continue, mail, world, 0, fun _ => (mail, world)⟩⟩
    config := {} }
  selects := selects
  passes := by constructor <;> simp

def aliceThenEveryone : List (SelectingStep Unit) :=
  [passThrough fun recipient => recipient = alice, passThrough fun _ => true]

theorem process_loses_recipient :
    ¬ServesEvery 0 aliceThenEveryone (noteFromAlice [alice, bob])
      (Processor.process idleRuntime
        { name := "root", state := .root, steps := aliceThenEveryone.map (·.step) }
        (noteFromAlice [alice, bob]) ()) := by
  rintro ⟨_, final, finished, kept⟩
  have dropped : final = noteFromAlice [bob] := by
    rw [← Except.ok.inj finished]
    rfl
  rw [dropped] at kept
  exact absurd kept (by decide)

end Rusmes
