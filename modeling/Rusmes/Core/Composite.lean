import Rusmes.Core.Processor

/-!
The composite matchers of `composite.rs`. They drop what a list of recipients says twice,
while the processor decides by the length of the list whether the mail is split.
-/

namespace Rusmes

variable {σ : Type}

def andLoop (mail : Mail) : List (Matcher σ) → List MailAddress → σ →
    Except String (List MailAddress) × σ
  | [], result, world => (.ok result, world)
  | matcher :: matchers, result, world =>
      match matcher.matchMail mail world with
      | (.error error, world) => (.error error, world)
      | (.ok matched, world) =>
          let result := result.filter fun recipient => matched.contains recipient
          if result.isEmpty then (.ok result, world) else andLoop mail matchers result world

def AndMatcher (matchers : List (Matcher σ)) : Matcher σ where
  name := "And"
  matchMail mail world :=
    if matchers.isEmpty then (.ok [], world) else andLoop mail matchers mail.recipients world

def addMissing (result matched : List MailAddress) : List MailAddress :=
  matched.foldl (fun result recipient =>
    if result.contains recipient then result else result ++ [recipient]) result

def orLoop (mail : Mail) : List (Matcher σ) → List MailAddress → σ →
    Except String (List MailAddress) × σ
  | [], result, world => (.ok result, world)
  | matcher :: matchers, result, world =>
      match matcher.matchMail mail world with
      | (.error error, world) => (.error error, world)
      | (.ok matched, world) => orLoop mail matchers (addMissing result matched) world

def OrMatcher (matchers : List (Matcher σ)) : Matcher σ where
  name := "Or"
  matchMail mail world := orLoop mail matchers [] world

def NotMatcher (matcher : Matcher σ) : Matcher σ where
  name := "Not"
  matchMail mail world :=
    match matcher.matchMail mail world with
    | (.error error, world) => (.error error, world)
    | (.ok matched, world) =>
        (.ok (mail.recipients.filter fun recipient => !matched.contains recipient), world)

/-! What a list of matched recipients decides. -/

inductive Route
  | pass
  | split (matched : List MailAddress)
  | whole
  deriving DecidableEq

def route (matched recipients : List MailAddress) : Route :=
  if matched.isEmpty then .pass
  else if matched.length < recipients.length then .split matched
  else .whole

def distinct (matched : List MailAddress) : List MailAddress := addMissing [] matched

section Lists

variable {result matched recipients : List MailAddress} {recipient : MailAddress}

theorem addMissing_cons (result : List MailAddress) (first : MailAddress)
    (matched : List MailAddress) : addMissing result (first :: matched) =
      addMissing (if result.contains first then result else result ++ [first]) matched := rfl

@[simp] theorem mem_addMissing :
    recipient ∈ addMissing result matched ↔ recipient ∈ result ∨ recipient ∈ matched := by
  induction matched generalizing result with
  | nil => simp [addMissing]
  | cons first matched ih =>
      rw [addMissing_cons, ih]
      by_cases has : first ∈ result
      · rw [if_pos (by simpa using has), List.mem_cons]
        constructor
        · rintro (before | later)
          · exact Or.inl before
          · exact Or.inr (Or.inr later)
        · rintro (before | rfl | later)
          · exact Or.inl before
          · exact Or.inl has
          · exact Or.inr later
      · rw [if_neg (by simpa using has), List.mem_append, List.mem_singleton, List.mem_cons,
          or_assoc]

theorem nodup_addMissing (nodup : result.Nodup) (matched : List MailAddress) :
    (addMissing result matched).Nodup := by
  induction matched generalizing result with
  | nil => exact nodup
  | cons first matched ih =>
      rw [addMissing_cons]
      apply ih
      split
      · exact nodup
      · rename_i new
        refine List.Nodup.append nodup (List.nodup_singleton first) ?_
        rw [List.disjoint_singleton]
        simpa using new

theorem length_addMissing_le (result matched : List MailAddress) :
    (addMissing result matched).length ≤ result.length + matched.length := by
  induction matched generalizing result with
  | nil => exact Nat.le_refl _
  | cons first matched ih =>
      rw [addMissing_cons, List.length_cons]
      have later := ih (if result.contains first then result else result ++ [first])
      have grown : (if result.contains first then result else result ++ [first]).length ≤
          result.length + 1 := by
        split
        · omega
        · rw [List.length_append, List.length_singleton]
      omega

theorem addMissing_of_nodup (nodup : (result ++ matched).Nodup) :
    addMissing result matched = result ++ matched := by
  induction matched generalizing result with
  | nil => exact (List.append_nil result).symm
  | cons first matched ih =>
      have new : first ∉ result := by
        intro has
        exact (List.nodup_append.mp nodup).2.2 first has first List.mem_cons_self rfl
      rw [addMissing_cons, if_neg (by simpa using new)]
      rw [List.append_cons result first matched] at nodup ⊢
      exact ih nodup

theorem distinct_eq_self_iff : distinct matched = matched ↔ matched.Nodup := by
  constructor
  · intro same
    rw [← same]
    exact nodup_addMissing List.nodup_nil matched
  · intro nodup
    exact @addMissing_of_nodup [] matched nodup

theorem distinct_eq_nil_iff : distinct matched = [] ↔ matched = [] := by
  simp only [List.eq_nil_iff_forall_not_mem, distinct, mem_addMissing, List.not_mem_nil, false_or]

theorem length_distinct_le (matched : List MailAddress) :
    (distinct matched).length ≤ matched.length := by
  have bound := length_addMissing_le [] matched
  rwa [List.length_nil, Nat.zero_add] at bound

theorem route_split (some : matched ≠ []) (fewer : matched.length < recipients.length) :
    route matched recipients = .split matched := by
  rw [route, if_neg (by simpa using some), if_pos fewer]

theorem route_whole (some : matched ≠ []) (all : recipients.length ≤ matched.length) :
    route matched recipients = .whole := by
  rw [route, if_neg (by simpa using some), if_neg (by omega)]

theorem route_distinct_iff : route (distinct matched) recipients = route matched recipients ↔
    matched.Nodup ∨ recipients.length ≤ (distinct matched).length := by
  rw [← distinct_eq_self_iff]
  by_cases none : matched = []
  · rw [none]
    exact iff_of_true rfl (Or.inl rfl)
  · have shorter := length_distinct_le matched
    have some : distinct matched ≠ [] := fun nothing => none (distinct_eq_nil_iff.mp nothing)
    by_cases fewer : (distinct matched).length < recipients.length
    · rw [route_split some fewer]
      by_cases divides : matched.length < recipients.length
      · rw [route_split none divides, Route.split.injEq]
        constructor
        · exact Or.inl
        · rintro (same | more)
          · exact same
          · omega
      · rw [route_whole none (by omega)]
        refine iff_of_false nofun ?_
        rintro (same | more)
        · rw [same] at fewer
          exact divides fewer
        · omega
    · rw [route_whole some (by omega), route_whole none (by omega)]
      exact iff_of_true rfl (Or.inr (by omega))

def retained (matched recipients : List MailAddress) : List MailAddress :=
  recipients.filter fun recipient => matched.contains recipient

theorem retained_eq_self_iff : retained matched recipients = recipients ↔
    ∀ recipient ∈ recipients, recipient ∈ matched := by
  rw [retained, List.filter_eq_self]
  simp

theorem route_retained_iff : route (retained matched recipients) recipients =
      route matched recipients ↔
    retained matched recipients = matched ∨
      recipients ≠ [] ∧ recipients.length ≤ matched.length ∧
        ∀ recipient ∈ recipients, recipient ∈ matched := by
  rw [← retained_eq_self_iff]
  have shorter : (retained matched recipients).length ≤ recipients.length :=
    List.length_filter_le _ _
  constructor
  · intro same
    by_cases none : matched = []
    · left
      rw [none] at same ⊢
      by_contra some
      by_cases fewer : (retained [] recipients).length < recipients.length
      · rw [route_split some fewer] at same
        cases same
      · rw [route_whole some (by omega)] at same
        cases same
    · by_cases divides : matched.length < recipients.length
      · rw [route_split none divides] at same
        by_cases nobody : retained matched recipients = []
        · rw [nobody] at same
          cases same
        · by_cases fewer : (retained matched recipients).length < recipients.length
          · rw [route_split nobody fewer] at same
            exact Or.inl (Route.split.inj same)
          · rw [route_whole nobody (by omega)] at same
            cases same
      · rw [route_whole none (by omega)] at same
        by_cases nobody : retained matched recipients = []
        · rw [nobody] at same
          cases same
        · by_cases fewer : (retained matched recipients).length < recipients.length
          · rw [route_split nobody fewer] at same
            cases same
          · have full : (retained matched recipients).length = recipients.length := by omega
            have all : retained matched recipients = recipients :=
              List.filter_sublist.eq_of_length full
            exact Or.inr ⟨all ▸ nobody, by omega, all⟩
  · rintro (same | ⟨someone, all, kept⟩)
    · rw [same]
    · have some : matched ≠ [] := by
        rintro rfl
        exact someone (List.length_eq_zero_iff.mp (by simpa using all))
      rw [kept, route_whole someone (Nat.le_refl _), route_whole some all]

end Lists

/-! A composite of one matcher. -/

section Single

variable {matcher : Matcher σ} {mail : Mail} {world next : σ} {matched : List MailAddress}
  {error : String}

theorem orMatcher_single (found : matcher.matchMail mail world = (.ok matched, next)) :
    (OrMatcher [matcher]).matchMail mail world = (.ok (distinct matched), next) := by
  simp only [OrMatcher, orLoop, found, distinct]

theorem orMatcher_single_error (found : matcher.matchMail mail world = (.error error, next)) :
    (OrMatcher [matcher]).matchMail mail world = (.error error, next) := by
  simp only [OrMatcher, orLoop, found]

theorem andMatcher_single (found : matcher.matchMail mail world = (.ok matched, next)) :
    (AndMatcher [matcher]).matchMail mail world =
      (.ok (retained matched mail.recipients), next) := by
  simp only [AndMatcher, List.isEmpty_cons, Bool.false_eq_true, if_false, andLoop, found, retained]
  split <;> rfl

theorem andMatcher_single_error (found : matcher.matchMail mail world = (.error error, next)) :
    (AndMatcher [matcher]).matchMail mail world = (.error error, next) := by
  simp only [AndMatcher, List.isEmpty_cons, Bool.false_eq_true, if_false, andLoop, found]

end Single

def ProcessingStep.withMatcher (step : ProcessingStep σ) (matcher : Matcher σ) :
    ProcessingStep σ :=
  { step with matcher }

section Chain

variable {runtime : Runtime σ} {processor : Processor σ} {step : ProcessingStep σ} {index : Nat}
  {mail : Mail} {world next : σ} {matched : List MailAddress}

def Processor.routed (runtime : Runtime σ) (processor : Processor σ) (index : Nat)
    (step : ProcessingStep σ) (mail : Mail) (world : σ) : Route → StepRun σ
  | .pass => ⟨.remaining mail, world, []⟩
  | .split matched => processor.splitStep runtime index step matched mail world
  | .whole => processor.wholeStep runtime index step mail world

theorem runStep_routed (found : step.matcher.matchMail mail world = (.ok matched, next)) :
    processor.runStep runtime index step mail world =
      processor.routed runtime index step mail next (route matched mail.recipients) := by
  rw [Processor.runStep, found]
  dsimp only
  rw [route]
  split
  · rfl
  · split <;> rfl

def Route.portions (recipients : List MailAddress) : Route → List (Bool × List MailAddress)
  | .pass => []
  | .split matched => [(false, matched)]
  | .whole => [(true, recipients)]

theorem routed_portions (path : Route) :
    (processor.routed runtime index step mail world path).trace.map
        (fun invocation => (invocation.whole, invocation.before.recipients)) =
      path.portions mail.recipients := by
  cases path with
  | pass => rfl
  | split matched =>
      simp only [Processor.routed, Processor.splitStep]
      split <;> rfl
  | whole =>
      simp only [Processor.routed, Processor.wholeStep]
      split <;> rfl

theorem routed_injective {first second : Route}
    (same : (processor.routed runtime index step mail world first).trace =
      (processor.routed runtime index step mail world second).trace) : first = second := by
  have portions : first.portions mail.recipients = second.portions mail.recipients := by
    rw [← @routed_portions _ runtime processor step index mail world first, same, routed_portions]
  cases first <;> cases second <;> simp_all [Route.portions]

theorem routed_withMatcher (matcher : Matcher σ) (path : Route) :
    processor.routed runtime index (step.withMatcher matcher) mail world path =
      processor.routed runtime index step mail world path := by
  cases path <;> rfl

/-- The mail and the world that the loop has after these steps, if it gets past them. -/
def Processor.reaches (runtime : Runtime σ) (processor : Processor σ) :
    Nat → List (ProcessingStep σ) → Mail → σ → Option (Mail × σ)
  | _, [], mail, world => some (mail, world)
  | index, step :: rest, mail, world =>
      match (processor.runStep runtime index step mail world).outcome with
      | .remaining after => processor.reaches runtime (index + 1) rest after
          (processor.runStep runtime index step mail world).world
      | _ => none

theorem processFrom_stopped (before later : List (ProcessingStep σ))
    (stopped : processor.reaches runtime index before mail world = none) :
    processor.processFrom runtime index (before ++ later) mail world =
      processor.processFrom runtime index before mail world := by
  induction before generalizing index mail world with
  | nil => cases stopped
  | cons step before ih =>
      rw [Processor.reaches] at stopped
      rw [List.cons_append, Processor.processFrom, Processor.processFrom]
      cases outcome : (processor.runStep runtime index step mail world).outcome with
      | failed error => rfl
      | left after => rfl
      | remaining after =>
          rw [outcome] at stopped
          dsimp only
          rw [ih stopped]

theorem processFrom_reached (before later : List (ProcessingStep σ)) {after : Mail}
    (reached : processor.reaches runtime index before mail world = some (after, next)) :
    ∃ trace, processor.processFrom runtime index (before ++ later) mail world =
      { processor.processFrom runtime (index + before.length) later after next with
        trace := trace ++
          (processor.processFrom runtime (index + before.length) later after next).trace } ∧
      trace = (processor.processFrom runtime index before mail world).trace := by
  induction before generalizing index mail world with
  | nil =>
      rw [Processor.reaches, Option.some.injEq, Prod.mk.injEq] at reached
      rw [reached.1, reached.2]
      exact ⟨[], rfl, rfl⟩
  | cons step before ih =>
      rw [Processor.reaches] at reached
      rw [List.cons_append, Processor.processFrom, Processor.processFrom]
      cases outcome : (processor.runStep runtime index step mail world).outcome with
      | failed error =>
          rw [outcome] at reached
          cases reached
      | left gone =>
          rw [outcome] at reached
          cases reached
      | remaining passed =>
          rw [outcome] at reached
          obtain ⟨trace, run, same⟩ := ih reached
          dsimp only
          rw [run, List.length_cons, Nat.add_comm before.length 1, ← Nat.add_assoc, same]
          refine ⟨_, ?_, rfl⟩
          rw [List.append_assoc]

theorem processFrom_first (rest : List (ProcessingStep σ)) :
    (processor.processFrom runtime index (step :: rest) mail world).trace.filter
        (fun invocation => invocation.step = index) =
      (processor.runStep runtime index step mail world).trace := by
  have own := processor.runStep_trace_index runtime index step mail world
  have kept : (processor.runStep runtime index step mail world).trace.filter
      (fun invocation => invocation.step = index) =
      (processor.runStep runtime index step mail world).trace := by
    rw [List.filter_eq_self]
    intro invocation member
    exact decide_eq_true (own invocation member)
  rw [Processor.processFrom]
  cases (processor.runStep runtime index step mail world).outcome with
  | failed error => exact kept
  | left after => exact kept
  | remaining after =>
      dsimp only
      rw [List.filter_append, kept, List.append_right_eq_self, List.filter_eq_nil_iff]
      intro invocation member
      have above := processor.processFrom_trace_index runtime (index + 1) rest after _ _ member
      simp only [decide_eq_true_eq]
      omega

def SameRun (first second : ProcessRun σ) : Prop :=
  first.outcome = second.outcome ∧ first.trace = second.trace

/-- A matcher in the place of another, whose selections it changes, changes nothing exactly
when its selection has the same route where the step is reached. -/
theorem processFrom_replaced_iff {matcher : Matcher σ}
    {choose : List MailAddress → List MailAddress → List MailAddress}
    (chosen : ∀ mail world matched next, step.matcher.matchMail mail world = (.ok matched, next) →
      matcher.matchMail mail world = (.ok (choose matched mail.recipients), next))
    (fails : ∀ mail world error next, step.matcher.matchMail mail world = (.error error, next) →
      matcher.matchMail mail world = (.error error, next))
    (before rest : List (ProcessingStep σ)) (mail : Mail) (world : σ) :
    SameRun (processor.processFrom runtime index (before ++ step.withMatcher matcher :: rest) mail
        world) (processor.processFrom runtime index (before ++ step :: rest) mail world) ↔
      ∀ after next matched later,
        processor.reaches runtime index before mail world = some (after, next) →
          step.matcher.matchMail after next = (.ok matched, later) →
            route (choose matched after.recipients) after.recipients =
              route matched after.recipients := by
  rcases reached : processor.reaches runtime index before mail world with _ | ⟨after, next⟩
  · rw [processFrom_stopped before _ reached, processFrom_stopped before _ reached]
    refine iff_of_true ⟨rfl, rfl⟩ ?_
    intro after next matched later here
    cases here
  · obtain ⟨first, firstRun, rfl⟩ :=
      processFrom_reached before (step.withMatcher matcher :: rest) reached
    obtain ⟨second, secondRun, rfl⟩ := processFrom_reached before (step :: rest) reached
    rw [firstRun, secondRun]
    rcases found : step.matcher.matchMail after next with ⟨error | matched, later⟩
    · have failed := fails after next error later found
      refine iff_of_true ?_ ?_
      · have runs : processor.runStep runtime (index + before.length) (step.withMatcher matcher)
            after next = processor.runStep runtime (index + before.length) step after next := by
          rw [Processor.runStep, Processor.runStep, ProcessingStep.withMatcher, failed, found]
        simp only [SameRun, Processor.processFrom, runs, and_self]
      · intro after' next' matched later' here answered
        obtain ⟨rfl, rfl⟩ := Prod.mk.inj (Option.some.inj here)
        rw [found] at answered
        cases answered
    · have answered := chosen after next matched later found
      have ran := @runStep_routed _ runtime processor step (index + before.length) after next later
        matched found
      have ranOther := @runStep_routed _ runtime processor (step.withMatcher matcher)
        (index + before.length) after next later (choose matched after.recipients) answered
      constructor
      · rintro ⟨_, traces⟩ after' next' matched' later' here there
        obtain ⟨rfl, rfl⟩ := Prod.mk.inj (Option.some.inj here)
        rw [found] at there
        obtain ⟨same, rfl⟩ := Prod.mk.inj there
        obtain rfl := Except.ok.inj same
        have own := List.append_cancel_left traces
        have firsts := congrArg
          (List.filter fun invocation => invocation.step = index + before.length) own
        rw [processFrom_first, processFrom_first, ran, ranOther, routed_withMatcher] at firsts
        exact routed_injective firsts
      · intro alike
        have path := alike after next matched later rfl found
        rw [path, routed_withMatcher, ← ran] at ranOther
        simp only [SameRun, Processor.processFrom, ranOther, and_self]

end Chain

/-! The law of De Morgan. -/

section Negation

variable {mail : Mail} {matchers : List (Matcher σ)} {world next : σ}

def SameSelection (first second : Except String (List MailAddress)) : Prop :=
  (∃ error, first = .error error ∧ second = .error error) ∨
    ∃ selected chosen, first = .ok selected ∧ second = .ok chosen ∧
      ∀ recipient, recipient ∈ selected ↔ recipient ∈ chosen

def AllAnswer (mail : Mail) : List (Matcher σ) → σ → Prop
  | [], _ => True
  | matcher :: matchers, world =>
      ∃ matched next, matcher.matchMail mail world = (.ok matched, next) ∧
        AllAnswer mail matchers next

def LateAnswers (mail : Mail) : List (Matcher σ) → List MailAddress → σ → Prop
  | [], _, _ => True
  | matcher :: matchers, result, world =>
      ∀ matched next, matcher.matchMail mail world = (.ok matched, next) →
        if retained matched result = [] then AllAnswer mail matchers next
        else LateAnswers mail matchers (retained matched result) next

theorem notMatcher_of_ok {matcher : Matcher σ} {matched : List MailAddress}
    (found : matcher.matchMail mail world = (.ok matched, next)) :
    (NotMatcher matcher).matchMail mail world =
      (.ok (mail.recipients.filter fun recipient => !matched.contains recipient), next) := by
  simp only [NotMatcher, found]

theorem notMatcher_of_error {matcher : Matcher σ} {error : String}
    (found : matcher.matchMail mail world = (.error error, next)) :
    (NotMatcher matcher).matchMail mail world = (.error error, next) := by
  simp only [NotMatcher, found]

theorem orLoop_all_iff {result selected : List MailAddress}
    (everyone : ∀ recipient, recipient ∈ result ↔ recipient ∈ mail.recipients)
    (same : ∀ recipient, recipient ∈ selected ↔ recipient ∈ mail.recipients) :
    SameSelection (.ok selected) (orLoop mail (matchers.map NotMatcher) result world).1 ↔
      AllAnswer mail matchers world := by
  induction matchers generalizing result world with
  | nil =>
      refine iff_of_true (Or.inr ⟨selected, result, rfl, rfl, ?_⟩) trivial
      intro recipient
      rw [same, everyone]
  | cons matcher matchers ih =>
      rw [List.map_cons, orLoop, AllAnswer]
      rcases found : matcher.matchMail mail world with ⟨error | matched, next⟩
      · rw [notMatcher_of_error found]
        refine iff_of_false ?_ ?_
        · rintro (⟨_, impossible, _⟩ | ⟨_, _, _, impossible, _⟩) <;> cases impossible
        · rintro ⟨_, _, impossible, _⟩
          cases impossible
      · rw [notMatcher_of_ok found]
        have grown : ∀ recipient, recipient ∈ addMissing result
            (mail.recipients.filter fun recipient => !matched.contains recipient) ↔
              recipient ∈ mail.recipients := by
          intro recipient
          rw [mem_addMissing, everyone, List.mem_filter]
          exact ⟨fun either => either.elim id And.left, Or.inl⟩
        refine (ih grown).trans ?_
        constructor
        · intro others
          exact ⟨matched, next, rfl, others⟩
        · rintro ⟨_, _, here, others⟩
          obtain ⟨_, rfl⟩ := Prod.mk.inj here
          exact others

/-- The negation of what `AndMatcher` has left against what `OrMatcher` has found. -/
theorem deMorgan_loop {result missing : List MailAddress}
    (apart : ∀ recipient, recipient ∈ missing ↔
      recipient ∈ mail.recipients ∧ recipient ∉ result) :
    SameSelection
        ((andLoop mail matchers result world).1.map fun matched =>
          mail.recipients.filter fun recipient => !matched.contains recipient)
        (orLoop mail (matchers.map NotMatcher) missing world).1 ↔
      LateAnswers mail matchers result world := by
  induction matchers generalizing result missing world with
  | nil =>
      refine iff_of_true (Or.inr ⟨_, missing, rfl, rfl, ?_⟩) trivial
      intro recipient
      rw [apart, List.mem_filter]
      simp
  | cons matcher matchers ih =>
      rw [List.map_cons, orLoop, andLoop, LateAnswers]
      rcases found : matcher.matchMail mail world with ⟨error | matched, next⟩
      · rw [notMatcher_of_error found]
        refine iff_of_true (Or.inl ⟨error, rfl, rfl⟩) ?_
        intro _ _ impossible
        cases impossible
      · rw [notMatcher_of_ok found]
        have grown : ∀ recipient, recipient ∈ addMissing missing
            (mail.recipients.filter fun recipient => !matched.contains recipient) ↔
              recipient ∈ mail.recipients ∧ recipient ∉ retained matched result := by
          intro recipient
          rw [mem_addMissing, apart, List.mem_filter, retained, List.mem_filter]
          simp only [Bool.not_eq_true', List.contains_eq_mem, decide_eq_false_iff_not,
            decide_eq_true_eq]
          tauto
        have asked : (∀ matched' next',
            ((Except.ok matched : Except String (List MailAddress)), next) = (.ok matched', next') →
              if retained matched' result = [] then AllAnswer mail matchers next'
              else LateAnswers mail matchers (retained matched' result) next') ↔
            if retained matched result = [] then AllAnswer mail matchers next
              else LateAnswers mail matchers (retained matched result) next := by
          constructor
          · intro every
            exact every matched next rfl
          · intro here _ _ same
            obtain ⟨inner, rfl⟩ := Prod.mk.inj same
            obtain rfl := Except.ok.inj inner
            exact here
        rw [asked]
        change SameSelection (Except.map _ (if (retained matched result).isEmpty then
          (.ok (retained matched result), next) else
            andLoop mail matchers (retained matched result) next).1) (orLoop mail
              (matchers.map NotMatcher) (addMissing missing _) next).1 ↔ _
        by_cases nobody : retained matched result = []
        · rw [nobody] at grown ⊢
          rw [if_pos rfl, if_pos List.isEmpty_nil]
          refine orLoop_all_iff ?_ ?_
          · simpa using grown
          · simp
        · rw [if_neg nobody, if_neg (by simpa using nobody)]
          exact ih grown

theorem deMorgan_iff (nonempty : matchers ≠ []) :
    SameSelection ((NotMatcher (AndMatcher matchers)).matchMail mail world).1
        ((OrMatcher (matchers.map NotMatcher)).matchMail mail world).1 ↔
      LateAnswers mail matchers mail.recipients world := by
  have start : ∀ recipient, recipient ∈ ([] : List MailAddress) ↔
      recipient ∈ mail.recipients ∧ recipient ∉ mail.recipients := by
    intro recipient
    simp
  rw [← deMorgan_loop start]
  have negated : ((NotMatcher (AndMatcher matchers)).matchMail mail world).1 =
      (andLoop mail matchers mail.recipients world).1.map fun matched =>
        mail.recipients.filter fun recipient => !matched.contains recipient := by
    simp only [NotMatcher, AndMatcher, if_neg (mt List.isEmpty_iff.mp nonempty)]
    rcases andLoop mail matchers mail.recipients world with ⟨_ | _, _⟩ <;> rfl
  rw [negated]
  exact Iff.rfl

end Negation

theorem processFrom_state {first second : Processor σ} (same : first.state = second.state)
    (runtime : Runtime σ) (index : Nat) (steps : List (ProcessingStep σ)) (mail : Mail)
    (world : σ) : first.processFrom runtime index steps mail world =
      second.processFrom runtime index steps mail world := by
  induction steps generalizing index mail world with
  | nil => rfl
  | cons step steps ih =>
      have ran : first.runStep runtime index step mail world =
          second.runStep runtime index step mail world := by
        simp only [Processor.runStep, Processor.splitStep, Processor.wholeStep,
          Processor.checkState, same]
      simp only [Processor.processFrom, ran, ih]

/-- A composite of one matcher does in a processor what the matcher does, and the
composites obey the law of De Morgan. -/
structure CompositesTransparent (runtime : Runtime σ) (processor : Processor σ)
    (before : List (ProcessingStep σ)) (step : ProcessingStep σ) (rest : List (ProcessingStep σ))
    (mail : Mail) (world : σ) (matchers : List (Matcher σ)) : Prop where
  or : SameRun
    (Processor.process runtime { processor with
      steps := before ++ step.withMatcher (OrMatcher [step.matcher]) :: rest } mail world)
    (Processor.process runtime { processor with steps := before ++ step :: rest } mail world)
  and : SameRun
    (Processor.process runtime { processor with
      steps := before ++ step.withMatcher (AndMatcher [step.matcher]) :: rest } mail world)
    (Processor.process runtime { processor with steps := before ++ step :: rest } mail world)
  not : SameSelection ((NotMatcher (AndMatcher matchers)).matchMail mail world).1
    ((OrMatcher (matchers.map NotMatcher)).matchMail mail world).1

def Undropped (matched recipients : List MailAddress) : Prop :=
  (matched.Nodup ∨ recipients.length ≤ (distinct matched).length) ∧
    (retained matched recipients = matched ∨
      recipients ≠ [] ∧ recipients.length ≤ matched.length ∧
        ∀ recipient ∈ recipients, recipient ∈ matched)

/-- The composites are transparent, exactly when the selection that the matcher makes where
its step is reached loses nothing by them, and no matcher fails that is asked when no
recipient is left. -/
theorem compositesTransparent_iff (runtime : Runtime σ) (processor : Processor σ)
    (before : List (ProcessingStep σ)) (step : ProcessingStep σ) (rest : List (ProcessingStep σ))
    (mail : Mail) (world : σ) (matchers : List (Matcher σ)) (nonempty : matchers ≠ []) :
    CompositesTransparent runtime processor before step rest mail world matchers ↔
      (∀ after next matched later,
        processor.reaches runtime 0 before mail world = some (after, next) →
          step.matcher.matchMail after next = (.ok matched, later) →
            Undropped matched after.recipients) ∧
        LateAnswers mail matchers mail.recipients world := by
  have steps : ∀ steps : List (ProcessingStep σ),
      Processor.process runtime { processor with steps } mail world =
        processor.processFrom runtime 0 steps mail world :=
    fun steps => @processFrom_state _ { processor with steps } processor rfl runtime 0 steps mail world
  have withOr := @processFrom_replaced_iff _ runtime processor step 0 (OrMatcher [step.matcher])
    (fun matched _ => distinct matched) (fun _ _ _ _ => orMatcher_single)
    (fun _ _ _ _ => orMatcher_single_error) before rest mail world
  have withAnd := @processFrom_replaced_iff _ runtime processor step 0 (AndMatcher [step.matcher])
    retained (fun _ _ _ _ => andMatcher_single) (fun _ _ _ _ => andMatcher_single_error) before rest
    mail world
  simp only [route_distinct_iff] at withOr
  simp only [route_retained_iff] at withAnd
  rw [← deMorgan_iff nonempty]
  constructor
  · intro transparent
    have or := transparent.or
    have and := transparent.and
    rw [steps, steps] at or and
    refine ⟨?_, transparent.not⟩
    intro after next matched later reached found
    exact ⟨withOr.mp or after next matched later reached found,
      withAnd.mp and after next matched later reached found⟩
  · rintro ⟨undropped, negation⟩
    refine ⟨?_, ?_, negation⟩
    · rw [steps, steps]
      exact withOr.mpr fun after next matched later reached found =>
        (undropped after next matched later reached found).1
    · rw [steps, steps]
      exact withAnd.mpr fun after next matched later reached found =>
        (undropped after next matched later reached found).2

def everyRecipient : Matcher Unit :=
  ⟨"All", fun mail world => (.ok mail.recipients, world)⟩

def passOn : Mailet Unit :=
  ⟨"Pass", fun mail world => ⟨.ok .continue, mail, world, 0, fun _ => (mail, world)⟩⟩

theorem compositesTransparent_one :
    CompositesTransparent idleRuntime ⟨"root", .root, []⟩ [] ⟨everyRecipient, passOn, {}⟩ []
        (noteFromAlice [bob]) () [everyRecipient] ↔
      (∀ after next matched later,
        Processor.reaches idleRuntime ⟨"root", .root, []⟩ 0 [] (noteFromAlice [bob]) () =
            some (after, next) →
          everyRecipient.matchMail after next = (.ok matched, later) →
            Undropped matched after.recipients) ∧
        LateAnswers (noteFromAlice [bob]) [everyRecipient] [bob] () :=
  compositesTransparent_iff idleRuntime ⟨"root", .root, []⟩ [] ⟨everyRecipient, passOn, {}⟩ []
    (noteFromAlice [bob]) () [everyRecipient] (List.cons_ne_nil _ _)

/-- For an address given twice, the mail is split and loses it. -/
theorem repeated_recipient_split :
    ¬CompositesTransparent idleRuntime ⟨"root", .root, []⟩ [] ⟨everyRecipient, passOn, {}⟩ []
      (noteFromAlice [bob, bob]) () [everyRecipient] := by
  intro transparent
  have outcome := transparent.or.1
  have recipients := congrArg
    (fun result : Except String Mail => result.toOption.map fun mail => mail.recipients.length)
    outcome
  exact absurd recipients (by decide)

end Rusmes
