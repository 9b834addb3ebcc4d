import Rusmes.Core.Processor
import Rusmes.Library.Machine

/-!
The router of `router.rs`. Its loop hands a mail from processor to processor for
as long as the state changes; past the depth limit the guard rewrites the state to
`Error` and the loop goes on. The loop is a machine, and the results say exactly
when it ends within the rounds the limit allows for.
-/

namespace Rusmes

open Machine

variable {σ : Type}

structure MailProcessorRouter (σ : Type) where
  processors : AList fun _ : MailState => Processor σ
  errorProcessor : Option (Processor σ) := none
  recordMailCompleted : Mail → σ → σ

def maxDepth : Nat := 100

structure Routing (σ : Type) where
  depth : Nat
  mail : Mail
  world : σ

def Routing.guarded (routing : Routing σ) : Mail :=
  if routing.depth > maxDepth then { routing.mail with state := .error } else routing.mail

def MailProcessorRouter.receiver (router : MailProcessorRouter σ) (routing : Routing σ) :
    Option (Processor σ) :=
  router.processors.lookup routing.guarded.state

def MailProcessorRouter.routeStep (runtime : Runtime σ) (router : MailProcessorRouter σ)
    (routing : Routing σ) : Progress (Routing σ) (Except String Unit × σ) :=
  let mail := routing.guarded
  match router.receiver routing with
  | none => .ended (.error s!"No processor registered for state: {mail.state.debug}", routing.world)
  | some processor =>
      let run := processor.process runtime mail routing.world
      match run.outcome with
      | .error error => .ended (.error error, run.world)
      | .ok after =>
          if after.state = .ghost then
            .ended (.ok (), router.recordMailCompleted after run.world)
          else if after.state = mail.state then
            if after.state = .error then
              .ended (.error s!"Mail {after.id.display} processing failed in Error state",
                run.world)
            else .ended (.ok (), run.world)
          else .next ⟨routing.depth + 1, after, run.world⟩

/-- `route` with a bound on the number of rounds of its loop. -/
def MailProcessorRouter.route (runtime : Runtime σ) (router : MailProcessorRouter σ)
    (rounds : Nat) (mail : Mail) (world : σ) : Progress (Routing σ) (Except String Unit × σ) :=
  iterate (router.routeStep runtime) rounds ⟨0, mail, world⟩

def MailProcessorRouter.handsOn (runtime : Runtime σ) (router : MailProcessorRouter σ)
    (mail : Mail) (world : σ) : Option (Mail × σ) :=
  match router.processors.lookup mail.state with
  | none => none
  | some processor =>
      let run := processor.process runtime mail world
      match run.outcome with
      | .error _ => none
      | .ok after =>
          if after.state = .ghost ∨ after.state = mail.state then none
          else some (after, run.world)

def MailProcessorRouter.handsOnTimes (runtime : Runtime σ) (router : MailProcessorRouter σ) :
    Nat → Mail → σ → Option (Mail × σ)
  | 0, mail, world => some (mail, world)
  | hops + 1, mail, world =>
      match router.handsOn runtime mail world with
      | none => none
      | some (after, next) => router.handsOnTimes runtime hops after next

theorem Routing.guarded_within {routing : Routing σ} (within : routing.depth ≤ maxDepth) :
    routing.guarded = routing.mail := by
  have bound : ¬routing.depth > maxDepth := by omega
  simp [Routing.guarded, bound]

theorem Routing.guarded_beyond {routing : Routing σ} (beyond : maxDepth < routing.depth) :
    routing.guarded = { routing.mail with state := .error } := by
  simp [Routing.guarded, beyond]

theorem MailProcessorRouter.routeStep_next_iff (runtime : Runtime σ)
    (router : MailProcessorRouter σ) (routing after : Routing σ) :
    router.routeStep runtime routing = .next after ↔
      after.depth = routing.depth + 1 ∧
        router.handsOn runtime routing.guarded routing.world = some (after.mail, after.world) := by
  obtain ⟨depth, mail, world⟩ := after
  simp only [MailProcessorRouter.routeStep, MailProcessorRouter.receiver,
    MailProcessorRouter.handsOn]
  cases registered : router.processors.lookup routing.guarded.state with
  | none => simp
  | some processor =>
      cases ran : (processor.process runtime routing.guarded routing.world).outcome with
      | error error => simp [ran]
      | ok result =>
          by_cases ghost : result.state = .ghost
          · simp [ran, ghost]
          · by_cases same : result.state = routing.guarded.state
            · have visible : routing.guarded.state ≠ .ghost := same ▸ ghost
              by_cases failed : routing.guarded.state = .error <;> simp [ran, visible, same, failed]
            · simp [ran, ghost, same, eq_comm]

theorem MailProcessorRouter.routeStep_ended_iff (runtime : Runtime σ)
    (router : MailProcessorRouter σ) (routing : Routing σ) :
    (∃ result, router.routeStep runtime routing = .ended result) ↔
      router.handsOn runtime routing.guarded routing.world = none := by
  constructor
  · rintro ⟨result, ended⟩
    by_contra going
    obtain ⟨⟨mail, world⟩, handed⟩ := Option.ne_none_iff_exists'.mp going
    have went := (router.routeStep_next_iff runtime routing
      ⟨routing.depth + 1, mail, world⟩).mpr ⟨rfl, handed⟩
    rw [ended] at went
    cases went
  · intro stopped
    cases stepped : router.routeStep runtime routing with
    | ended result => exact ⟨result, rfl⟩
    | next after =>
        have handed := ((router.routeStep_next_iff runtime routing after).mp stepped).2
        rw [stopped] at handed
        cases handed

theorem MailProcessorRouter.iterate_routeStep_within (runtime : Runtime σ)
    (router : MailProcessorRouter σ) (rounds depth : Nat) (mail : Mail) (world : σ)
    (within : depth + rounds ≤ maxDepth + 1) (after : Routing σ) :
    iterate (router.routeStep runtime) rounds ⟨depth, mail, world⟩ = .next after ↔
      after.depth = depth + rounds ∧
        router.handsOnTimes runtime rounds mail world = some (after.mail, after.world) := by
  induction rounds generalizing depth mail world with
  | zero =>
      obtain ⟨_, _, _⟩ := after
      simp [MailProcessorRouter.handsOnTimes, eq_comm]
  | succ rounds ih =>
      have unguarded : (Routing.mk depth mail world).guarded = mail :=
        Routing.guarded_within (by simp only; omega)
      cases stepped : router.routeStep runtime ⟨depth, mail, world⟩ with
      | ended result =>
          have stopped := (router.routeStep_ended_iff runtime _).mp ⟨result, stepped⟩
          rw [unguarded] at stopped
          simp [iterate_ended stepped, MailProcessorRouter.handsOnTimes, stopped]
      | next middle =>
          obtain ⟨counted, handed⟩ := (router.routeStep_next_iff runtime _ _).mp stepped
          rw [unguarded] at handed
          rw [iterate_next stepped]
          obtain ⟨middleDepth, middleMail, middleWorld⟩ := middle
          simp only at counted handed
          subst counted
          rw [ih (depth + 1) middleMail middleWorld (by omega)]
          simp only [MailProcessorRouter.handsOnTimes, handed]
          constructor <;> rintro ⟨total, result⟩ <;> exact ⟨by omega, result⟩

/-- The loop ends within the depth limit and two rounds exactly when the mail is
not handed on more than `maxDepth` times in a row, or the processor registered for
`Error` does not hand it on after that. -/
theorem MailProcessorRouter.route_ends_iff (runtime : Runtime σ) (router : MailProcessorRouter σ)
    (mail : Mail) (world : σ) :
    (∃ result, router.route runtime (maxDepth + 2) mail world = .ended result) ↔
      ∀ after next, router.handsOnTimes runtime (maxDepth + 1) mail world = some (after, next) →
        router.handsOn runtime { after with state := .error } next = none := by
  have reaches (state : Routing σ) := router.iterate_routeStep_within runtime (maxDepth + 1) 0
    mail world (by omega) state
  rw [MailProcessorRouter.route, iterate_add (maxDepth + 1) 1]
  cases ran : iterate (router.routeStep runtime) (maxDepth + 1) ⟨0, mail, world⟩ with
  | ended result =>
      refine ⟨fun _ after next handed => ?_, fun _ => ⟨result, rfl⟩⟩
      have going := (reaches ⟨0 + (maxDepth + 1), after, next⟩).mpr ⟨rfl, handed⟩
      rw [ran] at going
      cases going
  | next state =>
      obtain ⟨counted, handed⟩ := (reaches state).mp ran
      have guard : state.guarded = { state.mail with state := .error } :=
        Routing.guarded_beyond (by omega)
      have last : (∃ result, iterate (router.routeStep runtime) 1 state = .ended result) ↔
          router.handsOn runtime { state.mail with state := .error } state.world = none := by
        rw [← guard, ← router.routeStep_ended_iff runtime state]
        cases stepped : router.routeStep runtime state with
        | next after => simp [iterate, stepped]
        | ended result => simp [iterate, stepped]
      rw [last]
      constructor
      · intro stopped after next found
        rw [handed, Option.some.injEq, Prod.mk.injEq] at found
        rw [← found.1, ← found.2]
        exact stopped
      · intro stopped
        exact stopped state.mail state.world handed

def sendTo (target : MailState) : ProcessingStep Unit where
  matcher := ⟨"All", fun mail world => (.ok mail.recipients, world)⟩
  mailet := ⟨"ToProcessor", fun mail world =>
    ⟨.ok (.changeState target), { mail with state := target }, world, 0, fun _ => (mail, world)⟩⟩
  config := {}

def circularRouter : MailProcessorRouter Unit where
  processors := (AList.singleton .root ⟨"root", .root, [sendTo .error]⟩).insert .error
    ⟨"error", .error, [sendTo .root]⟩
  recordMailCompleted := fun _ world => world

theorem sendTo_process (runtime : Runtime Unit) (name : String) (target : MailState) {mail : Mail}
    (someone : mail.recipients ≠ []) :
    (Processor.process runtime ⟨name, mail.state, [sendTo target]⟩ mail ()).outcome =
      .ok { mail with state := target } := by
  by_cases same : target = mail.state <;>
    simp [Processor.process, Processor.processFrom, Processor.runStep, Processor.wholeStep, sendTo,
      someone, invokeWithPolicy, invokeWithTimeout, Processor.checkState, same]

def Circles (routing : Routing Unit) : Prop :=
  routing.mail.recipients ≠ [] ∧ (routing.mail.state = .root ∨ routing.mail.state = .error)

theorem circularRouter_handsOn (runtime : Runtime Unit) {mail : Mail}
    (someone : mail.recipients ≠ []) (circles : mail.state = .root ∨ mail.state = .error) :
    ∃ target, (target = .root ∨ target = .error) ∧
      circularRouter.handsOn runtime mail () = some ({ mail with state := target }, ()) := by
  rcases circles with inside | inside
  · have sent := sendTo_process runtime "root" .error someone
    have registered : circularRouter.processors.lookup mail.state =
        some ⟨"root", mail.state, [sendTo .error]⟩ := by rw [inside]; rfl
    have apart : ¬(MailState.error = .ghost ∨ MailState.error = mail.state) := by simp [inside]
    refine ⟨.error, Or.inr rfl, ?_⟩
    simp only [MailProcessorRouter.handsOn, registered, sent, apart, if_false]
  · have sent := sendTo_process runtime "error" .root someone
    have registered : circularRouter.processors.lookup mail.state =
        some ⟨"error", mail.state, [sendTo .root]⟩ := by rw [inside]; rfl
    have apart : ¬(MailState.root = .ghost ∨ MailState.root = mail.state) := by simp [inside]
    refine ⟨.root, Or.inl rfl, ?_⟩
    simp only [MailProcessorRouter.handsOn, registered, sent, apart, if_false]

theorem circularRouter_circles (runtime : Runtime Unit) (routing : Routing Unit)
    (circles : Circles routing) :
    ∃ after, circularRouter.routeStep runtime routing = .next after ∧ Circles after := by
  have inside : routing.guarded.recipients ≠ [] ∧
      (routing.guarded.state = .root ∨ routing.guarded.state = .error) := by
    by_cases within : routing.depth ≤ maxDepth
    · rw [Routing.guarded_within within]
      exact circles
    · rw [Routing.guarded_beyond (by omega)]
      exact ⟨circles.1, Or.inr rfl⟩
  obtain ⟨target, again, handed⟩ := circularRouter_handsOn runtime inside.1 inside.2
  refine ⟨⟨routing.depth + 1, { routing.guarded with state := target }, ()⟩, ?_, inside.1, again⟩
  exact (circularRouter.routeStep_next_iff runtime routing _).mpr ⟨rfl, handed⟩

theorem route_circles_forever :
    ¬∃ rounds result,
      circularRouter.route idleRuntime rounds (noteFromAlice [bob]) () = .ended result := by
  rintro ⟨rounds, result, ended⟩
  have initially : Circles ⟨0, noteFromAlice [bob], ()⟩ := ⟨by decide, Or.inl rfl⟩
  obtain ⟨state, ran, _⟩ := iterate_forever (circularRouter_circles idleRuntime) initially rounds
  rw [MailProcessorRouter.route, ran] at ended
  cases ended

end Rusmes
