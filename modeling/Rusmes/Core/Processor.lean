import Rusmes.Proto.Mail

/-!
The processor chain of `processor.rs`: matchers choose recipients, mailets are
invoked under a timeout and an error policy, and a mail leaves the chain when its
state no longer is the processor's. Matchers and mailets are arbitrary functions
that read and change a shared world `σ` (storage, resolvers, clocks). A run also
reports which mailet was invoked on which portion of the mail.
-/

namespace Rusmes

open WireText

variable {σ : Type}

inductive MailetAction
  | «continue»
  | changeState (state : MailState)
  | drop
  | defer (delayMs : Nat)
  deriving DecidableEq, Repr

inductive MailetError
  | timeout (durationMs : Nat)
  | serviceError (message : String)
  deriving DecidableEq, Repr

inductive MailetErrorPolicy
  | skip
  | abort
  | retry (max : Nat) (backoffMs : Nat)
  deriving DecidableEq, Repr

structure MailetConfig where
  timeoutMs : Option Nat := none
  errorPolicy : MailetErrorPolicy := .abort
  deriving DecidableEq, Repr

/-- One call of `service`: its result with the mail and world it leaves, how long
it takes, and what it has left behind when it is cancelled after some time. -/
structure ServiceRun (σ : Type) where
  result : Except String MailetAction
  mail : Mail
  world : σ
  elapsedMs : Nat
  cancelled : Nat → Mail × σ

structure Mailet (σ : Type) where
  name : String
  service : Mail → σ → ServiceRun σ

structure Matcher (σ : Type) where
  name : String
  matchMail : Mail → σ → Except String (List MailAddress) × σ

structure Runtime (σ : Type) where
  newMailId : σ → MailId × σ
  sleep : Nat → σ → σ

structure ProcessingStep (σ : Type) where
  matcher : Matcher σ
  mailet : Mailet σ
  config : MailetConfig

structure Processor (σ : Type) where
  name : String
  state : MailState
  steps : List (ProcessingStep σ)

def durationDebug (ms : Nat) : String :=
  if ms = 0 then "0ns"
  else if ms < 1000 then s!"{ms}ms"
  else if ms % 1000 = 0 then s!"{ms / 1000}s"
  else
    let digits := ((toString (ms % 1000)).toList.leftpad 3 '0').rdropWhile fun digit => digit = '0'
    s!"{ms / 1000}.{String.ofList digits}s"

def MailetError.display : MailetError → String
  | .timeout ms => s!"Mailet execution timed out after {durationDebug ms}"
  | .serviceError message => s!"Mailet error: {message}"

def invokeWithTimeout (mailet : Mailet σ) (mail : Mail) (timeoutMs : Option Nat) (world : σ) :
    Except MailetError MailetAction × Mail × σ :=
  let run := mailet.service mail world
  let finished : Except MailetError MailetAction × Mail × σ :=
    match run.result with
    | .ok action => (.ok action, run.mail, run.world)
    | .error message => (.error (.serviceError message), run.mail, run.world)
  match timeoutMs with
  | none => finished
  | some ms =>
      if run.elapsedMs ≤ ms then finished
      else
        let (mail, world) := run.cancelled ms
        (.error (.timeout ms), mail, world)

/-- The retry loop with `left` further attempts allowed after a failure. -/
def retryLoop (runtime : Runtime σ) (mailet : Mailet σ) (timeoutMs : Option Nat)
    (max backoffMs : Nat) : Nat → Mail → σ → Except String (Option MailetAction) × Mail × σ
  | left, mail, world =>
      match invokeWithTimeout mailet mail timeoutMs world with
      | (.ok action, mail, world) => (.ok (some action), mail, world)
      | (.error error, mail, world) =>
          match left with
          | 0 => (.error
              s!"Mailet {mailet.name} failed after {max} retries, aborting: {error.display}",
              mail, world)
          | left + 1 =>
              retryLoop runtime mailet timeoutMs max backoffMs left mail
                (runtime.sleep backoffMs world)

def invokeWithPolicy (runtime : Runtime σ) (mailet : Mailet σ) (mail : Mail)
    (config : MailetConfig) (world : σ) : Except String (Option MailetAction) × Mail × σ :=
  match config.errorPolicy with
  | .skip =>
      match invokeWithTimeout mailet mail config.timeoutMs world with
      | (.ok action, mail, world) => (.ok (some action), mail, world)
      | (.error _, mail, world) => (.ok none, mail, world)
  | .abort =>
      match invokeWithTimeout mailet mail config.timeoutMs world with
      | (.ok action, mail, world) => (.ok (some action), mail, world)
      | (.error error, mail, world) =>
          (.error s!"Mailet {mailet.name} aborted pipeline: {error.display}", mail, world)
  | .retry max backoffMs =>
      retryLoop runtime mailet config.timeoutMs max backoffMs max mail world

/-- A mailet invocation: the step, whether the portion is the whole mail the loop
holds or one split off it, and the portion before and after. -/
structure Invocation (σ : Type) where
  step : Nat
  whole : Bool
  before : Mail
  result : Except String (Option MailetAction)
  after : Mail
  world : σ

inductive StepOutcome
  | failed (error : String)
  | left (mail : Mail)
  | remaining (mail : Mail)

structure StepRun (σ : Type) where
  outcome : StepOutcome
  world : σ
  trace : List (Invocation σ)

structure ProcessRun (σ : Type) where
  outcome : Except String Mail
  world : σ
  trace : List (Invocation σ)

def Processor.checkState (processor : Processor σ) (mail : Mail) : StepOutcome :=
  if mail.state ≠ processor.state then .left mail else .remaining mail

theorem Processor.checkState_left {processor : Processor σ} {mail : Mail}
    (changed : mail.state ≠ processor.state) : processor.checkState mail = .left mail := by
  simp [Processor.checkState, changed]

theorem Processor.checkState_remaining {processor : Processor σ} {mail : Mail}
    (kept : mail.state = processor.state) : processor.checkState mail = .remaining mail := by
  simp [Processor.checkState, kept]

/-- A partial match: the mailet sees the portion split off, which then goes out of
scope, and the loop goes on with the unmatched mail. -/
def Processor.splitStep (runtime : Runtime σ) (processor : Processor σ) (index : Nat)
    (step : ProcessingStep σ) (matched : List MailAddress) (mail : Mail) (world : σ) : StepRun σ :=
  let (fresh, world) := runtime.newMailId world
  let (matchedMail, unmatchedMail) := mail.split fresh matched
  let (result, after, world) := invokeWithPolicy runtime step.mailet matchedMail step.config world
  let trace := [{ step := index, whole := false, before := matchedMail, result, after, world }]
  match result with
  | .error error => ⟨.failed error, world, trace⟩
  | .ok _ => ⟨processor.checkState unmatchedMail, world, trace⟩

def Processor.wholeStep (runtime : Runtime σ) (processor : Processor σ) (index : Nat)
    (step : ProcessingStep σ) (mail : Mail) (world : σ) : StepRun σ :=
  let (result, after, world) := invokeWithPolicy runtime step.mailet mail step.config world
  let trace := [{ step := index, whole := true, before := mail, result, after, world }]
  match result with
  | .error error => ⟨.failed error, world, trace⟩
  | .ok none => ⟨.remaining after, world, trace⟩
  | .ok (some _) => ⟨processor.checkState after, world, trace⟩

def Processor.runStep (runtime : Runtime σ) (processor : Processor σ) (index : Nat)
    (step : ProcessingStep σ) (mail : Mail) (world : σ) : StepRun σ :=
  match step.matcher.matchMail mail world with
  | (.error error, world) => ⟨.failed error, world, []⟩
  | (.ok matched, world) =>
      if matched.isEmpty then ⟨.remaining mail, world, []⟩
      else if matched.length < mail.recipients.length then
        processor.splitStep runtime index step matched mail world
      else processor.wholeStep runtime index step mail world

def Processor.processFrom (runtime : Runtime σ) (processor : Processor σ) :
    Nat → List (ProcessingStep σ) → Mail → σ → ProcessRun σ
  | _, [], mail, world => ⟨.ok mail, world, []⟩
  | index, step :: rest, mail, world =>
      let run := processor.runStep runtime index step mail world
      match run.outcome with
      | .failed error => ⟨.error error, run.world, run.trace⟩
      | .left mail => ⟨.ok mail, run.world, run.trace⟩
      | .remaining mail =>
          let later := processor.processFrom runtime (index + 1) rest mail run.world
          { later with trace := run.trace ++ later.trace }

def Processor.process (runtime : Runtime σ) (processor : Processor σ) (mail : Mail) (world : σ) :
    ProcessRun σ :=
  processor.processFrom runtime 0 processor.steps mail world

theorem Processor.runStep_trace_index (runtime : Runtime σ) (processor : Processor σ) (index : Nat)
    (step : ProcessingStep σ) (mail : Mail) (world : σ) :
    ∀ invocation ∈ (processor.runStep runtime index step mail world).trace,
      invocation.step = index := by
  intro invocation member
  simp only [Processor.runStep] at member
  split at member
  · simp at member
  · split at member
    · simp at member
    · split at member
      · simp only [Processor.splitStep] at member
        split at member <;> simp only [List.mem_singleton] at member <;> subst member <;> rfl
      · simp only [Processor.wholeStep] at member
        split at member <;> simp only [List.mem_singleton] at member <;> subst member <;> rfl

theorem Processor.processFrom_trace_index (runtime : Runtime σ) (processor : Processor σ)
    (index : Nat) (steps : List (ProcessingStep σ)) (mail : Mail) (world : σ) :
    ∀ invocation ∈ (processor.processFrom runtime index steps mail world).trace,
      index ≤ invocation.step := by
  induction steps generalizing index mail world with
  | nil => simp [Processor.processFrom]
  | cons step rest ih =>
      intro invocation member
      have here := processor.runStep_trace_index runtime index step mail world invocation
      simp only [Processor.processFrom] at member
      split at member
      · exact Nat.le_of_eq (here member).symm
      · exact Nat.le_of_eq (here member).symm
      · rcases List.mem_append.mp member with first | later
        · exact Nat.le_of_eq (here first).symm
        · exact Nat.le_of_succ_le (ih _ _ _ invocation later)

def idleRuntime : Runtime Unit :=
  ⟨fun world => (⟨1⟩, world), fun _ world => world⟩

end Rusmes
