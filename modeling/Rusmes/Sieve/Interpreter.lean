import Rusmes.Library.Table
import Rusmes.Proto.Mime
import Rusmes.Sieve.Script

/-!
The Sieve interpreter of `interpreter.rs`: tests are evaluated on a mail, and the
commands of the branches taken add their actions to a context.
-/

namespace Rusmes

open WireText

inductive SieveAction
  | keep
  | fileinto (mailbox : Text)
  | redirect (address : Text)
  | discard
  | implicitKeep
  deriving DecidableEq, Repr

structure SieveContext where
  «variables» : Table Text Text
  implicitKeepCanceled : Bool
  actions : List SieveAction
  stopped : Bool

namespace SieveContext

def new : SieveContext := ⟨∅, false, [], false⟩

def addAction (context : SieveContext) (action : SieveAction) : SieveContext :=
  { context with
    implicitKeepCanceled := context.implicitKeepCanceled || action ≠ .implicitKeep
    actions := context.actions ++ [action] }

def finalize (context : SieveContext) : List SieveAction :=
  if !context.implicitKeepCanceled && context.actions.isEmpty then [.implicitKeep]
  else context.actions

end SieveContext

/-- The loop of `wildcard_match` on the value from the last star's match on, of which
`ahead` characters are matched, and on the pattern that is left. -/
def wildcardLoop (value : Text) (ahead : Nat) (pattern : Text) (star : Option Text) : Bool :=
  match _left : value.drop ahead with
  | [] => pattern.all (· = '*')
  | character :: _ =>
      if pattern.head? = some '?' ∨ pattern.head? = some character then
        wildcardLoop value (ahead + 1) pattern.tail star
      else if _starred : pattern.head? = some '*' then
        wildcardLoop (value.drop ahead) 0 pattern.tail (some pattern.tail)
      else
        match star with
        | some after => wildcardLoop value.tail 0 after star
        | none => false
termination_by (value.length, (value.drop ahead).length + pattern.length)
decreasing_by
  all_goals
    have remaining := congrArg List.length _left
    rw [List.length_drop, List.length_cons] at remaining
  · apply Prod.Lex.right
    rw [List.length_drop, List.length_drop, List.length_tail]
    omega
  · rw [List.length_drop, List.length_drop, List.length_drop, List.length_tail, Prod.lex_def]
    have consumed : 0 < pattern.length := by
      cases pattern with
      | nil => cases _starred
      | cons _ _ => exact Nat.succ_pos _
    dsimp only
    omega
  · apply Prod.Lex.left
    rw [List.length_tail]
    omega

section Tests

variable (letters : CaseMapping) (mail : Mail)

def wildcardMatch (value pattern : Text) : Bool :=
  wildcardLoop (letters.toLowercase value) 0 (letters.toLowercase pattern) none

def stringMatch (matchType value pattern : Text) : Bool :=
  if matchType = "is".toList then eqIgnoreAsciiCase value pattern
  else if matchType = "contains".toList then
    letters.toLowercase pattern <:+: letters.toLowercase value
  else if matchType = "matches".toList then wildcardMatch letters value pattern
  else false

def evaluateHeaderTest (matchType : Text) (headers keys : List Text) : Bool :=
  headers.any fun header =>
    match (mail.getAttribute ("header.".toList ++ header)).bind AttributeValue.asStr with
    | some value => keys.any fun key => stringMatch letters matchType value key
    | none => false

def evaluateAddressTest (matchType : Text) (headers keys : List Text) : Bool :=
  evaluateHeaderTest letters mail matchType headers keys

def envelopePart (part : Text) : Option Text :=
  if part = "from".toList then mail.sender.map MailAddress.asString
  else if part = "to".toList then mail.recipients.head?.map MailAddress.asString
  else none

def evaluateEnvelopeTest (matchType : Text) (parts keys : List Text) : Bool :=
  parts.any fun part =>
    match envelopePart mail part with
    | some value => keys.any fun key => stringMatch letters matchType value key
    | none => false

def evaluateExistsTest (headers : List Text) : Bool :=
  headers.any fun header => (mail.getAttribute ("header.".toList ++ header)).isSome

def evaluateSizeTest (above : Bool) (limit : Int) : Bool :=
  match (mail.getAttribute "message.size".toList).bind AttributeValue.asI64 with
  | some size => if above then limit < size else size < limit
  | none => false

mutual

def evaluateTest : SieveTest → Except String Bool
  | .true => .ok true
  | .false => .ok false
  | .header _ matchType headers keys => .ok (evaluateHeaderTest letters mail matchType headers keys)
  | .address _ matchType headers keys =>
      .ok (evaluateAddressTest letters mail matchType headers keys)
  | .envelope _ matchType parts keys =>
      .ok (evaluateEnvelopeTest letters mail matchType parts keys)
  | .exists headers => .ok (evaluateExistsTest mail headers)
  | .size above limit => .ok (evaluateSizeTest mail above limit)
  | .allOf tests => evaluateAllOf tests
  | .anyOf tests => evaluateAnyOf tests
  | .not test => do return !(← evaluateTest test)

def evaluateAllOf : List SieveTest → Except String Bool
  | [] => .ok true
  | test :: tests => do
      if !(← evaluateTest test) then return false
      evaluateAllOf tests

def evaluateAnyOf : List SieveTest → Except String Bool
  | [] => .ok false
  | test :: tests => do
      if ← evaluateTest test then return true
      evaluateAnyOf tests

end

end Tests

section Commands

variable (letters : CaseMapping) (mail : Mail)

mutual

def executeCommand : SieveCommand → SieveContext → Except String SieveContext
  | .keep, context => .ok (context.addAction .keep)
  | .fileinto mailbox, context => .ok (context.addAction (.fileinto mailbox))
  | .redirect address, context => .ok (context.addAction (.redirect address))
  | .discard, context => .ok (context.addAction .discard)
  | .stop, context => .ok { context with stopped := true }
  | .if test thenCommands elsifBranches elseCommands, context => do
      if ← evaluateTest letters mail test then executeBlock thenCommands context
      else
        match ← executeElsif elsifBranches context with
        | some executed => return executed
        | none => executeElse elseCommands context
  | .require _, context => .ok context
  | .set name value, context =>
      .ok { context with «variables» := context.«variables».insert name value }
  | .vacation .., context => .ok context

def executeBlock : List SieveCommand → SieveContext → Except String SieveContext
  | [], context => .ok context
  | command :: commands, context => do
      executeBlock commands (← executeCommand command context)

def executeElsif :
    List (SieveTest × List SieveCommand) → SieveContext → Except String (Option SieveContext)
  | [], _ => .ok none
  | (test, commands) :: branches, context => do
      if ← evaluateTest letters mail test then return some (← executeBlock commands context)
      executeElsif branches context

def executeElse : Option (List SieveCommand) → SieveContext → Except String SieveContext
  | none, context => .ok context
  | some commands, context => executeBlock commands context

end

def executeCommands : List SieveCommand → SieveContext → Except String SieveContext
  | [], context => .ok context
  | command :: commands, context =>
      if context.stopped then .ok context
      else do executeCommands commands (← executeCommand letters mail command context)

def execute (script : SieveScript) : Except String (List SieveAction) := do
  return (← executeCommands letters mail script.commands .new).finalize

end Commands

/-! What a script reaches, whatever the context does with it. -/

inductive SieveStep
  | act (action : SieveAction)
  | stop
  deriving DecidableEq, Repr

def actionsOf (steps : List SieveStep) : List SieveAction :=
  steps.filterMap fun
    | .act action => some action
    | .stop => none

@[simp] theorem actionsOf_append (first second : List SieveStep) :
    actionsOf (first ++ second) = actionsOf first ++ actionsOf second :=
  List.filterMap_append

def untilStop (steps : List SieveStep) : List SieveStep :=
  steps.takeWhile (· ≠ .stop)

def fromStop (steps : List SieveStep) : List SieveStep :=
  steps.dropWhile (· ≠ .stop)

theorem untilStop_append_fromStop (steps : List SieveStep) :
    untilStop steps ++ fromStop steps = steps :=
  List.takeWhile_append_dropWhile

theorem stop_notMem_iff {steps : List SieveStep} : .stop ∉ steps ↔ ∀ step ∈ steps, step ≠ .stop :=
  ⟨fun absent _ member same => absent (same ▸ member), fun others member => others _ member rfl⟩

theorem untilStop_append {first : List SieveStep} (running : .stop ∉ first)
    (second : List SieveStep) : untilStop (first ++ second) = first ++ untilStop second := by
  rw [untilStop, List.takeWhile_append_of_pos]
  · rfl
  · intro step member
    exact decide_eq_true (stop_notMem_iff.mp running step member)

theorem untilStop_append_stopped {first : List SieveStep} (stops : .stop ∈ first)
    (second : List SieveStep) : untilStop (first ++ second) = untilStop first := by
  induction first with
  | nil => cases stops
  | cons step rest ih =>
      rw [List.cons_append, untilStop, untilStop, List.takeWhile_cons, List.takeWhile_cons]
      by_cases stop : step = .stop
      · rw [if_neg (by simp [stop]), if_neg (by simp [stop])]
      · rw [if_pos (decide_eq_true stop), if_pos (decide_eq_true stop)]
        have later : .stop ∈ rest := (List.mem_cons.mp stops).resolve_left (Ne.symm stop)
        exact congrArg _ (ih later)

theorem fromStop_append {first : List SieveStep} (running : .stop ∉ first)
    (second : List SieveStep) : fromStop (first ++ second) = fromStop second := by
  rw [fromStop, List.dropWhile_append_of_pos]
  · rfl
  · intro step member
    exact decide_eq_true (stop_notMem_iff.mp running step member)

theorem fromStop_eq_nil {steps : List SieveStep} (running : .stop ∉ steps) :
    fromStop steps = [] := by
  have nothing := fromStop_append running []
  rwa [List.append_nil] at nothing

/-- The actions of a script that added these: the implicit keep where it added none. -/
def orKept (actions : List SieveAction) : List SieveAction :=
  if actions.isEmpty then [.implicitKeep] else actions

def holds (letters : CaseMapping) (mail : Mail) (test : SieveTest) : Bool :=
  (evaluateTest letters mail test).toOption.getD false

section Reached

variable (held : SieveTest → Bool)

mutual

def commandSteps : SieveCommand → List SieveStep
  | .keep => [.act .keep]
  | .fileinto mailbox => [.act (.fileinto mailbox)]
  | .redirect address => [.act (.redirect address)]
  | .discard => [.act .discard]
  | .stop => [.stop]
  | .if test thenCommands elsifBranches elseCommands =>
      if held test then blockSteps thenCommands
      else elsifSteps elsifBranches (elseSteps elseCommands)
  | .require _ => []
  | .set _ _ => []
  | .vacation .. => []

def blockSteps : List SieveCommand → List SieveStep
  | [] => []
  | command :: commands => commandSteps command ++ blockSteps commands

def elsifSteps :
    List (SieveTest × List SieveCommand) → List SieveStep → List SieveStep
  | [], otherwise => otherwise
  | (test, commands) :: branches, otherwise =>
      if held test then blockSteps commands else elsifSteps branches otherwise

def elseSteps : Option (List SieveCommand) → List SieveStep
  | none => []
  | some commands => blockSteps commands

end

/-- What the interpreter goes through: it leaves the script only between its commands. -/
def reachedSteps : List SieveCommand → List SieveStep
  | [] => []
  | command :: commands =>
      if .stop ∈ commandSteps held command then commandSteps held command
      else commandSteps held command ++ reachedSteps commands

end Reached

section Execution

variable {letters : CaseMapping} {mail : Mail} {held : SieveTest → Bool}

mutual

theorem evaluateTest_ok : ∀ test, ∃ held, evaluateTest letters mail test = .ok held
  | .true | .false | .header .. | .address .. | .envelope .. | .exists _ | .size .. => ⟨_, rfl⟩
  | .allOf tests => evaluateAllOf_ok tests
  | .anyOf tests => evaluateAnyOf_ok tests
  | .not test => by
      obtain ⟨held, run⟩ := evaluateTest_ok test
      exact ⟨!held, by rw [evaluateTest, run]; rfl⟩

theorem evaluateAllOf_ok : ∀ tests, ∃ held, evaluateAllOf letters mail tests = .ok held
  | [] => ⟨_, rfl⟩
  | test :: tests => by
      obtain ⟨held, run⟩ := evaluateTest_ok test
      obtain ⟨others, runs⟩ := evaluateAllOf_ok tests
      rw [evaluateAllOf, run]
      cases held with
      | false => exact ⟨false, rfl⟩
      | true => exact ⟨others, runs⟩

theorem evaluateAnyOf_ok : ∀ tests, ∃ held, evaluateAnyOf letters mail tests = .ok held
  | [] => ⟨_, rfl⟩
  | test :: tests => by
      obtain ⟨held, run⟩ := evaluateTest_ok test
      obtain ⟨others, runs⟩ := evaluateAnyOf_ok tests
      rw [evaluateAnyOf, run]
      cases held with
      | false => exact ⟨others, runs⟩
      | true => exact ⟨true, rfl⟩

end

theorem evaluateTest_eq (test : SieveTest) :
    evaluateTest letters mail test = .ok (holds letters mail test) := by
  obtain ⟨held, run⟩ := @evaluateTest_ok letters mail test
  rw [holds, run]
  rfl

structure SameTested (first second : Mail) : Prop where
  sender : first.sender = second.sender
  recipient : first.recipients.head? = second.recipients.head?
  attributes : first.attributes = second.attributes

section SameTested

variable {other : Mail}

mutual

theorem evaluateTest_congr (same : SameTested mail other) : ∀ test,
    evaluateTest letters mail test = evaluateTest letters other test
  | .true | .false => rfl
  | .header .. | .address .. => by
      simp only [evaluateTest, evaluateAddressTest, evaluateHeaderTest, Mail.getAttribute,
        same.attributes]
  | .envelope .. => by
      simp only [evaluateTest, evaluateEnvelopeTest, envelopePart, same.sender, same.recipient]
  | .exists _ => by
      simp only [evaluateTest, evaluateExistsTest, Mail.getAttribute, same.attributes]
  | .size .. => by
      simp only [evaluateTest, evaluateSizeTest, Mail.getAttribute, same.attributes]
  | .allOf tests => evaluateAllOf_congr same tests
  | .anyOf tests => evaluateAnyOf_congr same tests
  | .not test => by rw [evaluateTest, evaluateTest, evaluateTest_congr same test]

theorem evaluateAllOf_congr (same : SameTested mail other) : ∀ tests,
    evaluateAllOf letters mail tests = evaluateAllOf letters other tests
  | [] => rfl
  | test :: tests => by
      rw [evaluateAllOf, evaluateAllOf, evaluateTest_congr same test,
        evaluateAllOf_congr same tests]

theorem evaluateAnyOf_congr (same : SameTested mail other) : ∀ tests,
    evaluateAnyOf letters mail tests = evaluateAnyOf letters other tests
  | [] => rfl
  | test :: tests => by
      rw [evaluateAnyOf, evaluateAnyOf, evaluateTest_congr same test,
        evaluateAnyOf_congr same tests]

end

end SameTested

structure Ran (steps : List SieveStep) (before after : SieveContext) : Prop where
  actions : after.actions = before.actions ++ actionsOf steps
  stopped : after.stopped = (before.stopped || decide (.stop ∈ steps))
  canceled : after.implicitKeepCanceled =
    (before.implicitKeepCanceled || !(actionsOf steps).isEmpty)

namespace Ran

variable {before middle after : SieveContext} {first second : List SieveStep}

theorem none (context : SieveContext) : Ran [] context context :=
  ⟨(List.append_nil _).symm, (Bool.or_false _).symm, (Bool.or_false _).symm⟩

theorem append (one : Ran first before middle) (other : Ran second middle after) :
    Ran (first ++ second) before after where
  actions := by rw [other.actions, one.actions, actionsOf_append, List.append_assoc]
  stopped := by
    rw [other.stopped, one.stopped, Bool.or_assoc, ← Bool.decide_or]
    simp only [List.mem_append]
  canceled := by
    rw [other.canceled, one.canceled, actionsOf_append, Bool.or_assoc]
    cases actionsOf first with
    | nil => rfl
    | cons _ _ => rfl

theorem act (context : SieveContext) {action : SieveAction} (done : action ≠ .implicitKeep) :
    Ran [.act action] context (context.addAction action) where
  actions := rfl
  stopped := by simp [SieveContext.addAction]
  canceled := by simp [SieveContext.addAction, actionsOf, done]

end Ran

mutual

theorem executeCommand_ran : ∀ command context, ∃ after,
    executeCommand letters mail command context = .ok after ∧
      Ran (commandSteps (holds letters mail) command) context after
  | .keep, context => ⟨_, rfl, .act context (by simp)⟩
  | .fileinto _, context => ⟨_, rfl, .act context (by simp)⟩
  | .redirect _, context => ⟨_, rfl, .act context (by simp)⟩
  | .discard, context => ⟨_, rfl, .act context (by simp)⟩
  | .stop, context => ⟨_, rfl, (List.append_nil _).symm, (Bool.or_true _).symm,
      (Bool.or_false _).symm⟩
  | .if test thenCommands elsifBranches elseCommands, context => by
      rw [executeCommand, evaluateTest_eq, commandSteps]
      cases holds letters mail test with
      | true => exact executeBlock_ran thenCommands context
      | false =>
          obtain ⟨otherwise, run, ran⟩ := executeElse_ran elseCommands context
          rcases executeElsif_ran elsifBranches (elseSteps (holds letters mail) elseCommands) context with
            ⟨missed, same⟩ | ⟨after, found, taken⟩
          · refine ⟨otherwise, ?_, ?_⟩
            · change (executeElsif letters mail elsifBranches context >>= _) = _
              rw [missed]
              exact run
            · rw [if_neg Bool.false_ne_true, same]
              exact ran
          · refine ⟨after, ?_, taken⟩
            change (executeElsif letters mail elsifBranches context >>= _) = _
            rw [found]
            rfl
  | .require _, context => ⟨_, rfl, .none context⟩
  | .set .., context => ⟨_, rfl, (List.append_nil _).symm, (Bool.or_false _).symm,
      (Bool.or_false _).symm⟩
  | .vacation .., context => ⟨_, rfl, .none context⟩

theorem executeBlock_ran : ∀ commands context, ∃ after,
    executeBlock letters mail commands context = .ok after ∧
      Ran (blockSteps (holds letters mail) commands) context after
  | [], context => ⟨_, rfl, .none context⟩
  | command :: commands, context => by
      obtain ⟨middle, run, ran⟩ := executeCommand_ran command context
      obtain ⟨after, runs, ranLater⟩ := executeBlock_ran commands middle
      refine ⟨after, ?_, ran.append ranLater⟩
      rw [executeBlock, run]
      exact runs

theorem executeElsif_ran : ∀ branches otherwise context,
    executeElsif letters mail branches context = .ok none ∧
        elsifSteps (holds letters mail) branches otherwise = otherwise ∨
      ∃ after, executeElsif letters mail branches context = .ok (some after) ∧
        Ran (elsifSteps (holds letters mail) branches otherwise) context after
  | [], _, _ => .inl ⟨rfl, rfl⟩
  | (test, commands) :: branches, otherwise, context => by
      rw [executeElsif, evaluateTest_eq, elsifSteps]
      cases holds letters mail test with
      | true =>
          obtain ⟨after, run, ran⟩ := executeBlock_ran commands context
          refine .inr ⟨after, ?_, ran⟩
          change (executeBlock letters mail commands context >>= _) = _
          rw [run]
          rfl
      | false => exact executeElsif_ran branches otherwise context

theorem executeElse_ran : ∀ commands context, ∃ after,
    executeElse letters mail commands context = .ok after ∧
      Ran (elseSteps (holds letters mail) commands) context after
  | none, context => ⟨_, rfl, .none context⟩
  | some commands, context => executeBlock_ran commands context

end

theorem executeCommands_ran (commands : List SieveCommand) (context : SieveContext)
    (running : context.stopped = false) : ∃ after,
      executeCommands letters mail commands context = .ok after ∧
        Ran (reachedSteps (holds letters mail) commands) context after := by
  induction commands generalizing context with
  | nil => exact ⟨context, rfl, .none context⟩
  | cons command commands ih =>
      obtain ⟨middle, run, ran⟩ := @executeCommand_ran letters mail command context
      have went : executeCommands letters mail (command :: commands) context =
          executeCommands letters mail commands middle := by
        rw [executeCommands, running, if_neg Bool.false_ne_true, run]
        rfl
      have stopped := ran.stopped
      rw [running, Bool.false_or] at stopped
      rw [went, reachedSteps]
      by_cases stops : .stop ∈ commandSteps (holds letters mail) command
      · refine ⟨middle, ?_, ?_⟩
        · rw [decide_eq_true stops] at stopped
          cases commands with
          | nil => rfl
          | cons _ _ => rw [executeCommands, if_pos stopped]
        · rw [if_pos stops]
          exact ran
      · rw [decide_eq_false stops] at stopped
        obtain ⟨after, runs, ranLater⟩ := ih middle stopped
        rw [if_neg stops]
        exact ⟨after, runs, ran.append ranLater⟩

theorem execute_eq (letters : CaseMapping) (mail : Mail) (script : SieveScript) :
    execute letters mail script =
      .ok (orKept (actionsOf (reachedSteps (holds letters mail) script.commands))) := by
  obtain ⟨after, run, ran⟩ :=
    @executeCommands_ran letters mail script.commands .new rfl
  have added : after.actions = actionsOf (reachedSteps (holds letters mail) script.commands) := ran.actions
  have canceled : after.implicitKeepCanceled =
      !(actionsOf (reachedSteps (holds letters mail) script.commands)).isEmpty := ran.canceled
  rw [execute, run]
  change Except.ok after.finalize = _
  rw [SieveContext.finalize, canceled, added, Bool.not_not, Bool.and_self, orKept]

theorem execute_congr {other : Mail} (same : SameTested mail other) (script : SieveScript) :
    execute letters mail script = execute letters other script := by
  have tests : holds letters mail = holds letters other := by
    funext test
    rw [holds, holds, evaluateTest_congr same test]
  rw [execute_eq, execute_eq, tests]

theorem untilStop_reachedSteps (commands : List SieveCommand) :
    untilStop (reachedSteps held commands) = untilStop (blockSteps held commands) := by
  induction commands with
  | nil => rfl
  | cons command commands ih =>
      rw [reachedSteps, blockSteps]
      by_cases stops : .stop ∈ commandSteps held command
      · rw [if_pos stops, untilStop_append_stopped stops]
      · rw [if_neg stops, untilStop_append stops, untilStop_append stops, ih]

theorem orKept_injective {first second : List SieveAction}
    (added : .implicitKeep ∉ first ++ second) (same : orKept (first ++ second) = orKept first) :
    second = [] := by
  cases second with
  | nil => rfl
  | cons action actions =>
      have shown : orKept (first ++ action :: actions) = first ++ action :: actions := by
        rw [orKept, if_neg (by simp)]
      rw [shown] at same
      cases first with
      | nil => exact absurd (same ▸ List.mem_singleton_self _) added
      | cons _ _ => exact absurd (List.append_right_eq_self.mp same) (List.cons_ne_nil _ _)

mutual

theorem implicitKeep_notMem_command : ∀ command,
    .act .implicitKeep ∉ commandSteps held command
  | .keep | .fileinto _ | .redirect _ | .discard | .stop | .require _ | .set .. | .vacation .. => by
      simp [commandSteps]
  | .if test thenCommands elsifBranches elseCommands => by
      rw [commandSteps]
      split
      · exact implicitKeep_notMem_block thenCommands
      · exact implicitKeep_notMem_elsif elsifBranches (implicitKeep_notMem_else elseCommands)

theorem implicitKeep_notMem_block : ∀ commands,
    .act .implicitKeep ∉ blockSteps held commands
  | [] => List.not_mem_nil
  | command :: commands => by
      rw [blockSteps, List.mem_append, not_or]
      exact ⟨implicitKeep_notMem_command command, implicitKeep_notMem_block commands⟩

theorem implicitKeep_notMem_elsif : ∀ branches {otherwise},
    .act .implicitKeep ∉ otherwise → .act .implicitKeep ∉ elsifSteps held branches otherwise
  | [], _, absent => absent
  | (_, commands) :: branches, _, absent => by
      rw [elsifSteps]
      split
      · exact implicitKeep_notMem_block commands
      · exact implicitKeep_notMem_elsif branches absent

theorem implicitKeep_notMem_else : ∀ commands,
    .act .implicitKeep ∉ elseSteps held commands
  | none => List.not_mem_nil
  | some commands => implicitKeep_notMem_block commands

end

theorem implicitKeep_notMem_reached (commands : List SieveCommand) :
    .implicitKeep ∉ actionsOf (reachedSteps held commands) := by
  have absent : .act .implicitKeep ∉ reachedSteps held commands := by
    induction commands with
    | nil => exact List.not_mem_nil
    | cons command commands ih =>
        rw [reachedSteps]
        split
        · exact implicitKeep_notMem_command command
        · rw [List.mem_append, not_or]
          exact ⟨implicitKeep_notMem_command command, ih⟩
  intro member
  obtain ⟨step, inside, shown⟩ := List.mem_filterMap.mp member
  cases step with
  | act action => exact absent (Option.some.inj shown ▸ inside)
  | stop => cases shown

theorem fromStop_reachedSteps (commands : List SieveCommand) :
    actionsOf (fromStop (reachedSteps held commands)) = [] ↔
      ∀ done command later, commands = done ++ command :: later →
        (∀ earlier ∈ done, .stop ∉ commandSteps held earlier) →
          actionsOf (fromStop (commandSteps held command)) = [] := by
  induction commands with
  | nil =>
      constructor
      · intro _ done command later shape
        exact absurd shape.symm (List.append_ne_nil_of_right_ne_nil _ (List.cons_ne_nil _ _))
      · intro _
        rfl
  | cons first commands ih =>
      rw [reachedSteps]
      by_cases stops : .stop ∈ commandSteps held first
      · rw [if_pos stops]
        constructor
        · intro nothing done command later shape running
          cases done with
          | nil => rwa [← (List.cons.inj shape).1]
          | cons other done =>
              rw [(List.cons.inj shape).1] at stops
              exact absurd stops (running other List.mem_cons_self)
        · intro nothing
          exact nothing [] first commands rfl (fun _ member => nomatch member)
      · rw [if_neg stops, fromStop_append stops, ih]
        constructor
        · intro nothing done command later shape running
          cases done with
          | nil => rw [← (List.cons.inj shape).1, fromStop_eq_nil stops, actionsOf, List.filterMap_nil]
          | cons other done =>
              exact nothing done command later (List.cons.inj shape).2
                fun earlier member => running earlier (List.mem_cons_of_mem _ member)
        · intro nothing done command later shape running
          refine nothing (first :: done) command later (congrArg _ shape) ?_
          intro earlier member
          rcases List.mem_cons.mp member with same | member
          · rwa [same]
          · exact running earlier member

/-- A script is executed up to its first stop, exactly when no branch taken in the
command that reaches it goes on to an action. -/
theorem execute_stops_iff (letters : CaseMapping) (mail : Mail) (script : SieveScript) :
    execute letters mail script =
        .ok (orKept (actionsOf (untilStop (blockSteps (holds letters mail) script.commands)))) ↔
      ∀ done command later, script.commands = done ++ command :: later →
        (∀ earlier ∈ done, .stop ∉ commandSteps (holds letters mail) earlier) →
          actionsOf (fromStop (commandSteps (holds letters mail) command)) = [] := by
  rw [← fromStop_reachedSteps, execute_eq, ← untilStop_reachedSteps, Except.ok.injEq]
  have parts := congrArg actionsOf
    (untilStop_append_fromStop (reachedSteps (holds letters mail) script.commands))
  rw [actionsOf_append] at parts
  constructor
  · intro same
    rw [← parts] at same
    refine orKept_injective ?_ same
    rw [parts]
    exact implicitKeep_notMem_reached script.commands
  · intro nothing
    rw [nothing, List.append_nil] at parts
    rw [parts]

/-- The block of an `if` runs on after a stop. -/
theorem stop_in_block_ignored :
    let script : SieveScript := ⟨[.if .true [.stop, .keep] [] none], []⟩
    execute asciiCase (noteFromAlice []) script ≠
      .ok (orKept (actionsOf (untilStop
        (blockSteps (holds asciiCase (noteFromAlice [])) script.commands)))) := by
  decide

end Execution

end Rusmes
