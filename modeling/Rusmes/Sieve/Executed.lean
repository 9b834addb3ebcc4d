import Rusmes.Sieve.Interpreter

/-!
The interpreter with a log of the commands it executes, and what its actions are of them.
-/

namespace Rusmes

section Logged

variable (letters : CaseMapping) (mail : Mail)

mutual

/-- `execute_command`, with the commands it was called on in the order of the calls. -/
def loggedCommand :
    SieveCommand → SieveContext → Except String (SieveContext × List SieveCommand)
  | .if test thenCommands elsifBranches elseCommands, context => do
      let entered := .if test thenCommands elsifBranches elseCommands
      if ← evaluateTest letters mail test then
        let run ← loggedBlock thenCommands context
        return (run.1, entered :: run.2)
      else
        match ← loggedElsif elsifBranches context with
        | some run => return (run.1, entered :: run.2)
        | none =>
            let run ← loggedElse elseCommands context
            return (run.1, entered :: run.2)
  | command, context => do return (← executeCommand letters mail command context, [command])

def loggedBlock :
    List SieveCommand → SieveContext → Except String (SieveContext × List SieveCommand)
  | [], context => .ok (context, [])
  | command :: commands, context => do
      let run ← loggedCommand command context
      let runs ← loggedBlock commands run.1
      return (runs.1, run.2 ++ runs.2)

def loggedElsif : List (SieveTest × List SieveCommand) → SieveContext →
    Except String (Option (SieveContext × List SieveCommand))
  | [], _ => .ok none
  | (test, commands) :: branches, context => do
      if ← evaluateTest letters mail test then return some (← loggedBlock commands context)
      loggedElsif branches context

def loggedElse :
    Option (List SieveCommand) → SieveContext → Except String (SieveContext × List SieveCommand)
  | none, context => .ok (context, [])
  | some commands, context => loggedBlock commands context

end

def loggedCommands :
    List SieveCommand → SieveContext → Except String (SieveContext × List SieveCommand)
  | [], context => .ok (context, [])
  | command :: commands, context =>
      if context.stopped then .ok (context, [])
      else do
        let run ← loggedCommand letters mail command context
        let runs ← loggedCommands commands run.1
        return (runs.1, run.2 ++ runs.2)

def executeLogged (script : SieveScript) :
    Except String (List SieveAction × List SieveCommand) := do
  let run ← loggedCommands letters mail script.commands .new
  return (run.1.finalize, run.2)

end Logged

def SieveCommand.action : SieveCommand → Option SieveAction
  | .keep => some .keep
  | .fileinto mailbox => some (.fileinto mailbox)
  | .redirect address => some (.redirect address)
  | .discard => some .discard
  | _ => none

def SieveCommand.step : SieveCommand → Option SieveStep
  | .stop => some .stop
  | command => command.action.map .act

theorem actionsOf_steps (commands : List SieveCommand) :
    actionsOf (commands.filterMap SieveCommand.step) = commands.filterMap SieveCommand.action := by
  rw [actionsOf, List.filterMap_filterMap]
  congr 1
  funext command
  cases command <;> rfl

section Logs

variable {letters : CaseMapping} {mail : Mail}

structure Logs (steps : List SieveStep) (executed : Except String SieveContext)
    (logged : Except String (SieveContext × List SieveCommand)) (after : SieveContext)
    (ran : List SieveCommand) : Prop where
  logged : logged = .ok (after, ran)
  executed : executed = .ok after
  steps : ran.filterMap SieveCommand.step = steps

mutual

theorem loggedCommand_logs : ∀ command context, ∃ after ran,
    Logs (commandSteps (holds letters mail) command) (executeCommand letters mail command context)
      (loggedCommand letters mail command context) after ran
  | .if test thenCommands elsifBranches elseCommands, context => by
      rw [executeCommand, loggedCommand, evaluateTest_eq, commandSteps]
      cases holds letters mail test with
      | true =>
          obtain ⟨after, ran, logs⟩ := loggedBlock_logs thenCommands context
          refine ⟨after, .if test thenCommands elsifBranches elseCommands :: ran, ?_, logs.executed,
            logs.steps⟩
          change (loggedBlock letters mail thenCommands context >>= _) = _
          rw [logs.logged]
          rfl
      | false =>
          have outcome := loggedElsif_logs elsifBranches
            (elseSteps (holds letters mail) elseCommands) context
          rcases outcome with ⟨missed, missedLog, same⟩ | ⟨after, ran, found, foundLog, steps⟩
          · obtain ⟨after, ran, logs⟩ := loggedElse_logs elseCommands context
            refine ⟨after, .if test thenCommands elsifBranches elseCommands :: ran, ?_, ?_, ?_⟩
            · change (loggedElsif letters mail elsifBranches context >>= _) = _
              rw [missedLog]
              change (loggedElse letters mail elseCommands context >>= _) = _
              rw [logs.logged]
              rfl
            · change (executeElsif letters mail elsifBranches context >>= _) = _
              rw [missed]
              exact logs.executed
            · rw [if_neg Bool.false_ne_true, same]
              exact logs.steps
          · refine ⟨after, .if test thenCommands elsifBranches elseCommands :: ran, ?_, ?_, steps⟩
            · change (loggedElsif letters mail elsifBranches context >>= _) = _
              rw [foundLog]
              rfl
            · change (executeElsif letters mail elsifBranches context >>= _) = _
              rw [found]
              rfl
  | .keep, _ | .fileinto _, _ | .redirect _, _ | .discard, _ | .stop, _ | .require _, _
  | .set .., _ | .vacation .., _ => ⟨_, _, rfl, rfl, rfl⟩

theorem loggedBlock_logs : ∀ commands context, ∃ after ran,
    Logs (blockSteps (holds letters mail) commands) (executeBlock letters mail commands context)
      (loggedBlock letters mail commands context) after ran
  | [], _ => ⟨_, _, rfl, rfl, rfl⟩
  | command :: commands, context => by
      obtain ⟨middle, ran, logs⟩ := loggedCommand_logs command context
      obtain ⟨after, later, logsLater⟩ := loggedBlock_logs commands middle
      refine ⟨after, ran ++ later, ?_, ?_, ?_⟩
      · rw [loggedBlock, logs.logged]
        change (loggedBlock letters mail commands middle >>= _) = _
        rw [logsLater.logged]
        rfl
      · rw [executeBlock, logs.executed]
        exact logsLater.executed
      · rw [List.filterMap_append, logs.steps, logsLater.steps, blockSteps]

theorem loggedElsif_logs : ∀ branches otherwise context,
    executeElsif letters mail branches context = .ok none ∧
        loggedElsif letters mail branches context = .ok none ∧
        elsifSteps (holds letters mail) branches otherwise = otherwise ∨
      ∃ after ran, executeElsif letters mail branches context = .ok (some after) ∧
        loggedElsif letters mail branches context = .ok (some (after, ran)) ∧
        ran.filterMap SieveCommand.step = elsifSteps (holds letters mail) branches otherwise
  | [], _, _ => .inl ⟨rfl, rfl, rfl⟩
  | (test, commands) :: branches, otherwise, context => by
      rw [executeElsif, loggedElsif, evaluateTest_eq, elsifSteps]
      cases holds letters mail test with
      | true =>
          obtain ⟨after, ran, logs⟩ := loggedBlock_logs commands context
          refine .inr ⟨after, ran, ?_, ?_, logs.steps⟩
          · change (executeBlock letters mail commands context >>= _) = _
            rw [logs.executed]
            rfl
          · change (loggedBlock letters mail commands context >>= _) = _
            rw [logs.logged]
            rfl
      | false => exact loggedElsif_logs branches otherwise context

theorem loggedElse_logs : ∀ commands context, ∃ after ran,
    Logs (elseSteps (holds letters mail) commands) (executeElse letters mail commands context)
      (loggedElse letters mail commands context) after ran
  | none, _ => ⟨_, _, rfl, rfl, rfl⟩
  | some commands, context => loggedBlock_logs commands context

end

theorem loggedCommands_logs (commands : List SieveCommand) (context : SieveContext)
    (running : context.stopped = false) : ∃ after ran,
      Logs (reachedSteps (holds letters mail) commands)
        (executeCommands letters mail commands context)
        (loggedCommands letters mail commands context) after ran := by
  induction commands generalizing context with
  | nil => exact ⟨context, [], rfl, rfl, rfl⟩
  | cons command commands ih =>
      obtain ⟨middle, ran, logs⟩ := @loggedCommand_logs letters mail command context
      obtain ⟨same, run, stepped⟩ := @executeCommand_ran letters mail command context
      have stopped := stepped.stopped
      rw [← Except.ok.inj (logs.executed.symm.trans run), running, Bool.false_or] at stopped
      rw [executeCommands, loggedCommands, running, if_neg Bool.false_ne_true,
        if_neg Bool.false_ne_true, logs.executed, logs.logged, reachedSteps]
      by_cases stops : .stop ∈ commandSteps (holds letters mail) command
      · -- the loop leaves the script at its next command
        rw [if_pos stops]
        rw [decide_eq_true stops] at stopped
        refine ⟨middle, ran, ?_, ?_, logs.steps⟩
        · change (loggedCommands letters mail commands middle >>= _) = _
          cases commands with
          | nil => exact congrArg Except.ok (Prod.ext rfl (List.append_nil ran))
          | cons _ _ =>
              rw [loggedCommands, if_pos stopped]
              exact congrArg Except.ok (Prod.ext rfl (List.append_nil ran))
        · change executeCommands letters mail commands middle = _
          cases commands with
          | nil => rfl
          | cons _ _ => rw [executeCommands, if_pos stopped]
      · rw [if_neg stops]
        rw [decide_eq_false stops] at stopped
        obtain ⟨after, later, logsLater⟩ := ih middle stopped
        refine ⟨after, ran ++ later, ?_, logsLater.executed, ?_⟩
        · change (loggedCommands letters mail commands middle >>= _) = _
          rw [logsLater.logged]
          rfl
        · rw [List.filterMap_append, logs.steps, logsLater.steps]

/-- The log is of the run that `execute` makes. -/
theorem executeLogged_execute (script : SieveScript) :
    ∃ ran, executeLogged letters mail script =
        .ok (orKept (ran.filterMap SieveCommand.action), ran) ∧
      execute letters mail script = .ok (orKept (ran.filterMap SieveCommand.action)) := by
  obtain ⟨after, ran, logs⟩ := @loggedCommands_logs letters mail script.commands .new rfl
  have actions : execute letters mail script = .ok after.finalize := by
    rw [execute, logs.executed]
    rfl
  have finalized : after.finalize = orKept (ran.filterMap SieveCommand.action) := by
    rw [execute_eq, ← logs.steps, actionsOf_steps] at actions
    exact (Except.ok.inj actions).symm
  refine ⟨ran, ?_, ?_⟩
  · rw [executeLogged, logs.logged, ← finalized]
    rfl
  · rw [actions, finalized]

theorem orKept_ne_nil (actions : List SieveAction) : orKept actions ≠ [] := by
  cases actions <;> simp [orKept]

theorem orKept_eq_implicitKeep_iff {actions : List SieveAction}
    (explicit : .implicitKeep ∉ actions) : orKept actions = [.implicitKeep] ↔ actions = [] := by
  constructor
  · intro kept
    cases actions with
    | nil => rfl
    | cons action actions =>
        simp only [orKept, List.isEmpty_cons, Bool.false_eq_true, if_false] at kept
        exact absurd (kept ▸ List.mem_singleton_self _) explicit
  · intro nothing
    simp [nothing, orKept]

theorem implicitKeep_notMem_action (ran : List SieveCommand) :
    .implicitKeep ∉ ran.filterMap SieveCommand.action := by
  intro member
  obtain ⟨command, _, acted⟩ := List.mem_filterMap.mp member
  cases command <;> cases acted

/-- What `execute` returns are the actions executed, in the order of their execution, and
the implicit keep alone when there were none. -/
theorem execute_actions (script : SieveScript) (actions : List SieveAction)
    (run : execute letters mail script = .ok actions) :
    ∃ ran, executeLogged letters mail script = .ok (actions, ran) ∧
      actions ≠ [] ∧
      (actions = [.implicitKeep] ↔ ∀ command ∈ ran, command.action = none) ∧
      ((∃ command ∈ ran, command.action ≠ none) →
        actions = ran.filterMap SieveCommand.action) := by
  obtain ⟨ran, logged, executed⟩ := @executeLogged_execute letters mail script
  obtain rfl := Except.ok.inj (run.symm.trans executed)
  refine ⟨ran, logged, orKept_ne_nil _, ?_, ?_⟩
  · rw [orKept_eq_implicitKeep_iff (implicitKeep_notMem_action ran), List.filterMap_eq_nil_iff]
  · rintro ⟨command, member, acts⟩
    have some : ran.filterMap SieveCommand.action ≠ [] := by
      intro nothing
      exact acts (List.filterMap_eq_nil_iff.mp nothing command member)
    rw [orKept, if_neg (by rwa [List.isEmpty_iff])]

theorem execute_actions_nested :
    let script : SieveScript := ⟨[.if .true [.stop, .keep] [] none, .discard], []⟩
    ∃ ran, executeLogged asciiCase (noteFromAlice []) script = .ok ([.keep], ran) ∧
      [SieveAction.keep] ≠ [] ∧
      ([SieveAction.keep] = [.implicitKeep] ↔ ∀ command ∈ ran, command.action = none) ∧
      ((∃ command ∈ ran, command.action ≠ none) →
        [.keep] = ran.filterMap SieveCommand.action) :=
  execute_actions _ _ (by decide)

end Logs

end Rusmes
