import BudgetedRun.Run.Budget

/-!
# Consistency of a state

What every state of a run satisfies, and what it satisfies under the plan and the budgets of the
run. Each breach is a `Violation`; a state is consistent if it has none.
-/

namespace BudgetedRun

/-- A breach of consistency. -/
inductive Violation where
  | emptyRunId
  | emptyPlanId
  /-- The total is not the sum of input and output. -/
  | totalMismatch (usage : TokenUsage)
  | missingStopReason
  | strayStopReason (status : RunStatus) (reason : StopReason)
  | missingEndTime (status : RunStatus)
  | strayEndTime
  | endBeforeStart
  | indexBeyondPlan (index : UInt64) (stepCount : Nat)
  | tooManyIterations (count limit : UInt32)
  /-- A run that ended for lack of tokens has spent more than it had. -/
  | tooManyTokens (total limit : UInt64)
  | incomplete (index : UInt64) (stepCount : Nat)
deriving DecidableEq

def Violation.message : Violation → String
  | emptyRunId => "runId must not be empty"
  | emptyPlanId => "planId must not be empty"
  | totalMismatch u => s!"tokenUsage.total {u.total} != input {u.input} + output {u.output}"
  | missingStopReason => "stopped run is missing stopReason"
  | strayStopReason status reason => s!"{status.name} run must not carry stopReason {reason.name}"
  | missingEndTime status => s!"{status.name} run is missing endTime"
  | strayEndTime => "running run must not have endTime"
  | endBeforeStart => "endTime precedes startTime"
  | indexBeyondPlan index count => s!"currentStepIndex {index} exceeds step count {count}"
  | tooManyIterations count limit => s!"iterationCount {count} exceeds maxIterations {limit}"
  | tooManyTokens total limit =>
    s!"budget_exhausted run reports {total} tokens over maxTokens {limit}"
  | incomplete index count => s!"completed run stopped at step {index} of {count}"

def Violation.summary (violations : List Violation) : String :=
  "; ".intercalate (violations.map message)

namespace RunState

/-- A violation if a condition holds. -/
def flag (condition : Prop) [Decidable condition] (v : Violation) : List Violation :=
  if condition then [v] else []

/-- The stop reason belongs to stopped runs and to no others. -/
def stopReasonViolations (s : RunState) : List Violation :=
  match s.status, s.stopReason with
  | .stopped, none => [.missingStopReason]
  | .stopped, some _ => []
  | _, none => []
  | status, some reason => [.strayStopReason status reason]

/-- The end time belongs to runs that are over, and is not before their start. -/
def endTimeViolations (s : RunState) : List Violation :=
  match s.isTerminal, s.endTime with
  | true, none => [.missingEndTime s.status]
  | false, some _ => [.strayEndTime]
  | true, some t => flag (t < s.startTime) .endBeforeStart
  | false, none => []

def violations (s : RunState) : List Violation :=
  flag (s.runId = "") .emptyRunId ++
  flag (s.planId = "") .emptyPlanId ++
  flag (s.tokenUsage.input.toNat + s.tokenUsage.output.toNat ≠ s.tokenUsage.total.toNat)
    (.totalMismatch s.tokenUsage) ++
  s.stopReasonViolations ++
  s.endTimeViolations

/-- What is wrong with a state of a run of a plan with some number of steps. -/
def progressViolations (s : RunState) (stepCount : Nat) (budgets : Budgets) : List Violation :=
  s.violations ++
  flag (stepCount < s.currentStepIndex.toNat) (.indexBeyondPlan s.currentStepIndex stepCount) ++
  flag (budgets.maxIterations < s.iterationCount)
    (.tooManyIterations s.iterationCount budgets.maxIterations) ++
  flag (s.stopReason = some .budgetExhausted ∧ budgets.maxTokens < s.tokenUsage.total)
    (.tooManyTokens s.tokenUsage.total budgets.maxTokens) ++
  flag (s.status = .completed ∧ s.currentStepIndex.toNat ≠ stepCount)
    (.incomplete s.currentStepIndex stepCount)

end RunState

end BudgetedRun
