import BudgetedRun.Proofs.Run.Transition

/-!
# Progress of a state

A later state of a run belongs to the same run, is nowhere behind an earlier one, and has all of its
incidents. This is an order on states, and whatever happens to a running state goes up in it.
-/

namespace BudgetedRun

namespace RunState

/-- A state is as far as another one of the same run, or further, and nothing recorded is lost. -/
structure Extends (s s' : RunState) : Prop where
  runId : s'.runId = s.runId
  planId : s'.planId = s.planId
  startTime : s'.startTime = s.startTime
  index : s.currentStepIndex ≤ s'.currentStepIndex
  iterations : s.iterationCount ≤ s'.iterationCount
  input : s.tokenUsage.input ≤ s'.tokenUsage.input
  output : s.tokenUsage.output ≤ s'.tokenUsage.output
  total : s.tokenUsage.total ≤ s'.tokenUsage.total
  errors : s.errors <+: s'.errors

namespace Extends

variable {s s' s'' : RunState} {now : Timestamp}

theorem refl (s : RunState) : s.Extends s where
  runId := rfl
  planId := rfl
  startTime := rfl
  index := UInt64.le_refl _
  iterations := UInt32.le_refl _
  input := UInt64.le_refl _
  output := UInt64.le_refl _
  total := UInt64.le_refl _
  errors := List.prefix_rfl

theorem trans (first : s.Extends s') (second : s'.Extends s'') : s.Extends s'' where
  runId := second.runId.trans first.runId
  planId := second.planId.trans first.planId
  startTime := second.startTime.trans first.startTime
  index := UInt64.le_trans first.index second.index
  iterations := UInt32.le_trans first.iterations second.iterations
  input := UInt64.le_trans first.input second.input
  output := UInt64.le_trans first.output second.output
  total := UInt64.le_trans first.total second.total
  errors := first.errors.trans second.errors

/-- A failed step adds an iteration and an incident. -/
theorem advance_failed (running : s.status = .running) (stepId message : String) :
    s.Extends (s.advance stepId (.failed message) now) := by
  rw [RunState.advance_failed running]
  exact { refl s with iterations := le_nextIteration _, errors := List.prefix_append _ _ }

/-- A rejected answer adds an iteration and an incident. -/
theorem advance_overBudget (running : s.status = .running) (stepId : String)
    (input output : UInt64) : s.Extends (s.advance stepId (.overBudget input output) now) := by
  rw [RunState.advance_overBudget running]
  exact { refl s with iterations := le_nextIteration _, errors := List.prefix_append _ _ }

theorem complete (running : s.status = .running) : s.Extends (s.complete now) := by
  rw [complete_of_running running]
  exact { refl s with }

theorem stop (running : s.status = .running) (decision : StopDecision) :
    s.Extends (s.stop decision now) := by
  rw [stop_of_running running]
  exact { refl s with errors := List.prefix_append _ _ }

theorem fail (running : s.status = .running) (message : String) :
    s.Extends (s.fail message now) := by
  rw [fail_of_running running]
  exact { refl s with errors := List.prefix_append _ _ }

end Extends

end RunState

end BudgetedRun
