import BudgetedRun.Proofs.Engine.History
import BudgetedRun.Proofs.Run.Budget
import BudgetedRun.Proofs.Run.Consistency
import BudgetedRun.Proofs.Run.Transition

/-!
# Running states of a run

What holds of every state that a run arrives at: it is a running state of the job, and its numbers
are within the plan and the budgets. Each is shown of the first state and kept by an iteration.
-/

namespace BudgetedRun

/-- A state of a job that goes on. -/
structure Underway (job : Job) (s : RunState) : Prop where
  runId : s.runId = job.runId
  planId : s.planId = job.plan.id
  running : s.status = .running
  stopReason : s.stopReason = none
  endTime : s.endTime = none

namespace Underway

variable {job : Job} {s : RunState} {now : Timestamp}

/-- A state of a run is framed if its ids are not empty. -/
theorem framed (underway : Underway job s) (named : job.runId ≠ "") (planned : job.plan.id ≠ "") :
    s.Framed :=
  .of_running underway.running (underway.runId ▸ named) (underway.planId ▸ planned)
    underway.stopReason underway.endTime

theorem finish_framed (underway : Underway job s) (named : job.runId ≠ "")
    (planned : job.plan.id ≠ "") (inOrder : s.startTime ≤ now) (how : Finish) :
    (Engine.finishState s how now).Framed := by
  have named : s.runId ≠ "" := underway.runId ▸ named
  have planned : s.planId ≠ "" := underway.planId ▸ planned
  cases how with
  | complete =>
      rw [Engine.finishState, RunState.complete_of_running underway.running]
      refine .of_terminal rfl named planned ?_ rfl inOrder
      simp [underway.stopReason]
  | stop decision =>
      rw [Engine.finishState, RunState.stop_of_running underway.running]
      exact .of_terminal rfl named planned (iff_of_true rfl rfl) rfl inOrder

theorem fail_framed (underway : Underway job s) (named : job.runId ≠ "")
    (planned : job.plan.id ≠ "") (inOrder : s.startTime ≤ now) (message : String) :
    (s.fail message now).Framed := by
  have named : s.runId ≠ "" := underway.runId ▸ named
  have planned : s.planId ≠ "" := underway.planId ▸ planned
  rw [RunState.fail_of_running underway.running]
  refine .of_terminal rfl named planned ?_ rfl inOrder
  simp [underway.stopReason]

end Underway

namespace History

variable {clock : Timestamp → Timestamp → Prop} {budgets : Budgets} {job : Job}
  {s s' last : RunState} {o : StepOutcome} {how : Finish} {events : List Event}

/-- Work on a step leaves a run going, with one more iteration, within the limit. -/
theorem Iterates.underway (iterates : Iterates clock budgets job s o s' events)
    (before : Underway job s) :
    Underway job s' ∧ s'.iterationCount.toNat = s.iterationCount.toNat + 1 ∧
      s'.iterationCount ≤ budgets.maxIterations := by
  cases iterates with
  | @intro step boundary answer _ now noted due allowed judges reading entry =>
      obtain ⟨runId, planId, status, stopReason, -, endTime, count⟩ :=
        RunState.advance_frame before.running step.id o now
      have below := (Budgets.checkStop_eq_none_iff.mp allowed).1
      have counted := RunState.toNat_nextIteration below
      rw [← count] at counted
      refine ⟨⟨runId.trans before.runId, planId.trans before.planId, status,
        stopReason.trans before.stopReason, endTime.trans before.endTime⟩, counted, ?_⟩
      rw [UInt32.le_iff_toNat_le, counted]
      exact UInt32.lt_iff_toNat_lt.mp below

/-- An iteration leaves the start of the run as it is. -/
theorem Iterates.startTime_eq (iterates : Iterates clock budgets job s o s' events) :
    s'.startTime = s.startTime := by
  cases iterates with
  | intro => exact RunState.advance_startTime ..

theorem Leaves.startTime_eq (leaves : Leaves clock budgets job s last how events) :
    last.startTime = s.startTime := by
  cases leaves with
  | complete => rfl
  | stop => rfl
  | reject iterates _ => exact iterates.startTime_eq

/-- The last running state of a run differs from the state that it leaves in its iterations and its
incidents at most. -/
theorem Leaves.underway (leaves : Leaves clock budgets job s last how events)
    (before : Underway job s) (within : s.iterationCount ≤ budgets.maxIterations) :
    Underway job last ∧ last.iterationCount ≤ budgets.maxIterations ∧
      last.currentStepIndex = s.currentStepIndex ∧ last.tokenUsage = s.tokenUsage := by
  cases leaves with
  | complete => exact ⟨before, within, rfl, rfl⟩
  | stop => exact ⟨before, within, rfl, rfl⟩
  | reject iterates beyond =>
      obtain ⟨underway, -, within⟩ := iterates.underway before
      refine ⟨underway, within, ?_⟩
      cases iterates with
      | intro due allowed judges reading entry =>
          cases judges with
          | succeeded covered => exact beyond.elim
          | failed => exact beyond.elim
          | overBudget excess =>
              rw [RunState.advance_overBudget before.running]
              exact ⟨rfl, rfl⟩

/-- A run arrives at states of its own job only. -/
theorem Arrives.underway (arrives : Arrives clock budgets job s events) : Underway job s := by
  induction arrives with
  | start => exact ⟨rfl, rfl, rfl, rfl, rfl⟩
  | next _ _ iterates _ ih => exact (iterates.underway ih).1

/-- A run arrives at no state beyond the iterations of its budget. -/
theorem Arrives.iterationCount_le (arrives : Arrives clock budgets job s events) :
    s.iterationCount ≤ budgets.maxIterations := by
  cases arrives with
  | start => exact UInt32.zero_le
  | next arrives _ iterates _ => exact (iterates.underway arrives.underway).2.2

theorem Closes.underway (closes : Closes clock budgets job (.finish last how) events) :
    Underway job last ∧ last.iterationCount ≤ budgets.maxIterations := by
  cases closes with
  | finish arrives consistent leaves =>
      obtain ⟨underway, within, -⟩ := leaves.underway arrives.underway arrives.iterationCount_le
      exact ⟨underway, within⟩

end History

end BudgetedRun
