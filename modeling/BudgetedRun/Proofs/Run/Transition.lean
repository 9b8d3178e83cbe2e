import BudgetedRun.Run.Transition

/-!
# What happens to a running state

Each step of a run's life, said of a state that is not over: what an iteration does for each
outcome, and what each of the three ends does. An iteration leaves alone whose run it is, when it
began and that it goes on.
-/

namespace BudgetedRun

namespace RunState

variable {s : RunState} {stepId : String} {now : Timestamp}

theorem not_isTerminal (running : s.status = .running) : ¬s.isTerminal = true := by
  rw [isTerminal, running]
  exact Bool.false_ne_true

/-- A step that succeeds moves a running state to the next step and adds its tokens. -/
theorem advance_succeeded (running : s.status = .running) (input output : UInt64) :
    s.advance stepId (.succeeded input output) now =
      { s with
        iterationCount := nextIteration s.iterationCount
        tokenUsage := s.tokenUsage.add input output
        currentStepIndex := s.currentStepIndex + 1 } := by
  rw [advance, if_neg (not_isTerminal running)]
  rfl

/-- A step that fails is noted as an incident that can be recovered from. -/
theorem advance_failed (running : s.status = .running) (message : String) :
    s.advance stepId (.failed message) now =
      { s with
        iterationCount := nextIteration s.iterationCount
        errors := s.errors ++ [⟨some stepId, message, now, true⟩] } := by
  rw [advance, if_neg (not_isTerminal running)]
  rfl

/-- A response that costs too much adds its tokens and is noted as one that cannot be recovered
from. -/
theorem advance_overBudget (running : s.status = .running) (input output : UInt64) :
    s.advance stepId (.overBudget input output) now =
      { s with
        iterationCount := nextIteration s.iterationCount
        errors := s.errors ++
          [⟨some stepId, StepOutcome.rejection input output, now, false⟩] } := by
  rw [advance, if_neg (not_isTerminal running)]
  rfl

/-- What every iteration leaves alone. -/
theorem advance_frame (running : s.status = .running) (stepId : String) (o : StepOutcome)
    (now : Timestamp) :
    let s' := s.advance stepId o now
    s'.runId = s.runId ∧ s'.planId = s.planId ∧ s'.status = .running ∧
      s'.stopReason = s.stopReason ∧ s'.startTime = s.startTime ∧ s'.endTime = s.endTime ∧
      s'.iterationCount = nextIteration s.iterationCount := by
  cases o with
  | succeeded input output =>
      rw [advance_succeeded running]
      exact ⟨rfl, rfl, running, rfl, rfl, rfl, rfl⟩
  | failed message =>
      rw [advance_failed running]
      exact ⟨rfl, rfl, running, rfl, rfl, rfl, rfl⟩
  | overBudget input output =>
      rw [advance_overBudget running]
      exact ⟨rfl, rfl, running, rfl, rfl, rfl, rfl⟩

/-- A step leaves the start of the run as it is. -/
theorem advance_startTime (stepId : String) (o : StepOutcome) (now : Timestamp) :
    (s.advance stepId o now).startTime = s.startTime := by
  rw [advance]
  split
  · rfl
  · cases o <;> rfl

/-- Below a limit, the count of iterations goes up by one. -/
theorem toNat_nextIteration {count limit : UInt32} (below : count < limit) :
    (nextIteration count).toNat = count.toNat + 1 := by
  have bound := limit.toNat_lt
  rw [UInt32.lt_iff_toNat_lt] at below
  have notGreatest : count ≠ 0xFFFFFFFF := by
    rintro rfl
    have greatest : (0xFFFFFFFF : UInt32).toNat = 4294967295 := rfl
    omega
  have one : (1 : UInt32).toNat = 1 := rfl
  rw [nextIteration, if_neg notGreatest, UInt32.toNat_add, one]
  omega

/-- The count of iterations never goes down. -/
theorem le_nextIteration (count : UInt32) : count ≤ nextIteration count := by
  by_cases greatest : count = 0xFFFFFFFF
  · rw [nextIteration, if_pos greatest]
    exact UInt32.le_refl count
  · have bound := count.toNat_lt
    have different : count.toNat ≠ 4294967295 := fun same => greatest (UInt32.toNat_inj.mp same)
    have below : count < 0xFFFFFFFF := by
      rw [UInt32.lt_iff_toNat_lt]
      change count.toNat < 4294967295
      omega
    rw [UInt32.le_iff_toNat_le, toNat_nextIteration below]
    exact Nat.le_succ _

/-- A running state is finished at the given time. -/
theorem finish_of_running (running : s.status = .running) (status : RunStatus) :
    s.finish status now = { s with status := status, endTime := some now } := by
  rw [finish, if_neg (not_isTerminal running)]

theorem complete_of_running (running : s.status = .running) :
    s.complete now = { s with status := .completed, endTime := some now } :=
  finish_of_running running _

theorem stop_of_running (running : s.status = .running) (decision : StopDecision) :
    s.stop decision now =
      { s with
        status := .stopped
        stopReason := some decision.reason
        errors := s.errors ++
          (decision.detail.map fun detail => Incident.mk none detail now false).toList
        endTime := some now } := by
  rw [stop, if_neg (not_isTerminal running)]
  obtain ⟨reason, _ | detail⟩ := decision
  · have given : { s with stopReason := some reason }.status = .running := running
    rw [Option.map_none, Option.toList_none, List.append_nil]
    exact finish_of_running given _
  · have given : { s.record ⟨none, detail, now, false⟩ with
        stopReason := some reason }.status = .running := running
    exact finish_of_running given _

theorem fail_of_running (running : s.status = .running) (message : String) :
    s.fail message now =
      { s with
        status := .failed
        errors := s.errors ++ [⟨none, message, now, false⟩]
        endTime := some now } := by
  have recorded : (s.record ⟨none, message, now, false⟩).status = .running := running
  rw [fail, if_neg (not_isTerminal running)]
  exact finish_of_running recorded _

end RunState

end BudgetedRun
