import BudgetedRun.Proofs.Engine.Accounts

/-!
# States and results up to time

Two runs never happen at the same time, so what they give back is compared without its times: two
states are alike if they differ at most in when something happened. Whatever ends a run keeps states
alike, and so does the question whether they are consistent.
-/

namespace BudgetedRun

namespace RunState

/-- Two states differ at most in when things happened. -/
structure Alike (s t : RunState) : Prop where
  runId : s.runId = t.runId
  planId : s.planId = t.planId
  status : s.status = t.status
  stopReason : s.stopReason = t.stopReason
  index : s.currentStepIndex = t.currentStepIndex
  iterations : s.iterationCount = t.iterationCount
  usage : s.tokenUsage = t.tokenUsage
  notes : s.errors.map Incident.note = t.errors.map Incident.note
  ended : s.endTime.isSome = t.endTime.isSome

namespace Alike

variable {s t : RunState} {now later : Timestamp}

theorem complete (alike : s.Alike t) (running : s.status = .running) :
    (s.complete now).Alike (t.complete later) := by
  rw [complete_of_running running, complete_of_running (alike.status ▸ running)]
  exact { alike with status := rfl, ended := rfl }

theorem stop (alike : s.Alike t) (running : s.status = .running) (decision : StopDecision) :
    (s.stop decision now).Alike (t.stop decision later) := by
  rw [stop_of_running running, stop_of_running (alike.status ▸ running)]
  refine { alike with status := rfl, stopReason := rfl, notes := ?_, ended := rfl }
  rw [List.map_append, List.map_append, alike.notes]
  obtain ⟨reason, _ | detail⟩ := decision <;> rfl

theorem fail (alike : s.Alike t) (running : s.status = .running) (message : String) :
    (s.fail message now).Alike (t.fail message later) := by
  rw [fail_of_running running, fail_of_running (alike.status ▸ running)]
  refine { alike with status := rfl, notes := ?_, ended := rfl }
  rw [List.map_append, List.map_append, alike.notes]
  rfl

/-- States that differ in times only still do so when they are finished. -/
theorem finishState (alike : s.Alike t) (running : s.status = .running) (how : Finish) :
    (Engine.finishState s how now).Alike (Engine.finishState t how later) := by
  cases how with
  | complete => exact alike.complete running
  | stop decision => exact alike.stop running decision

/-- Of states that have not ended, those that are alike have the same violations. -/
theorem progressViolations_eq (alike : s.Alike t) (unended : s.endTime = none) (stepCount : Nat)
    (budgets : Budgets) :
    s.progressViolations stepCount budgets = t.progressViolations stepCount budgets := by
  have unended' : t.endTime = none := by
    rw [← Option.not_isSome_iff_eq_none, ← alike.ended, unended]
    exact Bool.false_ne_true
  have reasons : s.stopReasonViolations = t.stopReasonViolations := by
    rw [stopReasonViolations, stopReasonViolations, alike.status, alike.stopReason]
  have ends : s.endTimeViolations = t.endTimeViolations := by
    rw [endTimeViolations, endTimeViolations, isTerminal, isTerminal, alike.status, unended,
      unended']
    cases t.status.isTerminal <;> rfl
  simp only [progressViolations, violations, reasons, ends, alike.runId, alike.planId, alike.usage,
    alike.index, alike.iterations, alike.stopReason, alike.status]

end Alike

end RunState

/-- Two runs came to the same, but for the times in their states. -/
inductive SameResult : Except RunError RunState → Except RunError RunState → Prop where
  | finished {s t : RunState} (alike : s.Alike t) : SameResult (.ok s) (.ok t)
  | failed {f g : RunFailure} (runId : f.runId = g.runId) (fault : f.fault = g.fault)
      (alike : f.state.Alike g.state) : SameResult (.error (.failed f)) (.error (.failed g))
  | refused (e : PlanError) : SameResult (.error (.invalidPlan e)) (.error (.invalidPlan e))

end BudgetedRun
