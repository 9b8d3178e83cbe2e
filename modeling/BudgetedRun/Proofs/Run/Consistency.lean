import BudgetedRun.Run.Consistency
import BudgetedRun.Proofs.Run.Budget

/-!
# Consistent states

A state is framed if nothing is wrong with it apart from, perhaps, its tokens: it has ids, its stop
reason fits its status and so does its end time. A framed state has at most one violation, and
whether it has that one depends on what its usage stands for.
-/

namespace BudgetedRun

namespace RunState

/-- A violation is not flagged exactly if its condition fails. -/
theorem flag_eq_nil_iff {condition : Prop} [Decidable condition] {v : Violation} :
    flag condition v = [] ↔ ¬condition := by
  by_cases holds : condition <;> simp [flag, holds]

/-- All but the tokens of a state is consistent. -/
structure Framed (s : RunState) : Prop where
  runId : s.runId ≠ ""
  planId : s.planId ≠ ""
  stopReason : s.stopReasonViolations = []
  endTime : s.endTimeViolations = []

variable {s : RunState}

/-- A running state with its ids, without a reason to stop and without an end is framed. -/
theorem Framed.of_running (running : s.status = .running) (named : s.runId ≠ "")
    (planned : s.planId ≠ "") (unstopped : s.stopReason = none) (unended : s.endTime = none) :
    s.Framed where
  runId := named
  planId := planned
  stopReason := by rw [stopReasonViolations, running, unstopped]
  endTime := by rw [endTimeViolations, isTerminal, running, unended]; rfl

/-- A state that is over is framed if it has ids, a stop reason only if stopped, and an end that is
not before its start. -/
theorem Framed.of_terminal {ended : Timestamp} (terminal : s.isTerminal = true)
    (named : s.runId ≠ "") (planned : s.planId ≠ "")
    (reasoned : s.status = .stopped ↔ s.stopReason.isSome = true) (end_eq : s.endTime = some ended)
    (inOrder : s.startTime ≤ ended) : s.Framed where
  runId := named
  planId := planned
  stopReason := by
    rw [stopReasonViolations]
    cases status : s.status <;> cases reason : s.stopReason <;>
      simp [status, reason] at reasoned ⊢
  endTime := by
    rw [endTimeViolations, terminal, end_eq]
    exact flag_eq_nil_iff.mpr (Timestamp.not_lt.mpr inOrder)

/-- The only violation that a framed state can have is that its total is not the sum. -/
theorem Framed.violations_eq (framed : s.Framed) :
    s.violations =
      flag (s.tokenUsage.input.toNat + s.tokenUsage.output.toNat ≠ s.tokenUsage.total.toNat)
        (.totalMismatch s.tokenUsage) := by
  rw [violations, flag_eq_nil_iff.mpr framed.runId, flag_eq_nil_iff.mpr framed.planId,
    framed.stopReason, framed.endTime]
  simp only [List.nil_append, List.append_nil]

/-- A framed state is consistent, or its total is not the sum. -/
theorem Framed.violations_cases (framed : s.Framed) :
    s.violations = [] ∨ s.violations = [.totalMismatch s.tokenUsage] := by
  rw [framed.violations_eq, flag]
  split
  · exact .inr rfl
  · exact .inl rfl

/-- A framed state is consistent exactly when the parts of its usage, each cut off at the greatest
count, stay within it together. -/
theorem Framed.violations_eq_nil_iff {read written : Nat} (framed : s.Framed)
    (counts : s.tokenUsage.Counts read written) :
    s.violations = [] ↔ min read greatestCount + min written greatestCount ≤ greatestCount := by
  rw [framed.violations_eq, flag_eq_nil_iff, counts.mismatch_iff, Nat.not_lt]

/-- A consistent state stays within the plan and the budgets if its numbers do. -/
theorem progressViolations_eq_nil {stepCount : Nat} {budgets : Budgets}
    (consistent : s.violations = []) (index : s.currentStepIndex.toNat ≤ stepCount)
    (iterations : s.iterationCount ≤ budgets.maxIterations)
    (tokens : s.stopReason = some .budgetExhausted → s.tokenUsage.total ≤ budgets.maxTokens)
    (done : s.status = .completed → s.currentStepIndex.toNat = stepCount) :
    s.progressViolations stepCount budgets = [] := by
  simp only [progressViolations, consistent, List.nil_append, List.append_eq_nil_iff,
    flag_eq_nil_iff]
  refine ⟨⟨⟨Nat.not_lt.mpr index, UInt32.not_lt.mpr iterations⟩, ?_⟩, ?_⟩
  · rintro ⟨reason, beyond⟩
    exact UInt64.not_lt.mpr (tokens reason) beyond
  · rintro ⟨status, elsewhere⟩
    exact elsewhere (done status)

/-- A state that is consistent under a plan and budgets is consistent by itself, and its numbers
stay within the plan and the budgets. -/
theorem of_progressViolations_eq_nil {stepCount : Nat} {budgets : Budgets}
    (consistent : s.progressViolations stepCount budgets = []) :
    s.violations = [] ∧ s.currentStepIndex.toNat ≤ stepCount ∧
      s.iterationCount ≤ budgets.maxIterations := by
  simp only [progressViolations, List.append_eq_nil_iff, flag_eq_nil_iff] at consistent
  obtain ⟨⟨⟨⟨byItself, index⟩, iterations⟩, -⟩, -⟩ := consistent
  exact ⟨byItself, Nat.not_lt.mp index, UInt32.not_lt.mp iterations⟩

end RunState

end BudgetedRun
