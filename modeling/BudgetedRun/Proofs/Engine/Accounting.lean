import BudgetedRun.Proofs.Engine.Effects
import BudgetedRun.Proofs.Engine.Endings
import BudgetedRun.Proofs.Engine.Simulation

/-!
# Exact accounts

Under a token limit below the greatest count nothing is ever cut off, so the state that a run gives
back shows in plain sums what its calls came to, whatever the store, the clocks and those who want
it to end have done.
-/

namespace BudgetedRun

namespace Engine

open History

variable {σ : Type} {env : Environment (StateM σ)} {budgets : Budgets} {job : Job}

/-- A run of a plan that can be run, under a token limit below the greatest count, gives back a
state in which its calls are accounted for exactly, and its events are all that it does. All of its
responses are within the limit together with those before, but for the one that is rejected, if
there is one, which is beyond it and comes last. The step that is due is as far along as there are
accepted responses, and the tokens are their sums. The incidents are those of the failed calls in
order, that of the rejected response, and at most one for the end of the run. -/
theorem execute_accounts_exact (valid : job.plan.validate = .ok ())
    (bounded : budgets.maxTokens.toNat < greatestCount) (w : σ) :
    let report := report env budgets job w
    Effects env (env.steady.run w).1 (env.steady.run w).2 report.events
      ((execute env budgets job).run w).2 ∧
    ∃ s answered rejected closing,
      report.returned = some s ∧ report.calls = answered ++ rejectedCall rejected ∧
      Covered budgets.maxTokens.toNat answered ∧
      (∀ request r, rejected = some (request, r) →
        budgets.maxTokens.toNat < tokensSpent answered + r.cost) ∧
      s.currentStepIndex.toNat = (responses answered).length ∧
      s.tokenUsage.input.toNat = tokensRead answered ∧
      s.tokenUsage.output.toNat = tokensWritten answered ∧
      s.tokenUsage.total.toNat = tokensSpent answered ∧
      tokensSpent answered ≤ budgets.maxTokens.toNat ∧
      s.errors.map Incident.note = answered.filterMap Call.failure? ++
        (rejected.map fun (request, r) => r.rejection request).toList ++ closing ∧
      Closing budgets report.result closing := by
  obtain ⟨s, answered, rejected, closing, returned, billed, accounts, closes⟩ :=
    (report_runs env budgets job w).accounts valid
  have covered := billed.covered bounded
  have spent := covered.tokensSpent_le
  have sum := tokensSpent_eq answered
  obtain ⟨input, output, total⟩ := accounts.usage.toNat_eq (by omega)
  refine ⟨execute_effects env budgets valid w, s, answered, rejected, closing, returned,
    billed.calls_eq, covered, ?_, accounts.index, input, output, total.trans sum.symm, spent,
    accounts.incidents, closes⟩
  intro request r last
  have beyond := billed.beyond request r last
  omega

/-- In a rehearsal one response is accepted, one call fails and one response is rejected. -/
theorem rehearsal_accounts :
    let report := report World.environment .rehearsal .rehearsal
      (.rehearsal [.ok (3, 4), .error "no answer", .ok (90, 4)] .none)
    ∃ s answered rejected, report.returned = some s ∧
      report.calls = answered ++ rejectedCall rejected ∧
      s.currentStepIndex.toNat = (responses answered).length ∧
      s.tokenUsage.total.toNat = tokensSpent answered := by
  intro report
  have bounded : Budgets.rehearsal.maxTokens.toNat < greatestCount := by decide
  obtain ⟨-, s, answered, rejected, closing, returned, calls, -, -, index, -, -, total, -⟩ :=
    execute_accounts_exact Job.rehearsal_valid bounded _
  exact ⟨s, answered, rejected, returned, calls, index, total⟩

example :
    (report World.environment .rehearsal .rehearsal
      (.rehearsal [.ok (3, 4), .error "no answer", .ok (90, 4)] .none)).returned.map
        (fun s => (s.currentStepIndex, s.tokenUsage.total, s.errors.map Incident.note)) =
      some (1, 7,
        [⟨some "step-2", "no answer", true⟩,
          ⟨some "step-2", "step usage rejected: 94 tokens (90 input, 4 output) " ++
            "would exceed the token budget", false⟩]) := by
  decide +kernel

end Engine

end BudgetedRun
