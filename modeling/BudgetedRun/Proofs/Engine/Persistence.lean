import BudgetedRun.Proofs.Engine.Simulation
import BudgetedRun.Proofs.Engine.Writes

/-!
# Consistency of what is written

The states that a run checks before it writes them are consistent. The failed state is written
without a check, and it is the reason why this says nothing of all that is written: under the
greatest token limit there is, the counts of a run can stop at the greatest count, so that their
total is not the sum of the others any more. `Engine.inconsistent_write_iff` says exactly when.
-/

namespace BudgetedRun

namespace History

variable {clock : Timestamp → Timestamp → Prop} {budgets : Budgets} {job : Job} {s : RunState}
  {report : Report}

/-- A state that is written is consistent, or it is the failed state that the run gives back. -/
theorem Runs.consistent_or_returned (runs : Runs clock budgets job report)
    (valid : job.plan.validate = .ok ()) {result : Except StoreError Unit}
    (member : (s, result) ∈ report.writes) :
    s.violations = [] ∨ report.returned = some s ∧ s.status = .failed := by
  have written := runs.written valid
  unfold Report.returned
  generalize report.result = outcome at written ⊢
  generalize report.writes = writes at written member
  have own {states : List RunState} (own : ∀ s ∈ states, Own budgets job s) (member : s ∈ states) :
      s.violations = [] :=
    (RunState.of_progressViolations_eq_nil (own s member).consistent).1
  cases written with
  | finished all last =>
      refine .inl (own ?_ (mem_saved.mp member).1)
      rw [List.forall_mem_append, List.forall_mem_singleton]
      exact ⟨all, last⟩
  | unsaved all last fault failed =>
      rw [List.mem_append, List.mem_cons, List.mem_singleton] at member
      rcases member with member | same | same
      · exact .inl (own all (mem_saved.mp member).1)
      · cases same
        exact .inl (RunState.of_progressViolations_eq_nil last.consistent).1
      · cases same
        exact .inr ⟨rfl, failed⟩
  | inconsistent all fault failed =>
      rw [List.mem_append, List.mem_singleton] at member
      rcases member with member | same
      · exact .inl (own all (mem_saved.mp member).1)
      · cases same
        exact .inr ⟨rfl, failed⟩

theorem Runs.returned_written (runs : Runs clock budgets job report)
    (valid : job.plan.validate = .ok ()) (returned : report.returned = some s) :
    ∃ result, (s, result) ∈ report.writes := by
  have written := runs.written valid
  unfold Report.returned at returned
  generalize report.result = outcome at written returned
  generalize report.writes = writes at written ⊢
  cases written with
  | finished all last =>
      cases returned
      exact ⟨.ok (), mem_saved.mpr ⟨List.mem_append_right _ List.mem_cons_self, rfl⟩⟩
  | unsaved all last fault failed =>
      cases returned
      exact ⟨_, List.mem_append_right _ (List.mem_cons_of_mem _ List.mem_cons_self)⟩
  | inconsistent all fault failed =>
      cases returned
      exact ⟨_, List.mem_append_right _ List.mem_cons_self⟩

/-- The tokens within the budget can be recorded unless the limit is the greatest there is; then
nothing is rejected. -/
theorem Billed.recordable_iff {calls answered : List Call} {rejected : Option (Request × Response)}
    (billed : Billed budgets calls answered rejected) :
    Recordable answered ↔ ¬(budgets.maxTokens.toNat = greatestCount ∧ ¬Recordable calls) := by
  have limit := toNat_le_greatestCount budgets.maxTokens
  by_cases bounded : budgets.maxTokens.toNat < greatestCount
  · have recordable := (billed.covered bounded).recordable
    exact iff_of_true recordable fun ⟨greatest, _⟩ => by omega
  · have greatest := Nat.le_antisymm limit (Nat.not_lt.mp bounded)
    have unrejected : rejected = none := by
      rcases rejected with _ | ⟨request, r⟩
      · rfl
      · have beyond := billed.beyond request r rfl
        omega
    rw [billed.calls_eq, unrejected]
    simp [rejectedCall, greatest]

end History

namespace Engine

open History

variable {σ : Type} {env : Environment (StateM σ)} {w : σ} {budgets : Budgets} {job : Job}

/-- Where the time of day does not go back, whatever a run writes is consistent, but for the total
of a failed state. A run writes such a state exactly if its token limit is the greatest count and
the tokens that were read and written in its calls, each cut off at the greatest count, are more
than that together. -/
theorem inconsistent_write_iff (forward : env.Forward w) (valid : job.plan.validate = .ok ())
    (named : job.runId ≠ "") :
    let report := report env budgets job w
    (∀ s result, (s, result) ∈ report.writes →
      s.violations = [] ∨ s.status = .failed ∧ s.violations = [.totalMismatch s.tokenUsage]) ∧
    ((∃ s result, (s, result) ∈ report.writes ∧ s.violations ≠ []) ↔
      budgets.maxTokens.toNat = greatestCount ∧
        greatestCount < min (tokensRead report.calls) greatestCount +
          min (tokensWritten report.calls) greatestCount) := by
  have runs := report_runs_forward env budgets job forward
  obtain ⟨state, answered, rejected, closing, returned, billed, accounts, -⟩ := runs.accounts valid
  have planned := Plan.id_ne_empty valid
  have consistent := accounts.violations_eq_nil_iff (runs.returned_framed named planned returned)
  rw [billed.recordable_iff, Recordable, Nat.not_le] at consistent
  constructor
  · intro s result member
    rcases runs.consistent_or_returned valid member with none | ⟨same, failed⟩
    · exact .inl none
    · have framed := runs.returned_framed named planned same
      exact framed.violations_cases.imp_right fun one => ⟨failed, one⟩
  · constructor
    · rintro ⟨s, result, member, inconsistent⟩
      rcases runs.consistent_or_returned valid member with none | ⟨same, failed⟩
      · exact absurd none inconsistent
      · rw [returned] at same
        cases same
        exact not_not.mp (mt consistent.mpr inconsistent)
    · intro beyond
      obtain ⟨result, member⟩ := runs.returned_written valid returned
      exact ⟨state, result, member, fun none => consistent.mp none beyond⟩

/-- Under the greatest limit, one response whose counts are too great together makes a run write a
state that is not consistent. -/
theorem rehearsal_writes_inconsistent :
    let report := report World.environment .lavish .rehearsal
      (.rehearsal [.ok (18446744073709551615, 1)] .none)
    ∃ s result, (s, result) ∈ report.writes ∧ s.violations ≠ [] :=
  (inconsistent_write_iff (World.rehearsal_forward _ _) Job.rehearsal_valid (by decide)).2.mpr
    ⟨by decide, by decide +kernel⟩

end Engine

end BudgetedRun
