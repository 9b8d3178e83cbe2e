import BudgetedRun.Proofs.Engine.Effects
import BudgetedRun.Proofs.Engine.Simulation
import BudgetedRun.Proofs.Engine.Termination
import BudgetedRun.Proofs.Engine.Writes

/-!
# When runs fail

Under a token limit below the greatest count, every state that a run checks is consistent. So a run
ends, and it fails only because a write of its own fails; otherwise it gives back a consistent
state, complete or stopped. Nothing that a provider does can make it fail.
-/

namespace BudgetedRun

namespace History

variable {clock : Timestamp → Timestamp → Prop} {budgets : Budgets} {job : Job}
  {s running : RunState} {failure : RunFailure} {events : List Event} {report : Report}

theorem Breaks.fault_eq (breaks : Breaks clock budgets job s running failure events)
    (consistent : s.progressViolations job.plan.steps.length budgets = []) :
    ∃ e, failure.fault = .unsaved e := by
  cases breaks with
  | unsaved _ fails => exact ⟨_, fails.fault_eq⟩
  | inconsistent broken fails => exact absurd consistent broken

/-- Under a limit below the greatest count, a run fails only if a state cannot be saved. -/
theorem Runs.fault_eq (runs : Runs (fun start now => start ≤ now) budgets job report)
    (named : job.runId ≠ "") (bounded : budgets.maxTokens.toNat < greatestCount)
    (failed : report.result = .error (.failed failure)) : ∃ e, failure.fault = .unsaved e := by
  cases runs with
  | refused invalid => cases failed
  | finished => cases failed
  | failed valid closes =>
      cases failed
      cases closes with
      | fail arrives breaks =>
          refine breaks.fault_eq ((arrives.consistent_iff named (Plan.id_ne_empty valid)).mpr ?_)
          exact (arrives.covered bounded).recordable
  | unfinished valid closes reading breaks =>
      cases failed
      cases closes with
      | finish arrives consistent leaves =>
          refine breaks.fault_eq
            ((leaves.consistent_iff arrives named (Plan.id_ne_empty valid) reading).mpr ?_)
          exact (arrives.covered bounded).recordable

/-- Under a limit below the greatest count, either a run fails because a write of its own failed, or
all of its writes are saved and it finishes. -/
theorem Runs.failed_or_finished (runs : Runs (fun start now => start ≤ now) budgets job report)
    (valid : job.plan.validate = .ok ()) (named : job.runId ≠ "")
    (bounded : budgets.maxTokens.toNat < greatestCount) :
    (∃ f s e, report.result = .error (.failed f) ∧ f.fault = .unsaved e ∧
      (s, .error e) ∈ report.writes ∧ s.status ≠ .failed) ∨
    ∃ s, report.result = .ok s ∧ (s.status = .completed ∨ s.status = .stopped) ∧
      s.progressViolations job.plan.steps.length budgets = [] ∧
      ∀ s result, (s, result) ∈ report.writes → result = .ok () := by
  obtain ⟨returned, answered, rejected, closing, -, -, -, closes⟩ := runs.accounts valid
  have written := runs.written valid
  have faults (f : RunFailure) (failed : report.result = .error (.failed f)) :
      ∃ e, f.fault = .unsaved e :=
    runs.fault_eq named bounded failed
  generalize report.result = result at written closes faults ⊢
  generalize report.writes = writes at written ⊢
  cases written with
  | @unsaved states s e f result own last fault failed =>
      refine .inl ⟨f, s, e, rfl, fault, ?_, last.unfailed⟩
      exact List.mem_append_right _ List.mem_cons_self
  | inconsistent own fault failed =>
      obtain ⟨e, unsaved⟩ := faults _ rfl
      rw [unsaved] at fault
      cases fault
  | @finished states s own last =>
      refine .inr ⟨s, rfl, closes.completed_or_stopped, last.consistent, ?_⟩
      exact fun s result member => (mem_saved.mp member).2

end History

namespace Engine

open History

variable {σ : Type} {env : Environment (StateM σ)} {w : σ} {budgets : Budgets} {job : Job}

/-- A run of a plan that can be run, under a name and a token limit below the greatest count, comes
to an end: the turns it makes are those of a loop without a bound, and its events are all that it
does. Where the time of day does not go back, it fails exactly if a write of its own, of a state
that is not a failed one, fails, and that is its fault; otherwise it gives back a state that is
complete or stopped, and consistent under the plan and the budgets. -/
theorem execute_fails_iff_own_write_fails (forward : env.Forward w)
    (valid : job.plan.validate = .ok ()) (named : job.runId ≠ "")
    (bounded : budgets.maxTokens.toNat < greatestCount) :
    let report := report env budgets job w
    Effects env (env.steady.run w).1 (env.steady.run w).2 report.events
      ((execute env budgets job).run w).2 ∧
    (∀ started now w', Loops env budgets job started (.start job.runId job.plan.id now) w'
      ((turns env budgets job started (budgets.maxIterations.toNat + 1)
        (.start job.runId job.plan.id now)).run w')) ∧
    ((∃ f, report.result = .error (.failed f)) ↔
      ∃ s e, (s, .error e) ∈ report.writes ∧ s.status ≠ .failed) ∧
    (∀ f, report.result = .error (.failed f) →
      ∃ s e, f.fault = .unsaved e ∧ (s, .error e) ∈ report.writes ∧ s.status ≠ .failed) ∧
    ((∀ s e, (s, .error e) ∈ report.writes → s.status = .failed) →
      ∃ s, report.result = .ok s ∧ (s.status = .completed ∨ s.status = .stopped) ∧
        s.progressViolations job.plan.steps.length budgets = []) := by
  have ends (started : Duration) (now : Timestamp) (w' : σ) :
      Loops env budgets job started (.start job.runId job.plan.id now) w'
        ((turns env budgets job started (budgets.maxIterations.toNat + 1)
          (.start job.runId job.plan.id now)).run w') :=
    loops_turns ⟨rfl, rfl, rfl, rfl, rfl⟩ (by omega) UInt32.zero_le
  have runs := report_runs_forward env budgets job forward
  refine ⟨execute_effects env budgets valid w, ends, ?_⟩
  rcases runs.failed_or_finished valid named bounded with
    ⟨f, s, e, result, fault, written, unfailed⟩ | ⟨s, result, status, consistent, saved⟩
  · refine ⟨iff_of_true ⟨f, result⟩ ⟨s, e, written, unfailed⟩, ?_, ?_⟩
    · intro f' failed
      rw [result] at failed
      cases failed
      exact ⟨s, e, fault, written, unfailed⟩
    · exact fun onlyFailed => absurd (onlyFailed s e written) unfailed
  · refine ⟨iff_of_false ?_ ?_, ?_, fun _ => ⟨s, result, status, consistent⟩⟩
    · rintro ⟨f, failed⟩
      rw [result] at failed
      cases failed
    · rintro ⟨s', e, written, -⟩
      cases saved s' _ written
    · intro f failed
      rw [result] at failed
      cases failed

/-- A rehearsal in which a call fails and all writes are saved comes to a good end. -/
theorem rehearsal_finishes :
    let report := report World.environment .rehearsal .rehearsal
      (.rehearsal [.ok (3, 4), .error "no answer", .ok (5, 6)] .none)
    ∃ s, report.result = .ok s ∧ (s.status = .completed ∨ s.status = .stopped) ∧
      s.progressViolations Job.rehearsal.plan.steps.length .rehearsal = [] := by
  intro report
  have saved : ∀ write ∈ report.writes, write.2 = .ok () := by decide +kernel
  refine (execute_fails_iff_own_write_fails (World.rehearsal_forward _ _) Job.rehearsal_valid
    (by decide) (by decide)).2.2.2.2 fun s e member => ?_
  cases saved _ member

end Engine

end BudgetedRun
