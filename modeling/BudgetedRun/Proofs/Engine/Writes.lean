import BudgetedRun.Proofs.Engine.Endings

/-!
# What a run writes

The writes of a run are states of its own, each of which is checked before it is written and all but
the last of which are saved, and, if the run fails, the failed state, which is written once and is
not checked. `History.Written` says how the writes and the result of a run go together.
-/

namespace BudgetedRun

namespace History

open RunState

/-- The writes of some states, all of which were saved. -/
def saved (states : List RunState) : List (RunState × Except StoreError Unit) :=
  states.map fun s => (s, .ok ())

theorem mem_saved {states : List RunState} {s : RunState} {result : Except StoreError Unit} :
    (s, result) ∈ saved states ↔ s ∈ states ∧ result = .ok () := by
  rw [saved, List.mem_map]
  constructor
  · rintro ⟨s, member, same⟩
    cases same
    exact ⟨member, rfl⟩
  · rintro ⟨member, rfl⟩
    exact ⟨s, member, rfl⟩

theorem saved_append (states : List RunState) (s : RunState) :
    saved (states ++ [s]) = saved states ++ [(s, .ok ())] :=
  List.map_append

/-- A state that a run writes in its course: it is checked before, and it is not a failed one. -/
structure Own (budgets : Budgets) (job : Job) (s : RunState) : Prop where
  unfailed : s.status ≠ .failed
  consistent : s.progressViolations job.plan.steps.length budgets = []

/-- The results and the writes of a run that go together. -/
inductive Written (budgets : Budgets) (job : Job) :
    Except RunError RunState → List (RunState × Except StoreError Unit) → Prop where
  | finished {states : List RunState} {s : RunState} (own : ∀ s ∈ states, Own budgets job s)
      (last : Own budgets job s) : Written budgets job (.ok s) (saved (states ++ [s]))
  | unsaved {states : List RunState} {s : RunState} {e : StoreError} {f : RunFailure}
      {result : Except StoreError Unit} (own : ∀ s ∈ states, Own budgets job s)
      (last : Own budgets job s) (fault : f.fault = .unsaved e)
      (failed : f.state.status = .failed) :
      Written budgets job (.error (.failed f))
        (saved states ++ [(s, .error e), (f.state, result)])
  | inconsistent {states : List RunState} {f : RunFailure} {violations : List Violation}
      {result : Except StoreError Unit} (own : ∀ s ∈ states, Own budgets job s)
      (fault : f.fault = .inconsistent violations) (failed : f.state.status = .failed) :
      Written budgets job (.error (.failed f)) (saved states ++ [(f.state, result)])

variable {clock : Timestamp → Timestamp → Prop} {budgets : Budgets} {job : Job}
  {s last running : RunState} {o : StepOutcome} {how : Finish} {failure : RunFailure}
  {events worked left : List Event} {now : Timestamp} {report : Report}

theorem unfailed_of_closing {notes : List Note} (closing : Closing budgets (.ok s) notes) :
    s.status ≠ .failed := by
  rcases closing.completed_or_stopped with status | status <;> rw [status] <;> exact nofun

theorem Iterates.writes_eq (iterates : Iterates clock budgets job s o last worked) :
    worked.filterMap Event.write? = [] := by
  cases iterates with
  | intro due allowed judges reading entry =>
      obtain ⟨e, rfl⟩ := entry.exists_logged
      rfl

/-- The failed state is written once. -/
theorem Fails.writes_eq {fault : Fault} (fails : Fails clock job s fault failure events) :
    ∃ result, events.filterMap Event.write? = [(failure.state, result)] := by
  cases fails with
  | recorded reading entry =>
      obtain ⟨e, rfl⟩ := entry.exists_logged
      exact ⟨_, rfl⟩
  | unrecorded reading entry again =>
      obtain ⟨e, rfl⟩ := entry.exists_logged
      obtain ⟨e', rfl⟩ := again.exists_logged
      exact ⟨_, rfl⟩

/-- A run that leaves for its end writes nothing before it does. -/
theorem Leaves.writes_eq (leaves : Leaves clock budgets job s last how left) :
    left.filterMap Event.write? = [] := by
  cases leaves with
  | complete => rfl
  | stop due decided entry =>
      obtain ⟨e, rfl⟩ := entry.exists_logged
      rfl
  | reject iterates beyond => exact iterates.writes_eq

/-- A consistent state that a run arrives at is one that it may write. -/
theorem Arrives.own (arrives : Arrives clock budgets job s events)
    (consistent : s.progressViolations job.plan.steps.length budgets = []) :
    Own budgets job s := by
  refine ⟨?_, consistent⟩
  rw [arrives.underway.running]
  exact nofun

/-- Where a run arrives, all of its writes were its own, and they were saved. -/
theorem Arrives.writes_eq (arrives : Arrives clock budgets job s events) :
    ∃ states, (∀ s ∈ states, Own budgets job s) ∧
      events.filterMap Event.write? = saved states := by
  induction arrives with
  | start entry =>
      obtain ⟨e, rfl⟩ := entry.exists_logged
      exact ⟨[], List.forall_mem_nil _, rfl⟩
  | @next s s' o before worked arrives consistent iterates within ih =>
      obtain ⟨states, own, writes⟩ := ih
      refine ⟨states ++ [s], ?_, ?_⟩
      · rw [List.forall_mem_append, List.forall_mem_singleton]
        exact ⟨own, arrives.own consistent⟩
      · rw [Event.writes_append_write, writes, iterates.writes_eq, List.append_nil, saved_append]

/-- Up to its last turn a run writes states that it may write, and all of them are saved. -/
theorem Closes.writes_eq (closes : Closes clock budgets job (.finish last how) events) :
    ∃ states, (∀ s ∈ states, Own budgets job s) ∧
      events.filterMap Event.write? = saved states := by
  cases closes with
  | @finish s last how before left arrives consistent leaves =>
      obtain ⟨states, own, writes⟩ := arrives.writes_eq
      refine ⟨states ++ [s], ?_, ?_⟩
      · rw [List.forall_mem_append, List.forall_mem_singleton]
        exact ⟨own, arrives.own consistent⟩
      · rw [Event.writes_append_write, writes, leaves.writes_eq, List.append_nil, saved_append]

/-- Where a run breaks, it writes the failed state, after a state of its own if that was not
saved. -/
theorem Breaks.written {states : List RunState}
    (breaks : Breaks clock budgets job s running failure left) (running : running.status = .running)
    (unfailed : s.status ≠ .failed) (own : ∀ s ∈ states, Own budgets job s)
    (writes : events.filterMap Event.write? = saved states) :
    Written budgets job (.error (.failed failure)) ((events ++ left).filterMap Event.write?) := by
  rw [List.filterMap_append, writes]
  cases breaks with
  | unsaved consistent fails =>
      obtain ⟨result, written⟩ := fails.writes_eq
      obtain ⟨now, -, state⟩ := fails.state_eq
      rw [List.filterMap_cons, Event.write?_wrote, written]
      refine .unsaved own ⟨unfailed, consistent⟩ fails.fault_eq ?_
      rw [state, fail_of_running running]
  | inconsistent broken fails =>
      obtain ⟨result, written⟩ := fails.writes_eq
      obtain ⟨now, -, state⟩ := fails.state_eq
      rw [written]
      refine .inconsistent own fails.fault_eq ?_
      rw [state, fail_of_running running]

/-- The writes of every run of a plan that can be run go together with its result. -/
theorem Runs.written (runs : Runs clock budgets job report) (valid : job.plan.validate = .ok ()) :
    Written budgets job report.result report.writes := by
  cases runs with
  | refused invalid => rw [invalid] at valid; cases valid
  | failed _ closes =>
      cases closes with
      | fail arrives breaks =>
          obtain ⟨states, own, writes⟩ := arrives.writes_eq
          have running := arrives.underway.running
          exact breaks.written running (running ▸ nofun) own writes
  | @unfinished last how now failure before events _ closes reading breaks =>
      obtain ⟨states, own, writes⟩ := closes.writes_eq
      obtain ⟨answered, rejected, -, -, running, closing⟩ := closes.accounts
      exact breaks.written running (unfailed_of_closing (closing now)) own writes
  | @finished last finished how now before noted _ closes reading finished_eq consistent entry =>
      subst finished_eq
      obtain ⟨states, own, writes⟩ := closes.writes_eq
      obtain ⟨answered, rejected, -, -, -, closing⟩ := closes.accounts
      obtain ⟨e, rfl⟩ := entry.exists_logged
      rw [Report.writes_eq, List.filterMap_append, writes]
      have all := Written.finished own ⟨unfailed_of_closing (closing now), consistent⟩
      rw [saved_append] at all
      exact all

end History

end BudgetedRun
