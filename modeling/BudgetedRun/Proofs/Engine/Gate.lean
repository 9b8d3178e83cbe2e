import BudgetedRun.Proofs.Engine.Effects
import BudgetedRun.Proofs.Engine.Endings
import BudgetedRun.Proofs.Engine.Simulation

/-!
# The gate before every call

A provider is called only while the plan has a step that is due and the budgets allow another
iteration, and not any more once a state was not saved or a response was rejected. So the calls of a
run are as many as its iterations.
-/

namespace BudgetedRun

/-- What holds at a boundary from which a provider is called. -/
structure Allowed (budgets : Budgets) (job : Job) (s : RunState) (boundary : Boundary) : Prop where
  index : s.currentStepIndex.toNat < job.plan.steps.length
  iterations : s.iterationCount < budgets.maxIterations
  tokens : s.tokenUsage.total < budgets.maxTokens
  time : ∀ limit, budgets.timeLimit = some limit → boundary.elapsed ≤ limit
  uncancelled : boundary.cancelled = false

/-- After this, no provider is called any more: a state was not saved, or a response was
rejected. -/
def Event.Halts (budgets : Budgets) : Event → Prop
  | wrote _ (.error _) => True
  | called s _ _ (.ok r) =>
    budgets.wouldExceedTokens s (addCapped r.inputTokens r.outputTokens) = true
  | _ => False

namespace History

/-- Every call among some events is allowed, and none comes after one that halts the run. -/
structure Guarded (budgets : Budgets) (job : Job) (events : List Event) : Prop where
  allowed : ∀ s boundary request answer, .called s boundary request answer ∈ events →
    Allowed budgets job s boundary
  orderly : events.Pairwise fun earlier later => earlier.Halts budgets → later.call? = none

/-- Nothing among some events halts a run. -/
def Unhalted (budgets : Budgets) (events : List Event) : Prop := ∀ e ∈ events, ¬e.Halts budgets

variable {clock : Timestamp → Timestamp → Prop} {budgets : Budgets} {job : Job}
  {s last running : RunState} {o : StepOutcome} {how : Finish} {failure : RunFailure}
  {events more worked left : List Event} {ending : Ending} {report : Report}

theorem Guarded.append_uncalled (guarded : Guarded budgets job events)
    (uncalled : more.filterMap Event.call? = []) : Guarded budgets job (events ++ more) := by
  rw [List.filterMap_eq_nil_iff] at uncalled
  constructor
  · intro s boundary request answer member
    rcases List.mem_append.mp member with member | member
    · exact guarded.allowed s boundary request answer member
    · cases uncalled _ member
  · refine List.pairwise_append.mpr ⟨guarded.orderly, ?_, ?_⟩
    · exact List.pairwise_of_forall_mem_list fun _ _ later member _ => uncalled later member
    · exact fun _ _ later member _ => uncalled later member

/-- More events keep a run guarded if they are and nothing has halted it before. -/
theorem Guarded.append (guarded : Guarded budgets job events) (unhalted : Unhalted budgets events)
    (further : Guarded budgets job more) : Guarded budgets job (events ++ more) := by
  constructor
  · intro s boundary request answer member
    rcases List.mem_append.mp member with member | member
    · exact guarded.allowed s boundary request answer member
    · exact further.allowed s boundary request answer member
  · refine List.pairwise_append.mpr ⟨guarded.orderly, further.orderly, ?_⟩
    exact fun earlier member _ _ halts => absurd halts (unhalted earlier member)

theorem guarded_nil : Guarded budgets job [] :=
  ⟨fun _ _ _ _ member => absurd member List.not_mem_nil, .nil⟩

/-- Work on a step is guarded by the question that comes before, and halts the run only by a
response that is beyond the budget. -/
theorem Iterates.guarded (iterates : Iterates clock budgets job s o last worked) :
    Guarded budgets job worked ∧ (¬o.IsOverBudget → Unhalted budgets worked) := by
  cases iterates with
  | intro due allowed judges reading entry =>
      obtain ⟨e, rfl⟩ := entry.exists_logged
      obtain ⟨iterations, tokens, time, uncancelled⟩ := Budgets.checkStop_eq_none_iff.mp allowed
      obtain ⟨index, -⟩ := List.getElem?_eq_some_iff.mp due
      refine ⟨⟨?_, ?_⟩, ?_⟩
      · intro s boundary request answer member
        rw [List.mem_cons, List.mem_singleton] at member
        rcases member with same | same
        · cases same
          exact ⟨index, iterations, tokens, time, uncancelled⟩
        · cases same
      · rw [List.pairwise_pair]
        exact fun _ => rfl
      · intro within e' member
        rw [List.mem_cons, List.mem_singleton] at member
        rcases member with rfl | rfl
        · cases judges with
          | succeeded covered => exact Bool.eq_false_iff.mp covered
          | failed => exact not_false
          | overBudget beyond => exact absurd trivial within
        · exact not_false

theorem unhalted_append (unhalted : Unhalted budgets events) (further : Unhalted budgets more) :
    Unhalted budgets (events ++ more) := by
  intro e member
  rcases List.mem_append.mp member with member | member
  · exact unhalted e member
  · exact further e member

theorem unhalted_saved (s : RunState) : Unhalted budgets [.wrote s (.ok ())] := by
  intro e member
  rw [List.mem_singleton.mp member]
  exact not_false

/-- Where a run arrives, it was guarded and nothing has halted it. -/
theorem Arrives.guarded (arrives : Arrives clock budgets job s events) :
    Guarded budgets job events ∧ Unhalted budgets events := by
  induction arrives with
  | start entry =>
      obtain ⟨e, rfl⟩ := entry.exists_logged
      refine ⟨guarded_nil.append_uncalled rfl, fun e' member => ?_⟩
      rw [List.mem_singleton.mp member]
      exact not_false
  | @next s _ _ _ _ _ _ iterates within ih =>
      obtain ⟨guarded, unhalted⟩ := ih
      obtain ⟨further, continues⟩ := iterates.guarded
      have unhalted := unhalted_append unhalted (unhalted_saved s)
      exact ⟨(guarded.append_uncalled rfl).append unhalted further,
        unhalted_append unhalted (continues within)⟩

theorem Leaves.guarded (leaves : Leaves clock budgets job s last how left) :
    Guarded budgets job left := by
  cases leaves with
  | complete done => exact guarded_nil
  | stop due decided entry =>
      obtain ⟨e, rfl⟩ := entry.exists_logged
      exact guarded_nil.append_uncalled rfl
  | reject iterates beyond => exact iterates.guarded.1

theorem Closes.guarded (closes : Closes clock budgets job ending events) :
    Guarded budgets job events := by
  cases closes with
  | fail arrives breaks => exact arrives.guarded.1.append_uncalled breaks.uncalled
  | @finish s _ _ _ _ arrives consistent leaves =>
      obtain ⟨guarded, unhalted⟩ := arrives.guarded
      exact (guarded.append_uncalled rfl).append
        (unhalted_append unhalted (unhalted_saved s)) leaves.guarded

theorem Runs.guarded (runs : Runs clock budgets job report) :
    Guarded budgets job report.events := by
  cases runs with
  | refused => exact guarded_nil
  | failed valid closes => exact closes.guarded
  | unfinished valid closes reading breaks => exact closes.guarded.append_uncalled breaks.uncalled
  | finished valid closes reading finished_eq consistent entry =>
      obtain ⟨e, rfl⟩ := entry.exists_logged
      exact closes.guarded.append_uncalled rfl

end History

namespace Engine

open History

variable {σ : Type} {env : Environment (StateM σ)} {budgets : Budgets} {job : Job}

/-- The events of a run of a plan that can be run are all that it does, and among them a provider is
called only in a state with a step that is due and with iterations and tokens left, and only if the
time that had passed at that boundary was within the limit and nobody wanted the run to end. The
calls are as many as the iterations of the state that is given back, which the budgets allow. None
comes after a state that was not saved or a response that was rejected. -/
theorem execute_calls_gated (valid : job.plan.validate = .ok ()) (w : σ) :
    let report := report env budgets job w
    Effects env (env.steady.run w).1 (env.steady.run w).2 report.events
      ((execute env budgets job).run w).2 ∧
    (∀ s boundary request answer, .called s boundary request answer ∈ report.events →
      s.currentStepIndex.toNat < job.plan.steps.length ∧
      s.iterationCount < budgets.maxIterations ∧ s.tokenUsage.total < budgets.maxTokens ∧
      (∀ limit, budgets.timeLimit = some limit → boundary.elapsed ≤ limit) ∧
      boundary.cancelled = false) ∧
    (∃ s, report.returned = some s ∧ report.calls.length = s.iterationCount.toNat ∧
      report.calls.length ≤ budgets.maxIterations.toNat) ∧
    report.events.Pairwise fun earlier later => earlier.Halts budgets → later.call? = none := by
  have runs := report_runs env budgets job w
  obtain ⟨s, -, -, -, returned, -⟩ := runs.accounts valid
  have guarded := runs.guarded
  refine ⟨execute_effects env budgets valid w, ?_, ⟨s, returned, ?_⟩, guarded.orderly⟩
  · intro s boundary request answer member
    obtain ⟨index, iterations, tokens, time, uncancelled⟩ :=
      guarded.allowed s boundary request answer member
    exact ⟨index, iterations, tokens, time, uncancelled⟩
  · have count := runs.length_calls valid returned
    have within := UInt32.le_iff_toNat_le.mp (runs.iterationCount_le returned)
    exact ⟨count, count ▸ within⟩

/-- In a rehearsal whose third write fails, two calls are made and counted. -/
theorem rehearsal_calls :
    let report := report World.environment .rehearsal .rehearsal
      (.rehearsal [.ok (3, 4), .error "no answer", .ok (5, 6)] (.only 2))
    ∃ s, report.returned = some s ∧ s.iterationCount.toNat = 2 := by
  intro report
  have two : report.calls.length = 2 := by decide +kernel
  obtain ⟨-, -, ⟨s, returned, count, -⟩, -⟩ := execute_calls_gated Job.rehearsal_valid _
  exact ⟨s, returned, count.symm.trans two⟩

end Engine

end BudgetedRun
