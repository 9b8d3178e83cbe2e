import BudgetedRun.Proofs.Engine.Endings

/-!
# Calls and the states they are made from

Every call of a run is made from a state that the run has arrived at and saved, for the step that is
due there (`History.Runs.departures`). So the calls before it say what is asked of the provider
(`History.Runs.request_eq`).
-/

namespace BudgetedRun

/-- A place among two lists is in the first of them or in the second. -/
theorem exists_of_append_eq {α : Type} {e : α} {first second before after : List α}
    (split : first ++ second = before ++ e :: after) :
    (∃ rest, first = before ++ e :: rest) ∨
      ∃ rest, before = first ++ rest ∧ second = rest ++ e :: after := by
  rcases List.append_eq_append_iff.mp split with
    ⟨rest, beforeEq, secondEq⟩ | ⟨rest, firstEq, tailEq⟩
  · exact .inr ⟨rest, beforeEq, secondEq⟩
  · cases rest with
    | nil =>
        rw [List.append_nil] at firstEq
        exact .inr ⟨[], by rw [firstEq, List.append_nil], tailEq.symm⟩
    | cons head rest =>
        obtain ⟨rfl, -⟩ := List.cons.inj tailEq
        exact .inl ⟨rest, firstEq⟩

/-- A place in a list with one more at its end is that end or in the list. -/
theorem eq_or_exists_of_append_singleton {α : Type} {e last : α} {l before after : List α}
    (split : l ++ [last] = before ++ e :: after) :
    (before = l ∧ last = e ∧ after = []) ∨ ∃ rest, l = before ++ e :: rest := by
  rcases exists_of_append_eq split with inside | ⟨rest, rfl, beyond⟩
  · exact .inr inside
  · cases rest with
    | nil =>
        obtain ⟨rfl, rfl⟩ := List.cons.inj beyond
        exact .inl ⟨List.append_nil _, rfl, rfl⟩
    | cons first rest =>
        obtain ⟨-, beyond⟩ := List.cons.inj beyond
        exact absurd beyond.symm (List.append_ne_nil_of_right_ne_nil _ (List.cons_ne_nil _ _))

namespace Event

/-- A place among the calls is a place among the events. -/
theorem exists_called {events : List Event} {earlier later : List (Request × Answer)}
    {request : Request} {answer : Answer}
    (split : events.filterMap call? = earlier ++ (request, answer) :: later) :
    ∃ before s boundary after, events = before ++ .called s boundary request answer :: after ∧
      before.filterMap call? = earlier := by
  obtain ⟨first, rest, rfl, firstCalls, restCalls⟩ := List.filterMap_eq_append_iff.mp split
  obtain ⟨between, e, after, rfl, uncalled, isCall, -⟩ := List.filterMap_eq_cons_iff.mp restCalls
  cases e with
  | logged entry => cases isCall
  | wrote s result => cases isCall
  | called s boundary request' answer' =>
      cases isCall
      refine ⟨first ++ between, s, boundary, after, by rw [List.append_assoc], ?_⟩
      rw [List.filterMap_append, firstCalls, List.filterMap_eq_nil_iff.mpr uncalled,
        List.append_nil]

end Event

namespace History

variable (clock : Timestamp → Timestamp → Prop) (budgets : Budgets) (job : Job)

/-- A run goes on from a saved state by a call for the step that is due there. -/
inductive Departs : List Event → RunState → Boundary → Request → Prop where
  | intro {earlier : List Event} {s : RunState} {boundary : Boundary} {step : Step}
      (arrives : Arrives clock budgets job s earlier)
      (consistent : s.progressViolations job.plan.steps.length budgets = [])
      (due : job.plan.steps[s.currentStepIndex.toNat]? = some step)
      (allowed : budgets.checkStop s boundary.elapsed boundary.cancelled = none) :
      Departs (earlier ++ [.wrote s (.ok ())]) s boundary
        (Engine.request job s.currentStepIndex.toNat step)

/-- Every call among some events is a departure after the events before it. -/
def Departures (events : List Event) : Prop :=
  ∀ before s boundary request answer after,
    events = before ++ .called s boundary request answer :: after →
    Departs clock budgets job before s boundary request

variable {clock : Timestamp → Timestamp → Prop} {budgets : Budgets} {job : Job}
  {s s' last : RunState} {o : StepOutcome} {how : Finish} {ending : Ending}
  {events more worked left : List Event} {report : Report}

theorem departures_nil : Departures clock budgets job [] := by
  intro before s boundary request answer after split
  exact absurd split.symm (List.append_ne_nil_of_right_ne_nil _ (List.cons_ne_nil _ _))

theorem Departures.append_uncalled (departures : Departures clock budgets job events)
    (uncalled : more.filterMap Event.call? = []) :
    Departures clock budgets job (events ++ more) := by
  intro before s boundary request answer after split
  rcases exists_of_append_eq split with ⟨rest, inside⟩ | ⟨rest, -, beyond⟩
  · exact departures before s boundary request answer rest inside
  · rw [List.filterMap_eq_nil_iff] at uncalled
    have member : .called s boundary request answer ∈ more := by
      rw [beyond]
      exact List.mem_append_right _ List.mem_cons_self
    cases uncalled _ member

/-- Work on a step departs from the state that was saved before. -/
theorem Departures.append_worked (departures : Departures clock budgets job events)
    (arrives : Arrives clock budgets job s events)
    (consistent : s.progressViolations job.plan.steps.length budgets = [])
    (iterates : Iterates clock budgets job s o s' worked) :
    Departures clock budgets job (events ++ [.wrote s (.ok ())] ++ worked) := by
  intro before s₀ boundary request answer after split
  cases iterates with
  | intro due allowed judges reading entry =>
      obtain ⟨e, rfl⟩ := entry.exists_logged
      rcases exists_of_append_eq split with ⟨rest, inside⟩ | ⟨rest, rfl, beyond⟩
      · exact departures.append_uncalled rfl before s₀ boundary request answer rest inside
      · cases rest with
        | nil =>
            cases beyond
            rw [List.append_nil]
            exact .intro arrives consistent due allowed
        | cons first rest =>
            obtain ⟨-, beyond⟩ := List.cons.inj beyond
            obtain ⟨-, same⟩ | ⟨-, absent⟩ := List.append_eq_singleton_iff.mp beyond.symm
            · cases same
            · cases absent

/-- Every call of a run up to a running state is a departure. -/
theorem Arrives.departures (arrives : Arrives clock budgets job s events) :
    Departures clock budgets job events := by
  induction arrives with
  | start entry =>
      obtain ⟨e, rfl⟩ := entry.exists_logged
      exact departures_nil.append_uncalled rfl
  | next arrives consistent iterates within ih => exact ih.append_worked arrives consistent iterates

/-- Every call of a run up to its last turn is a departure. -/
theorem Closes.departures (closes : Closes clock budgets job ending events) :
    Departures clock budgets job events := by
  cases closes with
  | fail arrives breaks => exact arrives.departures.append_uncalled breaks.uncalled
  | finish arrives consistent leaves =>
      cases leaves with
      | complete done =>
          rw [List.append_nil]
          exact arrives.departures.append_uncalled rfl
      | stop due decided entry =>
          obtain ⟨e, rfl⟩ := entry.exists_logged
          rw [List.append_assoc]
          exact arrives.departures.append_uncalled rfl
      | reject iterates beyond => exact arrives.departures.append_worked arrives consistent iterates

/-- Every call of a run is made from a state that the run has arrived at and saved. -/
theorem Runs.departures (runs : Runs clock budgets job report) :
    Departures clock budgets job report.events := by
  cases runs with
  | refused => exact departures_nil
  | failed valid closes => exact closes.departures
  | unfinished valid closes reading breaks =>
      exact closes.departures.append_uncalled breaks.uncalled
  | finished valid closes reading finished_eq consistent entry =>
      obtain ⟨e, rfl⟩ := entry.exists_logged
      exact closes.departures.append_uncalled rfl

/-- No call is made between a running state and a departure from it. -/
theorem Departs.calls_eq {boundary : Boundary} {request : Request}
    (departs : Departs clock budgets job events s boundary request) :
    ∃ earlier, Arrives clock budgets job s earlier ∧
      events.filterMap Event.call? = earlier.filterMap Event.call? := by
  cases departs with
  | @intro earlier s boundary step arrives consistent due allowed =>
      exact ⟨earlier, arrives, Event.calls_append_wrote ..⟩

/-- The step that a call asks for is the one after those that the calls before it were answered
for. -/
theorem Runs.request_eq (runs : Runs clock budgets job report) {earlier later : List Call}
    {request : Request} {answer : Answer}
    (split : report.calls = earlier ++ (request, answer) :: later) :
    ∃ step, job.plan.steps[(responses earlier).length]? = some step ∧
      request = Engine.request job (responses earlier).length step := by
  obtain ⟨before, s, boundary, after, place, rfl⟩ := Event.exists_called split
  have departs := runs.departures before s boundary request answer after place
  obtain ⟨arrived, arrives, calls⟩ := departs.calls_eq
  rw [calls, ← arrives.accounts.index]
  cases departs with
  | intro _ _ due _ => exact ⟨_, due, rfl⟩

end History

end BudgetedRun
