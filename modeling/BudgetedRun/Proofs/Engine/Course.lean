import BudgetedRun.Proofs.Engine.Gate
import BudgetedRun.Proofs.Engine.Writes
import BudgetedRun.Proofs.Run.Progress

/-!
# The course of a run

The running states that a run saves follow one another by exactly one iteration each, from its first
state on (`History.Course`). Where a run arrives, the states that it has saved are those on its way
(`History.Arrives.course`). How its writes go on from there is said by `History.Recorded`.
-/

namespace BudgetedRun

namespace History

open RunState

/-- The states among some writes that were saved. -/
def savedAmong (writes : List (RunState × Except StoreError Unit)) : List RunState :=
  writes.filterMap fun
    | (s, .ok ()) => some s
    | (_, .error _) => none

/-- The states that some events have saved. -/
def savedBy (events : List Event) : List RunState := savedAmong (events.filterMap Event.write?)

theorem savedAmong_append (first second : List (RunState × Except StoreError Unit)) :
    savedAmong (first ++ second) = savedAmong first ++ savedAmong second :=
  List.filterMap_append

theorem savedBy_append (first second : List Event) :
    savedBy (first ++ second) = savedBy first ++ savedBy second := by
  rw [savedBy, List.filterMap_append, savedAmong_append]
  rfl

/-- All states of successful writes are saved. -/
theorem savedAmong_saved (states : List RunState) : savedAmong (saved states) = states := by
  induction states with
  | nil => rfl
  | cons s rest ih =>
      rw [saved, List.map_cons, ← saved, savedAmong, List.filterMap_cons, ← savedAmong, ih]

/-- A state is saved exactly if it is written with success. -/
theorem mem_savedAmong {writes : List (RunState × Except StoreError Unit)} {s : RunState} :
    s ∈ savedAmong writes ↔ (s, .ok ()) ∈ writes := by
  rw [savedAmong, List.mem_filterMap]
  constructor
  · rintro ⟨⟨t, _ | _⟩, member, same⟩
    · cases same
    · cases same
      exact member
  · exact fun member => ⟨_, member, rfl⟩

/-- What is in a list with one more element was there before, or is that element. -/
theorem getElem?_append_singleton {α : Type} {l : List α} {a b : α} {k : Nat}
    (here : (l ++ [a])[k]? = some b) : l[k]? = some b ∨ k = l.length ∧ a = b := by
  grind

/-- One iteration leads from a running state to the next. An answer is committed, or an incident is
recorded, and nothing else changes. -/
inductive Advances (s : RunState) : Call → RunState → Prop where
  | committed {request : Request} {r : Response} {index : UInt64} {count : UInt32}
      {usage : TokenUsage} (next : index.toNat = s.currentStepIndex.toNat + 1)
      (counted : count.toNat = s.iterationCount.toNat + 1)
      (input : usage.input.toNat = s.tokenUsage.input.toNat + r.inputTokens.toNat)
      (output : usage.output.toNat = s.tokenUsage.output.toNat + r.outputTokens.toNat)
      (total : usage.total.toNat = s.tokenUsage.total.toNat + r.cost) :
      Advances s (request, .ok r)
        { s with currentStepIndex := index, iterationCount := count, tokenUsage := usage }
  | failed {request : Request} {message : String} {count : UInt32} {now : Timestamp}
      (counted : count.toNat = s.iterationCount.toNat + 1) :
      Advances s (request, .error message)
        { s with
          iterationCount := count
          errors := s.errors ++ [⟨some request.stepId, message, now, true⟩] }

/-- A run comes to a state by way of others, by one iteration for each of some calls. -/
inductive Course (job : Job) : List RunState → List Call → RunState → Prop where
  | start (now : Timestamp) : Course job [] [] (.start job.runId job.plan.id now)
  | next {states : List RunState} {calls : List Call} {call : Call} {s s' : RunState}
      (course : Course job states calls s) (advances : Advances s call s') :
      Course job (states ++ [s]) (calls ++ [call]) s'

variable {clock : Timestamp → Timestamp → Prop} {budgets : Budgets} {job : Job}
  {s s' t last : RunState} {o : StepOutcome} {how : Finish} {failure : RunFailure}
  {events worked left : List Event} {states : List RunState} {calls : List Call} {call : Call}
  {now : Timestamp} {report : Report}

/-- An iteration extends the state. -/
theorem Advances.extends (advances : Advances s call s') : s.Extends s' := by
  cases advances with
  | committed next counted input output total =>
      refine { Extends.refl s with
        index := ?_, iterations := ?_, input := ?_, output := ?_, total := ?_ }
      · exact UInt64.le_iff_toNat_le.mpr (next ▸ Nat.le_succ _)
      · exact UInt32.le_iff_toNat_le.mpr (counted ▸ Nat.le_succ _)
      · exact UInt64.le_iff_toNat_le.mpr (input ▸ Nat.le_add_right _ _)
      · exact UInt64.le_iff_toNat_le.mpr (output ▸ Nat.le_add_right _ _)
      · exact UInt64.le_iff_toNat_le.mpr (total ▸ Nat.le_add_right _ _)
  | failed counted =>
      refine { Extends.refl s with iterations := ?_, errors := List.prefix_append _ _ }
      exact UInt32.le_iff_toNat_le.mpr (counted ▸ Nat.le_succ _)

/-- An iteration counts as one. -/
theorem Advances.counted (advances : Advances s call s') :
    s'.iterationCount.toNat = s.iterationCount.toNat + 1 := by
  cases advances with
  | committed _ counted => exact counted
  | failed counted => exact counted

namespace Course

/-- A run comes by as many states as calls. -/
theorem length_eq (course : Course job states calls s) : states.length = calls.length := by
  induction course with
  | start => rfl
  | next _ _ ih => rw [List.length_append, List.length_append, ih]; rfl

/-- A running state counts its calls as iterations. -/
theorem iterations_eq (course : Course job states calls s) :
    s.iterationCount.toNat = calls.length := by
  induction course with
  | start => rfl
  | next _ advances ih => rw [advances.counted, ih, List.length_append]; rfl

/-- The first state of a run is the start of its job. -/
theorem head_eq (course : Course job states calls s) :
    ∃ now, (states ++ [s]).head? = some (.start job.runId job.plan.id now) := by
  induction course with
  | start now => exact ⟨now, rfl⟩
  | next _ _ ih =>
      obtain ⟨now, first⟩ := ih
      refine ⟨now, ?_⟩
      rw [List.head?_append, first]
      rfl

/-- All states that a run comes by are running. -/
theorem all_running (course : Course job states calls s) :
    ∀ t ∈ states ++ [s], t.status = .running := by
  induction course with
  | start now =>
      intro t member
      rw [List.mem_singleton.mp member]
      rfl
  | @next states calls call s s' course advances ih =>
      have last : s.status = .running := ih s (List.mem_append_right _ List.mem_cons_self)
      rw [List.forall_mem_append, List.forall_mem_singleton]
      refine ⟨ih, ?_⟩
      cases advances with
      | committed => exact last
      | failed => exact last

/-- The last state extends all those on the way to it. -/
theorem extends_last (course : Course job states calls s) :
    ∀ t ∈ states ++ [s], t.Extends s := by
  induction course with
  | start now =>
      intro t member
      rw [List.mem_singleton.mp member]
      exact .refl _
  | next _ advances ih =>
      rw [List.forall_mem_append, List.forall_mem_singleton]
      exact ⟨fun t member => (ih t member).trans advances.extends, .refl _⟩

/-- Each state that a run comes by extends those before it. -/
theorem pairwise_extends (course : Course job states calls s) :
    (states ++ [s]).Pairwise RunState.Extends := by
  induction course with
  | start => exact List.pairwise_singleton _ _
  | next course advances ih =>
      refine List.pairwise_append.mpr ⟨ih, List.pairwise_singleton _ _, ?_⟩
      intro t member t' last
      rw [List.mem_singleton.mp last]
      exact (course.extends_last t member).trans advances.extends

/-- The states on the way are numbered by their iterations. -/
theorem iterations_of_getElem? (course : Course job states calls s) {k : Nat}
    (here : (states ++ [s])[k]? = some t) : t.iterationCount.toNat = k := by
  induction course with
  | start =>
      rcases getElem?_append_singleton here with inside | ⟨rfl, rfl⟩
      · cases inside
      · rfl
  | next course advances ih =>
      rcases getElem?_append_singleton here with inside | ⟨rfl, rfl⟩
      · exact ih inside
      · rw [advances.counted, course.iterations_eq, List.length_append, course.length_eq]
        rfl

/-- Each state on the way is one iteration further than the one before, by the call of the same
number. -/
theorem advances_of_getElem? (course : Course job states calls s) {k : Nat} {t' : RunState}
    (here : (states ++ [s])[k]? = some t) (there : (states ++ [s])[k + 1]? = some t') :
    ∃ call, calls[k]? = some call ∧ Advances t call t' := by
  induction course with
  | start => cases there
  | @next states calls call s s' course advances ih =>
      rcases getElem?_append_singleton there with inside | ⟨atEnd, rfl⟩
      · obtain ⟨below, -⟩ := List.getElem?_eq_some_iff.mp inside
        rw [List.getElem?_append_left (Nat.lt_of_succ_lt below)] at here
        obtain ⟨call', isCall, advances'⟩ := ih here inside
        refine ⟨call', ?_, advances'⟩
        obtain ⟨within, -⟩ := List.getElem?_eq_some_iff.mp isCall
        rw [List.getElem?_append_left within, isCall]
      · obtain rfl : k = states.length := by
          rw [List.length_append, List.length_singleton] at atEnd
          exact Nat.succ.inj atEnd
        obtain rfl : s = t := by simpa using here
        exact ⟨call, by rw [course.length_eq, List.getElem?_concat_length], advances⟩

end Course

/-- Work on a step that is not rejected is one iteration further. -/
theorem Iterates.advances (iterates : Iterates clock budgets job s o s' worked)
    (within : ¬o.IsOverBudget) (bounded : budgets.maxTokens.toNat < greatestCount)
    (arrives : Arrives clock budgets job s events) :
    ∃ call, worked.filterMap Event.call? = [call] ∧ Advances s call s' := by
  have running := arrives.underway.running
  have accounts := arrives.accounts
  cases iterates with
  | intro due allowed judges reading entry =>
      have below := (Budgets.checkStop_eq_none_iff.mp allowed).1
      have counted := toNat_nextIteration below
      obtain ⟨e, rfl⟩ := entry.exists_logged
      refine ⟨_, rfl, ?_⟩
      cases judges with
      | @succeeded r covered =>
          -- Before and after, the usage shows plain sums, as the limit is below the greatest count.
          have enough := mt (Budgets.wouldExceedTokens_iff_of_lt accounts.usage bounded _ _).mpr
            (Bool.not_eq_true _ ▸ covered)
          obtain ⟨input, output, total⟩ := accounts.usage.toNat_eq (by omega)
          obtain ⟨input', output', total'⟩ :=
            (accounts.usage.add r.inputTokens r.outputTokens).toNat_eq (by omega)
          rw [advance_succeeded running]
          refine .committed accounts.toNat_index_succ counted ?_ ?_ ?_
          · rw [input', input]
          · rw [output', output]
          · rw [total', total, Response.cost]
            omega
      | failed =>
          rw [advance_failed running]
          exact .failed counted
      | overBudget beyond => exact absurd trivial within

/-- The writes of a run up to a running state have all been successful. -/
theorem Arrives.saved_writes (arrives : Arrives clock budgets job s events) :
    events.filterMap Event.write? = saved (savedBy events) := by
  obtain ⟨states, -, writes⟩ := arrives.writes_eq
  rw [savedBy, writes, savedAmong_saved]

/-- An iteration from a saved state saves nothing more. -/
theorem Iterates.savedBy_eq (iterates : Iterates clock budgets job s o s' worked)
    (before : List Event) :
    savedBy (before ++ [.wrote s (.ok ())] ++ worked) = savedBy before ++ [s] := by
  rw [savedBy, Event.writes_append_write, iterates.writes_eq, List.append_nil, savedAmong_append]
  rfl

/-- The states that a run has saved on its way are running states of its own. -/
theorem Arrives.saved_underway (arrives : Arrives clock budgets job s events) :
    ∀ t ∈ savedBy events, Underway job t := by
  induction arrives with
  | start entry =>
      obtain ⟨e, rfl⟩ := entry.exists_logged
      exact List.forall_mem_nil _
  | next arrives consistent iterates within ih =>
      rw [iterates.savedBy_eq, List.forall_mem_append, List.forall_mem_singleton]
      exact ⟨ih, arrives.underway⟩

/-- Where a run arrives, the states it has saved are those on the way. -/
theorem Arrives.course (arrives : Arrives clock budgets job s events)
    (bounded : budgets.maxTokens.toNat < greatestCount) :
    Course job (savedBy events) (events.filterMap Event.call?) s := by
  induction arrives with
  | start entry =>
      obtain ⟨e, rfl⟩ := entry.exists_logged
      exact .start _
  | @next s s' o before worked arrives consistent iterates within ih =>
      obtain ⟨call, calls, advances⟩ := iterates.advances within bounded arrives
      rw [iterates.savedBy_eq, Event.calls_append_write, calls]
      exact ih.next advances

/-- The last running state extends the one from which a run leaves for its end. -/
theorem Leaves.extends (leaves : Leaves clock budgets job s last how left)
    (running : s.status = .running) : s.Extends last := by
  cases leaves with
  | complete => exact .refl _
  | stop => exact .refl _
  | reject iterates beyond =>
      cases iterates with
      | intro due allowed judges =>
          cases judges with
          | succeeded => exact beyond.elim
          | failed => exact beyond.elim
          | overBudget => exact .advance_overBudget running _ _ _

/-- The finished state extends the last running one. -/
theorem finishState_extends (running : last.status = .running) (how : Finish) (now : Timestamp) :
    last.Extends (Engine.finishState last how now) := by
  cases how with
  | complete => exact .complete running
  | stop decision => exact .stop running decision

/-- Where a run leaves for its end, it has saved the last running state that it arrived at and those
on the way to it. -/
theorem Closes.saved_writes (closes : Closes clock budgets job (.finish last how) events) :
    ∃ s before rejected, Arrives clock budgets job s before ∧
      events.filterMap Event.write? = saved (savedBy before ++ [s]) ∧ s.Extends last ∧
      Billed budgets (events.filterMap Event.call?) (before.filterMap Event.call?) rejected := by
  cases closes with
  | @finish s last how before left arrives consistent leaves =>
      obtain ⟨rejected, called, -, beyond⟩ := leaves.accounts arrives.underway arrives.accounts
      refine ⟨s, before, rejected, arrives, ?_, leaves.extends arrives.underway.running, ?_,
        arrives.covered, beyond⟩
      · rw [Event.writes_append_write, leaves.writes_eq, List.append_nil, arrives.saved_writes,
          saved_append]
      · rw [Event.calls_append_write, called]

/-- The state of a run that breaks is failed and extends the running one. -/
theorem Breaks.extends {running : RunState}
    (breaks : Breaks clock budgets job s running failure events)
    (isRunning : running.status = .running) :
    failure.state.status = .failed ∧ running.Extends failure.state := by
  obtain ⟨now, -, state⟩ := breaks.state_eq
  rw [state]
  exact ⟨by rw [fail_of_running isRunning], .fail isRunning _⟩

/-- Where a run breaks, the failed state is the last that it writes, after the one that was not
saved if that one was consistent. -/
theorem Breaks.writes_eq {running : RunState}
    (breaks : Breaks clock budgets job s running failure events) :
    ∃ lost retry, events.filterMap Event.write? = lost ++ [(failure.state, retry)] ∧
      (lost = [] ∧ s.progressViolations job.plan.steps.length budgets ≠ [] ∨
        ∃ e, lost = [(s, .error e)]) := by
  cases breaks with
  | @unsaved e failure events consistent fails =>
      obtain ⟨retry, written⟩ := fails.writes_eq
      refine ⟨[(s, .error e)], retry, ?_, .inr ⟨e, rfl⟩⟩
      rw [List.filterMap_cons, Event.write?_wrote, written]
      rfl
  | inconsistent broken fails =>
      obtain ⟨retry, written⟩ := fails.writes_eq
      exact ⟨[], retry, written, .inl ⟨rfl, broken⟩⟩

/-- The result and the writes of a run that has come to a running state by way of others, which were
saved. The run breaks at that state, or at the one that it is to end in, or it ends. -/
inductive Recorded (budgets : Budgets) (job : Job) (states : List RunState) (s : RunState) :
    Except RunError RunState → List (RunState × Except StoreError Unit) → Prop where
  | broken {lost : List (RunState × Except StoreError Unit)} {f : RunFailure}
      {retry : Except StoreError Unit}
      (attempt : lost = [] ∧ s.progressViolations job.plan.steps.length budgets ≠ [] ∨
        ∃ e, lost = [(s, .error e)])
      (failed : f.state.status = .failed) (further : s.Extends f.state) :
      Recorded budgets job states s (.error (.failed f))
        (saved states ++ (lost ++ [(f.state, retry)]))
  | unfinished {t : RunState} {lost : List (RunState × Except StoreError Unit)} {f : RunFailure}
      {retry : Except StoreError Unit} (unfailed : t.status ≠ .failed)
      (attempt : lost = [] ∨ ∃ e, lost = [(t, .error e)]) (failed : f.state.status = .failed)
      (further : s.Extends f.state) :
      Recorded budgets job states s (.error (.failed f))
        (saved (states ++ [s]) ++ (lost ++ [(f.state, retry)]))
  | finished {t : RunState} (status : t.status = .completed ∨ t.status = .stopped)
      (further : s.Extends t) :
      Recorded budgets job states s (.ok t) (saved (states ++ [s]) ++ [(t, .ok ())])

/-- The writes of a run go together with its result and with its calls, from the last running state
that it arrives at. -/
theorem Runs.recorded (runs : Runs clock budgets job report) (valid : job.plan.validate = .ok ()) :
    ∃ s before rejected, Arrives clock budgets job s before ∧
      Recorded budgets job (savedBy before) s report.result report.writes ∧
      Billed budgets report.calls (before.filterMap Event.call?) rejected := by
  cases runs with
  | refused invalid => rw [invalid] at valid; cases valid
  | failed _ closes =>
      cases closes with
      | @fail s failure before events arrives breaks =>
          obtain ⟨failed, further⟩ := breaks.extends arrives.underway.running
          obtain ⟨lost, retry, written, attempt⟩ := breaks.writes_eq
          refine ⟨s, before, none, arrives, ?_, ?_, arrives.covered, nofun⟩
          · rw [Report.writes_eq, List.filterMap_append, arrives.saved_writes, written]
            exact .broken attempt failed further
          · rw [Report.calls_eq, List.filterMap_append, breaks.uncalled]
            rfl
  | @unfinished last how now failure before events _ closes reading breaks =>
      obtain ⟨s, arrived, rejected, arrives, writes, further, billed⟩ := closes.saved_writes
      obtain ⟨-, -, -, -, -, closing⟩ := closes.accounts
      obtain ⟨failed, beyond⟩ := breaks.extends closes.underway.1.running
      obtain ⟨lost, retry, written, attempt⟩ := breaks.writes_eq
      refine ⟨s, arrived, rejected, arrives, ?_, ?_⟩
      · rw [Report.writes_eq, List.filterMap_append, writes, written]
        exact .unfinished (unfailed_of_closing (closing now)) (attempt.imp_left And.left) failed
          (further.trans beyond)
      · rw [Report.calls_eq, List.filterMap_append, breaks.uncalled, List.append_nil]
        exact billed
  | @finished last finished how now before noted _ closes reading finished_eq _ entry =>
      subst finished_eq
      obtain ⟨s, arrived, rejected, arrives, writes, further, billed⟩ := closes.saved_writes
      obtain ⟨-, -, -, -, -, closing⟩ := closes.accounts
      obtain ⟨e, rfl⟩ := entry.exists_logged
      have ends := finishState_extends closes.underway.1.running how now
      refine ⟨s, arrived, rejected, arrives, ?_, ?_⟩
      · rw [Report.writes_eq, List.filterMap_append, writes]
        exact .finished (closing now).completed_or_stopped (further.trans ends)
      · rw [Report.calls_eq, List.filterMap_append]
        exact (List.append_nil (before.filterMap Event.call?)).symm ▸ billed

end History

namespace Report

/-- The states that a run has saved. -/
def savedStates (r : Report) : List RunState := History.savedAmong r.writes

end Report

end BudgetedRun
