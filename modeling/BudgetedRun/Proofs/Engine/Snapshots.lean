import BudgetedRun.Proofs.Engine.Course
import BudgetedRun.Proofs.Engine.Reliability

/-!
# The states that a run saves

What a run saves is its course and, perhaps, the state in which it is over (`History.Chained`), and
nothing is saved between a write that fails and the failed state. `Engine.execute_saves_chain` is
the whole history of its snapshots.
-/

namespace BudgetedRun

namespace History

open RunState

variable {clock : Timestamp → Timestamp → Prop} {budgets : Budgets} {job : Job}
  {s t last : RunState} {o : StepOutcome} {how : Finish} {failure : RunFailure}
  {events left : List Event} {states : List RunState} {calls : List Call} {report : Report}

theorem eq_saved {writes : List (RunState × Except StoreError Unit)}
    (kept : ∀ write ∈ writes, write.2 = .ok ()) : writes = saved (savedAmong writes) := by
  induction writes with
  | nil => rfl
  | cons write rest ih =>
      obtain ⟨s, result⟩ := write
      obtain ⟨first, later⟩ := List.forall_mem_cons.mp kept
      cases first
      exact congrArg _ (ih later)

/-- Either all that some events have written was saved, or there is a first write that was not. -/
theorem kept_or_first_failure (events : List Event) :
    (∀ write ∈ events.filterMap Event.write?, write.2 = .ok ()) ∨
      ∃ before s e after, events = before ++ .wrote s (.error e) :: after ∧
        ∀ write ∈ before.filterMap Event.write?, write.2 = .ok () := by
  induction events using List.reverseRecOn with
  | nil => exact .inl (List.forall_mem_nil _)
  | append_singleton events event ih =>
      rcases ih with kept | ⟨before, s, e, after, rfl, kept⟩
      · rw [List.filterMap_append, List.forall_mem_append]
        cases event with
        | logged entry => exact .inl ⟨kept, List.forall_mem_nil _⟩
        | called s boundary request answer => exact .inl ⟨kept, List.forall_mem_nil _⟩
        | wrote s result =>
            cases result with
            | ok _ => exact .inl ⟨kept, List.forall_mem_singleton.mpr rfl⟩
            | error e => exact .inr ⟨events, s, e, [], rfl, kept⟩
      · exact .inr ⟨before, s, e, after ++ [event], List.append_assoc .., kept⟩

/-- The first write that fails is found in one place only. -/
theorem first_failure {s t : RunState} {e e' : StoreError} {front : List RunState}
    {after after' : List (RunState × Except StoreError Unit)}
    (same : saved states ++ (s, .error e) :: after = saved front ++ (t, .error e') :: after') :
    s = t ∧ after = after' := by
  induction states generalizing front with
  | nil =>
      cases front with
      | nil =>
          cases same
          exact ⟨rfl, rfl⟩
      | cons => cases same
  | cons _ states ih =>
      cases front with
      | nil => cases same
      | cons _ front => exact ih (List.cons.inj same).2

/-- One more write saves one more state at most. -/
theorem savedAmong_singleton (s : RunState) (result : Except StoreError Unit) :
    ∃ kept : Option RunState, savedAmong [(s, result)] = kept.toList ∧ ∀ t ∈ kept, t = s := by
  cases result with
  | ok _ => exact ⟨some s, rfl, fun t member => (Option.mem_some.mp member).symm⟩
  | error e => exact ⟨none, rfl, fun t member => absurd member (Option.not_mem_none t)⟩

namespace Recorded

variable {result : Except RunError RunState} {writes : List (RunState × Except StoreError Unit)}

/-- What a run saves are states on its way, from the first on, and at most one in which it is
over. -/
theorem savedAmong_eq (recorded : Recorded budgets job states s result writes)
    (consistent : s.progressViolations job.plan.steps.length budgets = []) :
    ∃ (chain : List RunState) (ended : Option RunState),
      savedAmong writes = chain ++ ended.toList ∧ chain <+: states ++ [s] ∧
      (chain.head? = (states ++ [s]).head? ∨
        chain = [] ∧ ∃ e, writes.head? = (states ++ [s]).head?.map (·, .error e)) ∧
      ∀ t ∈ ended, t.isTerminal = true ∧ s.Extends t := by
  cases recorded with
  | @broken lost f retry attempt failed further =>
      obtain ⟨e, rfl⟩ := attempt.resolve_left fun broken => broken.2 consistent
      obtain ⟨ended, kept, only⟩ := savedAmong_singleton f.state retry
      refine ⟨states, ended, ?_, List.prefix_append _ _, ?_, ?_⟩
      · rw [savedAmong_append, savedAmong_saved, ← kept]
        rfl
      · cases states with
        | nil => exact .inr ⟨rfl, e, rfl⟩
        | cons => exact .inl rfl
      · intro t member
        rw [only t member, isTerminal, failed]
        exact ⟨rfl, further⟩
  | @unfinished t lost f retry unfailed attempt failed further =>
      obtain ⟨ended, kept, only⟩ := savedAmong_singleton f.state retry
      refine ⟨states ++ [s], ended, ?_, List.prefix_rfl, .inl rfl, ?_⟩
      · rw [savedAmong_append, savedAmong_saved, ← kept]
        rcases attempt with rfl | ⟨e, rfl⟩ <;> rfl
      · intro t member
        rw [only t member, isTerminal, failed]
        exact ⟨rfl, further⟩
  | @finished t status further =>
      refine ⟨states ++ [s], some t, ?_, List.prefix_rfl, .inl rfl, ?_⟩
      · rw [savedAmong_append, savedAmong_saved]
        rfl
      · intro t' member
        rw [← Option.mem_some.mp member, isTerminal]
        rcases status with status | status <;> rw [status] <;> exact ⟨rfl, further⟩

/-- A run that saves all its states writes two more than it has calls. -/
theorem length_eq (recorded : Recorded budgets job states s result writes)
    (consistent : s.progressViolations job.plan.steps.length budgets = [])
    (kept : ∀ write ∈ writes, write.2 = .ok ()) : writes.length = states.length + 2 := by
  cases recorded with
  | broken attempt =>
      obtain ⟨e, rfl⟩ := attempt.resolve_left fun broken => broken.2 consistent
      cases kept _ (List.mem_append_right _ List.mem_cons_self)
  | unfinished unfailed attempt =>
      rcases attempt with rfl | ⟨e, rfl⟩
      · rw [List.length_append, saved, List.length_map, List.length_append]
        rfl
      · cases kept _ (List.mem_append_right _ List.mem_cons_self)
  | finished =>
      rw [List.length_append, saved, List.length_map, List.length_append]
      rfl

end Recorded

/-- Under a name and a limit below the greatest count, the states that a run arrives at are
consistent. -/
theorem Arrives.consistent (arrives : Arrives clock budgets job s events) (named : job.runId ≠ "")
    (planned : job.plan.id ≠ "") (bounded : budgets.maxTokens.toNat < greatestCount) :
    s.progressViolations job.plan.steps.length budgets = [] :=
  (arrives.consistent_iff named planned).mpr (arrives.covered bounded).recordable

/-- After the first write that fails there is one more, of the failed state, unless it was that
one. -/
theorem Written.after_failure {result : Except RunError RunState}
    {writes after : List (RunState × Except StoreError Unit)} {e : StoreError}
    {front : List RunState} (written : Written budgets job result writes)
    (split : writes = saved front ++ (t, .error e) :: after) (unfailed : t.status ≠ .failed) :
    ∃ f result, after = [(f, result)] ∧ f.status = .failed := by
  cases written with
  | @finished states s own last =>
      have member : (t, .error e) ∈ saved (states ++ [s]) := by
        rw [split]
        exact List.mem_append_right _ List.mem_cons_self
      cases (mem_saved.mp member).2
  | unsaved own last fault failed =>
      obtain ⟨-, rfl⟩ := first_failure split
      exact ⟨_, _, rfl, failed⟩
  | @inconsistent states f violations result own fault failed =>
      cases result with
      | error e =>
          obtain ⟨rfl, -⟩ := first_failure split
          exact absurd failed unfailed
      | ok _ =>
          have member : (t, .error e) ∈ saved (states ++ [f.state]) := by
            rw [saved_append, split]
            exact List.mem_append_right _ List.mem_cons_self
          cases (mem_saved.mp member).2

/-- If the time of day never goes back, the first write that fails is not that of the failed
state. -/
theorem Runs.first_failure_unfailed
    (runs : Runs (fun start now => start ≤ now) budgets job report)
    (valid : job.plan.validate = .ok ()) (named : job.runId ≠ "")
    (bounded : budgets.maxTokens.toNat < greatestCount) {e : StoreError} {front : List RunState}
    {after : List (RunState × Except StoreError Unit)}
    (split : report.writes = saved front ++ (t, .error e) :: after) : t.status ≠ .failed := by
  rcases runs.failed_or_finished valid named bounded with
    ⟨f, s, e, failed, fault, -⟩ | ⟨s, -, -, -, kept⟩
  · have written := runs.written valid
    rw [failed, split] at written
    generalize same : saved front ++ (t, _) :: after = writes at written
    cases written with
    | unsaved own last =>
        obtain ⟨rfl, -⟩ := first_failure same
        exact last.unfailed
    | inconsistent own fault' =>
        rw [fault] at fault'
        cases fault'
  · have member : (t, .error e) ∈ report.writes := by
      rw [split]
      exact List.mem_append_right _ List.mem_cons_self
    cases kept t _ member

/-- The last of some calls was answered beyond a limit. -/
def Overdrawn (limit : Nat) (calls : List Call) : Prop :=
  ∃ earlier request r, calls = earlier ++ [(request, .ok r)] ∧
    limit < tokensSpent earlier + r.cost

theorem Billed.overdrawn_iff {answered : List Call} {rejected : Option (Request × Response)}
    (billed : Billed budgets calls answered rejected)
    (bounded : budgets.maxTokens.toNat < greatestCount) :
    Overdrawn budgets.maxTokens.toNat calls ↔ rejected.isSome = true := by
  rw [billed.calls_eq]
  cases rejected with
  | none =>
      refine iff_of_false ?_ Bool.false_ne_true
      rintro ⟨earlier, request, r, last, beyond⟩
      rw [rejectedCall, Option.map_none, Option.toList_none, List.append_nil] at last
      have within := billed.covered bounded earlier request r [] last
      omega
  | some rejected =>
      obtain ⟨request, r⟩ := rejected
      have beyond := billed.beyond request r rfl
      exact iff_of_true ⟨answered, request, r, rfl, by omega⟩ rfl

/-- What a run has saved: running states and, perhaps, one in which it is over. Each running state
is one iteration further than the one before, by the call of the same number. -/
structure Chained (job : Job) (report : Report) (chain : List RunState) (ended : Option RunState) :
    Prop where
  saved : report.savedStates = chain ++ ended.toList
  /-- The first state is the fresh one, unless that could not be saved. -/
  first : ∃ now, chain.head? = some (.start job.runId job.plan.id now) ∨
    chain = [] ∧ ∃ e, report.writes.head? = some (.start job.runId job.plan.id now, .error e)
  running : ∀ s ∈ chain, s.status = .running
  terminal : ∀ s ∈ ended, s.isTerminal = true
  iterations : ∀ (k : Nat) (s : RunState), chain[k]? = some s → s.iterationCount.toNat = k
  advances : ∀ (k : Nat) (s s' : RunState), chain[k]? = some s → chain[k + 1]? = some s' →
    ∃ call, report.calls[k]? = some call ∧ Advances s call s'
  ordered : (chain ++ ended.toList).Pairwise RunState.Extends

/-- The states that a run saves are chained. -/
theorem Runs.chained (runs : Runs clock budgets job report) (valid : job.plan.validate = .ok ())
    (named : job.runId ≠ "") (bounded : budgets.maxTokens.toNat < greatestCount) :
    ∃ chain ended, Chained job report chain ended := by
  obtain ⟨s, before, rejected, arrives, recorded, billed⟩ := runs.recorded valid
  have course := arrives.course bounded
  have consistent := arrives.consistent named (Plan.id_ne_empty valid) bounded
  obtain ⟨chain, ended, saved, onTheWay, first, last⟩ := recorded.savedAmong_eq consistent
  obtain ⟨now, start⟩ := course.head_eq
  have here {k : Nat} {t : RunState} (inside : chain[k]? = some t) :
      (savedBy before ++ [s])[k]? = some t := by
    obtain ⟨rest, whole⟩ := onTheWay
    obtain ⟨within, -⟩ := List.getElem?_eq_some_iff.mp inside
    rw [← whole, List.getElem?_append_left within, inside]
  refine ⟨chain, ended, saved, ⟨now, ?_⟩, ?_, fun t member => (last t member).1, ?_, ?_, ?_⟩
  · rw [start] at first
    exact first
  · exact fun t member => course.all_running t (onTheWay.subset member)
  · exact fun k t inside => course.iterations_of_getElem? (here inside)
  · intro k t t' inside next
    obtain ⟨call, isCall, advances⟩ := course.advances_of_getElem? (here inside) (here next)
    obtain ⟨within, -⟩ := List.getElem?_eq_some_iff.mp isCall
    refine ⟨call, ?_, advances⟩
    rw [billed.calls_eq, List.getElem?_append_left within, isCall]
  · refine List.pairwise_append.mpr ⟨course.pairwise_extends.sublist onTheWay.sublist, ?_, ?_⟩
    · cases ended with
      | none => exact .nil
      | some t => exact List.pairwise_singleton _ _
    · intro t member t' ends
      have upToLast := course.extends_last t (onTheWay.subset member)
      exact upToLast.trans (last t' (Option.mem_toList.mp ends)).2

end History

namespace Engine

open History

variable {σ : Type} {env : Environment (StateM σ)} {budgets : Budgets} {job : Job}

/-- What a run of a plan that can be run saves, under a name and a token limit below the greatest
count, are its running states in order, each one iteration further than the one before, and the
state in which it is over; its events are all that it does. If all writes are saved, they are one
for the start, one for each iteration but a rejected one, and one for the end. After a first write
that is not saved no provider is called, and one more state is written, the failed one; unless the
time of day went back, that one was not the first. -/
theorem execute_saves_chain (valid : job.plan.validate = .ok ()) (named : job.runId ≠ "")
    (bounded : budgets.maxTokens.toNat < greatestCount) (w : σ) :
    let report := report env budgets job w
    Effects env (env.steady.run w).1 (env.steady.run w).2 report.events
      ((execute env budgets job).run w).2 ∧
    (∃ chain ended, Chained job report chain ended) ∧
    ∃ s, report.returned = some s ∧
      ((∀ write ∈ report.writes, write.2 = .ok ()) ∧
          (Overdrawn budgets.maxTokens.toNat report.calls →
            report.writes.length = s.iterationCount.toNat + 1) ∧
          (¬Overdrawn budgets.maxTokens.toNat report.calls →
            report.writes.length = s.iterationCount.toNat + 2) ∨
        ∃ before t e after, report.events = before ++ .wrote t (.error e) :: after ∧
          (∀ write ∈ before.filterMap Event.write?, write.2 = .ok ()) ∧
          after.filterMap Event.call? = [] ∧
          (t.status ≠ .failed → ∃ f result, after.filterMap Event.write? = [(f, result)] ∧
            f.status = .failed) ∧
          (env.Forward w → t.status ≠ .failed)) := by
  have runs := report_runs env budgets job w
  obtain ⟨s, -, -, -, returned, -⟩ := runs.accounts valid
  refine ⟨execute_effects env budgets valid w, runs.chained valid named bounded, s, returned, ?_⟩
  rcases kept_or_first_failure (report env budgets job w).events with
    kept | ⟨before, t, e, after, split, kept⟩
  · obtain ⟨last, before, rejected, arrives, recorded, billed⟩ := runs.recorded valid
    have consistent := arrives.consistent named (Plan.id_ne_empty valid) bounded
    have count : (report env budgets job w).writes.length =
        (before.filterMap Event.call?).length + 2 := by
      rw [recorded.length_eq consistent kept, (arrives.course bounded).length_eq]
    refine .inl ⟨kept, ?_⟩
    rw [billed.overdrawn_iff bounded, count, ← runs.length_calls valid returned, billed.calls_eq,
      List.length_append]
    cases rejected with
    | none => exact ⟨nofun, fun _ => rfl⟩
    | some => exact ⟨fun _ => rfl, fun none => absurd rfl none⟩
  · have writes : (report env budgets job w).writes =
        saved (savedBy before) ++ (t, .error e) :: after.filterMap Event.write? := by
      rw [Report.writes_eq, split, List.filterMap_append, List.filterMap_cons, Event.write?_wrote,
        savedBy, ← eq_saved kept]
    refine .inr ⟨before, t, e, after, split, kept, ?_, (runs.written valid).after_failure writes,
      fun forward => ?_⟩
    · have orderly := runs.guarded.orderly
      rw [split, List.pairwise_append, List.pairwise_cons] at orderly
      exact List.filterMap_eq_nil_iff.mpr fun later member => orderly.2.1.1 later member trivial
    · exact (report_runs_forward env budgets job forward).first_failure_unfailed valid named bounded
        writes

/-- In a rehearsal whose third write fails, one call having failed, the first two states are saved
and then the failed one. -/
theorem rehearsal_saves_chain :
    let report := report World.environment .rehearsal .rehearsal
      (.rehearsal [.ok (3, 4), .error "no answer", .ok (5, 6)] (.only 2))
    (∃ chain ended, Chained .rehearsal report chain ended) ∧
    ∃ before t e after f, report.events = before ++ .wrote t (.error e) :: after ∧
      after.filterMap Event.write? = [(f, .ok ())] ∧ f.status = .failed := by
  intro report
  have bounded : Budgets.rehearsal.maxTokens.toNat < greatestCount := by decide
  have lost : ¬∀ write ∈ report.writes, write.2 = .ok () := by decide +kernel
  have noted : ∀ write ∈ report.writes, write.1.status = .failed → write.2 = .ok () := by
    decide +kernel
  obtain ⟨-, chained, s, -, ⟨kept, -⟩ | ⟨before, t, e, after, split, -, -, attempt, -⟩⟩ :=
    execute_saves_chain Job.rehearsal_valid (by decide) bounded _
  · exact absurd kept lost
  · have writes : report.writes =
        before.filterMap Event.write? ++ (t, .error e) :: after.filterMap Event.write? := by
      rw [Report.writes_eq, split, List.filterMap_append]
      rfl
    rw [writes, List.forall_mem_append, List.forall_mem_cons] at noted
    obtain ⟨-, first, later⟩ := noted
    obtain ⟨f, result, last, failed⟩ := attempt fun status => nomatch first status
    rw [last, List.forall_mem_singleton] at later
    cases later failed
    exact ⟨chained, before, t, e, after, f, split, last, failed⟩

end Engine

end BudgetedRun
