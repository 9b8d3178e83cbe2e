import BudgetedRun.Proofs.Engine.Answers
import BudgetedRun.Proofs.Engine.Course
import BudgetedRun.Proofs.Engine.Simulation

/-!
# Cancelled runs

A run that is cancelled is the beginning of the one that is not: it makes the same calls up to the
one in which somebody wanted it to end, and gives back the state that the other saves then, stopped.
-/

namespace BudgetedRun

namespace History

variable {clock : Timestamp → Timestamp → Prop} {budgets : Budgets} {job : Job} {s : RunState}
  {events : List Event} {boundary : Boundary} {request : Request}

/-- A run has saved one state for each of its calls when it comes to a running state. -/
theorem Arrives.length_savedBy (arrives : Arrives clock budgets job s events) :
    (savedBy events).length = (events.filterMap Event.call?).length := by
  induction arrives with
  | start entry =>
      obtain ⟨e, rfl⟩ := entry.exists_logged
      rfl
  | next arrives consistent iterates within ih =>
      rw [iterates.savedBy_eq, Event.calls_append_write, List.length_append, List.length_append, ih]
      cases iterates with
      | intro due allowed judges reading entry =>
          obtain ⟨e, rfl⟩ := entry.exists_logged
          rfl

/-- The state from which a call is made is the one that was saved after as many calls. -/
theorem Departs.written (departs : Departs clock budgets job events s boundary request) :
    (events.filterMap Event.write?)[(events.filterMap Event.call?).length]? = some (s, .ok ()) := by
  cases departs with
  | @intro earlier s boundary step arrives consistent due allowed =>
      have length : (saved (savedBy earlier)).length = (earlier.filterMap Event.call?).length := by
        rw [saved, List.length_map, arrives.length_savedBy]
      rw [Event.calls_append_wrote, List.filterMap_append, arrives.saved_writes, ← length]
      exact List.getElem?_concat_length

/-- A state from which a call is made counts the calls before. -/
theorem Departs.iterations_eq (departs : Departs clock budgets job events s boundary request) :
    s.iterationCount.toNat = (events.filterMap Event.call?).length := by
  obtain ⟨earlier, arrives, calls⟩ := departs.calls_eq
  rw [calls]
  exact arrives.accounts.iterations

end History

namespace Engine

open History

variable {σ τ : Type} {env : Environment (StateM σ)} {env' : Environment (StateM τ)} {w : σ} {v : τ}
  {budgets : Budgets} {job : Job} {answers : Nat → Request → Answer} {wish wish' : Nat → Bool}

/-- Runs with the same answers that make equally many calls make the same ones. Without a time limit
they come to the same. -/
theorem same_result_of_length_eq (valid : job.plan.validate = .ok ())
    (unlimited : budgets.timeLimit = none) (plays : env.Plays answers wish w)
    (forward : env.Forward w) (plays' : env'.Plays answers wish' v) (forward' : env'.Forward v)
    (equal : (report env budgets job w).calls.length = (report env' budgets job v).calls.length) :
    (report env budgets job w).calls = (report env' budgets job v).calls ∧
      SameResult (report env budgets job w).result (report env' budgets job v).result := by
  have runs := report_runs_forward env budgets job forward
  have runs' := report_runs_forward env' budgets job forward'
  have same := runs.take_calls_eq runs' (report_follows plays valid) (report_follows plays' valid)
    (Nat.le_refl _) (Nat.le_of_eq equal)
  rw [List.take_length, equal, List.take_length] at same
  exact ⟨same, (runs.ends valid (report_kept plays valid)).same_result
    (runs'.ends valid (report_kept plays' valid)) same unlimited⟩

/-- A run that ends before another one with the same answers does, without a time limit, was
cancelled, in a state like the one that the other saves after as many calls. -/
theorem cancelled_of_shorter (valid : job.plan.validate = .ok ())
    (unlimited : budgets.timeLimit = none) (plays : env.Plays answers wish w)
    (forward : env.Forward w) (plays' : env'.Plays answers wish' v)
    (shorter : (report env budgets job w).calls.length < (report env' budgets job v).calls.length) :
    let short := report env budgets job w
    let long := report env' budgets job v
    wish short.calls.length = true ∧ short.calls = long.calls.take short.calls.length ∧
      ∃ last t now, Underway job last ∧ last.Alike t ∧
        t.iterationCount.toNat = short.calls.length ∧
        long.writes[short.calls.length]? = some (t, .ok ()) ∧
        short.result = .ok (last.stop ⟨.cancelled, some "run cancelled"⟩ now) := by
  intro short long
  have runs : Runs (fun start now => start ≤ now) budgets job short :=
    report_runs_forward env budgets job forward
  have runs' : Runs (fun _ _ => True) budgets job long := report_runs env' budgets job v
  have same : short.calls = long.calls.take short.calls.length := by
    have take := runs.take_calls_eq runs' (report_follows plays valid)
      (report_follows plays' valid) (Nat.le_refl short.calls.length) (Nat.le_of_lt shorter)
    rwa [List.take_length] at take
  -- The longer run goes on with a call where the shorter one ends.
  obtain ⟨⟨request, answer⟩, later, split, -⟩ := exists_eq_take_append shorter
  obtain ⟨before, t, boundary, after, place, calls⟩ := Event.exists_called split
  have departs := runs'.departures before t boundary request answer after place
  have number : (before.filterMap Event.call?).length = short.calls.length := by
    rw [calls, List.length_take_of_le (Nat.le_of_lt shorter)]
  have ends := runs.ends valid (report_kept plays valid)
  obtain ⟨last, now, underway, alike, finished⟩ :=
    ends.cancelled_of_departs unlimited departs (same.trans calls.symm)
  refine ⟨report_wished plays valid finished ?_, same, last, t, now, underway, alike,
    departs.iterations_eq.trans number, ?_, finished⟩
  · rw [RunState.stop_of_running underway.running]
  · have written := departs.written
    obtain ⟨inside, -⟩ := List.getElem?_eq_some_iff.mp written
    rw [Report.writes_eq, place, List.filterMap_append, ← number,
      List.getElem?_append_left inside, written]

/-- A run that somebody wants to end from some call on is cut off cleanly. If the same run comes to
its end by itself with no more calls, both come to the same. Otherwise it makes just as many calls,
and is stopped in the state that the other run saves after these, with one incident more. The time
of day must not go back in either run. -/
theorem execute_cancelled_cleanly {n : Nat} (valid : job.plan.validate = .ok ())
    (unlimited : budgets.timeLimit = none) (plays : env.Plays answers (fun _ => false) w)
    (forward : env.Forward w) (plays' : env'.Plays answers (fun k => decide (n ≤ k)) v)
    (forward' : env'.Forward v) :
    let whole := report env budgets job w
    let cut := report env' budgets job v
    (whole.calls.length ≤ n → cut.calls = whole.calls ∧ SameResult cut.result whole.result) ∧
    (n < whole.calls.length →
      cut.calls.length = n ∧ cut.calls = whole.calls.take n ∧
      ∃ s t, cut.result = .ok s ∧ s.status = .stopped ∧ s.stopReason = some .cancelled ∧
        whole.writes[n]? = some (t, .ok ()) ∧ t.iterationCount.toNat = n ∧
        s.currentStepIndex = t.currentStepIndex ∧ s.iterationCount = t.iterationCount ∧
        s.tokenUsage = t.tokenUsage ∧
        s.errors.map Incident.note =
          t.errors.map Incident.note ++ [⟨none, "run cancelled", false⟩]) := by
  intro whole cut
  have few : cut.calls.length ≤ n := by
    by_contra more
    have unwished := report_unwished plays' valid (Nat.not_le.mp more)
    exact of_decide_eq_false unwished (Nat.le_refl n)
  constructor
  · intro ended
    have notShorter : ¬cut.calls.length < whole.calls.length := by
      intro shorter
      obtain ⟨wished, -⟩ := cancelled_of_shorter valid unlimited plays' forward' plays shorter
      have reached : n ≤ cut.calls.length := of_decide_eq_true wished
      omega
    have notLonger : ¬whole.calls.length < cut.calls.length := by
      intro longer
      obtain ⟨wished, -⟩ := cancelled_of_shorter valid unlimited plays forward plays' longer
      cases wished
    exact same_result_of_length_eq valid unlimited plays' forward' plays forward
      (Nat.le_antisymm (Nat.not_lt.mp notLonger) (Nat.not_lt.mp notShorter))
  · intro goesOn
    have shorter : cut.calls.length < whole.calls.length := Nat.lt_of_le_of_lt few goesOn
    obtain ⟨wished, same, last, t, now, underway, alike, iterations, written, finished⟩ :=
      cancelled_of_shorter valid unlimited plays' forward' plays shorter
    obtain rfl : n = cut.calls.length := Nat.le_antisymm (of_decide_eq_true wished) few
    refine ⟨rfl, same, _, t, finished, ?_⟩
    rw [RunState.stop_of_running underway.running]
    refine ⟨rfl, rfl, written, iterations, alike.index, alike.iterations, alike.usage, ?_⟩
    rw [List.map_append, alike.notes]
    rfl

/-- A rehearsal that somebody wants to end in its second call, which fails, is stopped after it. -/
theorem rehearsal_cancelled_cleanly :
    let script : Script := [.ok (3, 4), .error "no answer", .ok (5, 6)]
    let whole := report World.environment .rehearsal .rehearsal (.rehearsal script .none)
    let cut := report World.environment .rehearsal .rehearsal
      { World.rehearsal script .none with cancelOnCall := some 2 }
    whole.calls.length = 3 ∧ cut.calls.length = 2 ∧
      ∃ s t, cut.result = .ok s ∧ s.stopReason = some .cancelled ∧
        whole.writes[2]? = some (t, .ok ()) ∧ s.tokenUsage = t.tokenUsage := by
  intro script whole cut
  have scripted : World.Scripted script none none 0 (.rehearsal script .none) :=
    ⟨rfl, rfl, rfl, rfl, rfl, rfl, rfl, rfl⟩
  have scripted' : World.Scripted script none (some 2) 0
      { World.rehearsal script .none with cancelOnCall := some 2 } :=
    ⟨rfl, rfl, rfl, rfl, rfl, rfl, rfl, rfl⟩
  have forward' : World.environment.Forward
      { World.rehearsal script .none with cancelOnCall := some 2 } := by
    apply World.environment_forward
    intro i j _
    exact Timestamp.le_refl World.dawn
  have three : whole.calls.length = 3 := by decide +kernel
  have unlimited : Budgets.rehearsal.timeLimit = none := rfl
  obtain ⟨-, goesOn⟩ := execute_cancelled_cleanly Job.rehearsal_valid unlimited scripted.plays
    (World.rehearsal_forward _ _) scripted'.plays forward'
  have more : 2 < whole.calls.length := by
    rw [three]
    decide
  obtain ⟨two, -, s, t, finished, -, reason, written, -, -, -, usage, -⟩ := goesOn more
  exact ⟨three, two, s, t, finished, reason, written, usage⟩

end Engine

end BudgetedRun
