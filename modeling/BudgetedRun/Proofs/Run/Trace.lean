import BudgetedRun.Proofs.Run.Consistency
import BudgetedRun.Proofs.Run.Progress
import Mathlib

/-!
# Traces of transitions

The transitions of a run's state in any order, those included that no run makes. Along every trace a
state only goes up in the order of progress, the first end is final, and nothing goes wrong but,
perhaps, the tokens: whether they do depends on what the tokens of all finished steps sum up to
(`RunState.after_in_order`).
-/

namespace BudgetedRun

namespace StepOutcome

/-- How many steps are done by it. -/
def steps : StepOutcome → Nat
  | succeeded _ _ => 1
  | _ => 0

/-- The tokens read for a step that is done. -/
def tokensRead : StepOutcome → Nat
  | succeeded input _ => input.toNat
  | _ => 0

/-- The tokens written in a step that is done. -/
def tokensWritten : StepOutcome → Nat
  | succeeded _ output => output.toNat
  | _ => 0

end StepOutcome

/-- One thing that can happen to the state of a run. -/
inductive Transition where
  | advance (stepId : String) (outcome : StepOutcome) (now : Timestamp)
  | complete (now : Timestamp)
  | stop (decision : StopDecision) (now : Timestamp)
  | fail (message : String) (now : Timestamp)
deriving DecidableEq

namespace Transition

def time : Transition → Timestamp
  | advance _ _ now => now
  | complete now => now
  | stop _ now => now
  | fail _ now => now

/-- It is one of the three ends of a run. -/
def ends : Transition → Bool
  | advance .. => false
  | _ => true

def apply (s : RunState) : Transition → RunState
  | advance stepId outcome now => s.advance stepId outcome now
  | complete now => s.complete now
  | stop decision now => s.stop decision now
  | fail message now => s.fail message now

/-- The outcomes of a trace up to its first end. -/
def outcomes : List Transition → List StepOutcome
  | advance _ outcome _ :: rest => outcome :: outcomes rest
  | _ => []

/-- How many steps are done in a trace up to its first end. -/
def stepsDone (trace : List Transition) : Nat := ((outcomes trace).map StepOutcome.steps).sum

/-- The tokens read for the steps that are done in a trace up to its first end. -/
def tokensRead (trace : List Transition) : Nat := ((outcomes trace).map StepOutcome.tokensRead).sum

/-- The tokens written in the steps that are done in a trace up to its first end. -/
def tokensWritten (trace : List Transition) : Nat :=
  ((outcomes trace).map StepOutcome.tokensWritten).sum

variable {rest : List Transition}

/-- A transition ends the run or advances it. -/
theorem ends_or_advance (t : Transition) :
    t.ends = true ∨ ∃ stepId o now, t = advance stepId o now := by
  cases t with
  | advance stepId o now => exact .inr ⟨stepId, o, now, rfl⟩
  | complete => exact .inl rfl
  | stop => exact .inl rfl
  | fail => exact .inl rfl

/-- No outcome counts after the end of a run. -/
theorem outcomes_of_ends {t : Transition} (ends : t.ends = true) : outcomes (t :: rest) = [] := by
  cases t with
  | advance => cases ends
  | complete => rfl
  | stop => rfl
  | fail => rfl

theorem stepsDone_advance (stepId : String) (o : StepOutcome) (now : Timestamp) :
    stepsDone (advance stepId o now :: rest) = o.steps + stepsDone rest := by
  simp [stepsDone, outcomes]

theorem tokensRead_advance (stepId : String) (o : StepOutcome) (now : Timestamp) :
    tokensRead (advance stepId o now :: rest) = o.tokensRead + tokensRead rest := by
  simp [tokensRead, outcomes]

theorem tokensWritten_advance (stepId : String) (o : StepOutcome) (now : Timestamp) :
    tokensWritten (advance stepId o now :: rest) = o.tokensWritten + tokensWritten rest := by
  simp [tokensWritten, outcomes]

end Transition

namespace RunState

open Transition

variable {s : RunState} {t : Transition} {trace earlier later : List Transition}

/-- The state after a trace. -/
def after (s : RunState) (trace : List Transition) : RunState := trace.foldl Transition.apply s

theorem after_cons (s : RunState) (t : Transition) (trace : List Transition) :
    s.after (t :: trace) = (t.apply s).after trace := rfl

theorem after_append (s : RunState) (earlier later : List Transition) :
    s.after (earlier ++ later) = (s.after earlier).after later := List.foldl_append

/-- Nothing happens to a state that is over. -/
theorem apply_of_isTerminal (terminal : s.isTerminal = true) : t.apply s = s := by
  cases t with
  | advance stepId outcome now => exact if_pos terminal
  | complete now => exact if_pos terminal
  | stop decision now => exact if_pos terminal
  | fail message now => exact if_pos terminal

/-- A final state stays as it is. -/
theorem after_of_isTerminal (terminal : s.isTerminal = true) : s.after trace = s := by
  induction trace with
  | nil => rfl
  | cons t trace ih => rw [after_cons, apply_of_isTerminal terminal, ih]

/-- After an end a state is over, whatever it was before. -/
theorem isTerminal_apply (ends : t.ends = true) : (t.apply s).isTerminal = true := by
  by_cases running : s.status = .running
  · cases t with
    | advance => cases ends
    | complete now =>
        rw [apply, complete_of_running running]
        rfl
    | stop decision now =>
        rw [apply, stop_of_running running]
        rfl
    | fail message now =>
        rw [apply, fail_of_running running]
        rfl
  · have terminal : s.isTerminal = true := by
      unfold isTerminal
      cases status : s.status with
      | running => exact absurd status running
      | completed => rfl
      | stopped => rfl
      | failed => rfl
    rw [apply_of_isTerminal terminal]
    exact terminal

/-- Nothing after the end of a run changes its state. -/
theorem after_cons_of_ends (ends : t.ends = true) : s.after (t :: later) = t.apply s :=
  after_of_isTerminal (isTerminal_apply ends)

namespace Framed

/-- A running state has no reason to stop. -/
theorem stopReason_eq (framed : s.Framed) (running : s.status = .running) :
    s.stopReason = none := by
  have fits := framed.stopReason
  unfold stopReasonViolations at fits
  cases reason : s.stopReason with
  | none => rfl
  | some reason' => simp [running, reason] at fits

/-- A running state has no end. -/
theorem endTime_eq (framed : s.Framed) (running : s.status = .running) : s.endTime = none := by
  have fits := framed.endTime
  unfold endTimeViolations isTerminal at fits
  cases ended : s.endTime with
  | none => rfl
  | some time => simp [running, ended, RunStatus.isTerminal] at fits

/-- An iteration keeps all but the tokens consistent. -/
theorem advance (framed : s.Framed) (running : s.status = .running) (stepId : String)
    (o : StepOutcome) (now : Timestamp) : (s.advance stepId o now).Framed := by
  obtain ⟨runId, planId, status, stopReason, -, endTime, -⟩ := advance_frame running stepId o now
  apply Framed.of_running status
  · exact runId ▸ framed.runId
  · exact planId ▸ framed.planId
  · exact stopReason.trans (framed.stopReason_eq running)
  · exact endTime.trans (framed.endTime_eq running)

/-- An end that is not before the start keeps all but the tokens consistent. -/
theorem apply_end (framed : s.Framed) (running : s.status = .running) (ends : t.ends = true)
    (inOrder : s.startTime ≤ t.time) : (t.apply s).Framed := by
  have unstopped := framed.stopReason_eq running
  cases t with
  | advance => cases ends
  | complete now =>
      rw [apply, complete_of_running running]
      refine .of_terminal rfl framed.runId framed.planId ?_ rfl inOrder
      simp [unstopped]
  | stop decision now =>
      rw [apply, stop_of_running running]
      exact .of_terminal rfl framed.runId framed.planId (iff_of_true rfl rfl) rfl inOrder
  | fail message now =>
      rw [apply, fail_of_running running]
      refine .of_terminal rfl framed.runId framed.planId ?_ rfl inOrder
      simp [unstopped]

end Framed

/-- The end of a run uses no tokens. -/
theorem tokenUsage_apply_end (running : s.status = .running) (ends : t.ends = true) :
    (t.apply s).tokenUsage = s.tokenUsage := by
  cases t with
  | advance => cases ends
  | complete now => rw [apply, complete_of_running running]
  | stop decision now => rw [apply, stop_of_running running]
  | fail message now => rw [apply, fail_of_running running]

/-- All but the tokens of a state is consistent, and its usage stands for some tokens read and some
written. -/
structure Booked (read written : Nat) (s : RunState) : Prop where
  framed : s.Framed
  counts : s.tokenUsage.Counts read written

variable {read written : Nat}

namespace Booked

/-- A consistent state stands for the tokens that it shows. -/
theorem of_consistent (consistent : s.violations = []) :
    s.Booked s.tokenUsage.input.toNat s.tokenUsage.output.toNat := by
  have inputBound := toNat_le_greatestCount s.tokenUsage.input
  have outputBound := toNat_le_greatestCount s.tokenUsage.output
  have totalBound := toNat_le_greatestCount s.tokenUsage.total
  simp only [violations, List.append_eq_nil_iff, flag_eq_nil_iff, not_not] at consistent
  obtain ⟨⟨⟨⟨runId, planId⟩, sum⟩, stopReason⟩, endTime⟩ := consistent
  refine ⟨⟨runId, planId, stopReason, endTime⟩, ?_, ?_, ?_⟩ <;> omega

/-- What is wrong with the tokens of a state, if anything is. -/
theorem violations_eq (booked : s.Booked read written) :
    s.violations =
      if greatestCount < min read greatestCount + min written greatestCount then
        [.totalMismatch s.tokenUsage]
      else [] := by
  rw [booked.framed.violations_eq, flag]
  by_cases beyond : greatestCount < min read greatestCount + min written greatestCount
  · rw [if_pos beyond, if_pos (booked.counts.mismatch_iff.mpr beyond)]
  · rw [if_neg beyond, if_neg (mt booked.counts.mismatch_iff.mp beyond)]

/-- A step that is advanced books its tokens. -/
theorem advance (booked : s.Booked read written) (running : s.status = .running) (stepId : String)
    (o : StepOutcome) (now : Timestamp) :
    (s.advance stepId o now).Booked (read + o.tokensRead) (written + o.tokensWritten) := by
  refine ⟨booked.framed.advance running stepId o now, ?_⟩
  cases o with
  | succeeded input output =>
      rw [advance_succeeded running]
      exact booked.counts.add input output
  | failed message =>
      rw [advance_failed running]
      exact booked.counts
  | overBudget input output =>
      rw [advance_overBudget running]
      exact booked.counts

/-- Along a trace from a running state the tokens of the steps that are done add up, and nothing
else can go wrong. -/
theorem after (booked : s.Booked read written) (running : s.status = .running)
    (inOrder : ∀ t ∈ trace, s.startTime ≤ t.time) :
    (s.after trace).Booked (read + tokensRead trace) (written + tokensWritten trace) := by
  induction trace generalizing s read written with
  | nil => exact booked
  | cons t rest ih =>
      obtain ⟨first, later⟩ := List.forall_mem_cons.mp inOrder
      obtain ends | ⟨stepId, o, now, rfl⟩ := t.ends_or_advance
      · rw [after_cons_of_ends ends, tokensRead, tokensWritten, outcomes_of_ends ends]
        refine ⟨booked.framed.apply_end running ends first, ?_⟩
        rw [tokenUsage_apply_end running ends]
        exact booked.counts
      · have later' : ∀ t ∈ rest, (s.advance stepId o now).startTime ≤ t.time := by
          rw [advance_startTime]
          exact later
        have running' := (advance_frame running stepId o now).2.2.1
        have further := ih (booked.advance running stepId o now) running' later'
        rw [tokensRead_advance, tokensWritten_advance, ← Nat.add_assoc, ← Nat.add_assoc]
        exact further

end Booked

/-- The index goes up by the step that is done, as long as it can be counted. -/
theorem toNat_index_advance (running : s.status = .running) (stepId : String) (o : StepOutcome)
    (now : Timestamp) (within : s.currentStepIndex.toNat + o.steps < UInt64.size) :
    (s.advance stepId o now).currentStepIndex.toNat = s.currentStepIndex.toNat + o.steps := by
  cases o with
  | succeeded input output =>
      have one : (1 : UInt64).toNat = 1 := rfl
      rw [advance_succeeded running, UInt64.toNat_add, one]
      exact Nat.mod_eq_of_lt within
  | failed message => rw [advance_failed running]; rfl
  | overBudget input output => rw [advance_overBudget running]; rfl

namespace Extends

/-- A step that is advanced extends the state, if it can still be counted. -/
theorem advance (counts : s.tokenUsage.Counts read written) (running : s.status = .running)
    (stepId : String) (o : StepOutcome) (now : Timestamp)
    (within : s.currentStepIndex.toNat + o.steps < UInt64.size) :
    s.Extends (s.advance stepId o now) := by
  have index := toNat_index_advance running stepId o now within
  cases o with
  | failed message => exact advance_failed running stepId message
  | overBudget input output => exact advance_overBudget running stepId input output
  | succeeded input output =>
      have more := counts.add input output
      rw [advance_succeeded running] at index ⊢
      refine { refl s with
        index := ?_, iterations := le_nextIteration _, input := ?_, output := ?_, total := ?_ }
      · rw [UInt64.le_iff_toNat_le, index]
        exact Nat.le_add_right _ _
      · rw [UInt64.le_iff_toNat_le, counts.input, more.input]
        omega
      · rw [UInt64.le_iff_toNat_le, counts.output, more.output]
        omega
      · rw [UInt64.le_iff_toNat_le, counts.total, more.total]
        omega

/-- The end of a run extends its state. -/
theorem apply_end (running : s.status = .running) (ends : t.ends = true) :
    s.Extends (t.apply s) := by
  cases t with
  | advance => cases ends
  | complete now => exact .complete running
  | stop decision now => exact .stop running decision
  | fail message now => exact .fail running message

/-- A running state is extended by all that happens to it, as long as its index can be counted. -/
theorem after (booked : s.Booked read written) (running : s.status = .running)
    (within : s.currentStepIndex.toNat + stepsDone trace < UInt64.size) :
    s.Extends (s.after trace) := by
  induction trace generalizing s read written with
  | nil => exact refl s
  | cons t rest ih =>
      obtain ends | ⟨stepId, o, now, rfl⟩ := t.ends_or_advance
      · rw [after_cons_of_ends ends]
        exact apply_end running ends
      · rw [stepsDone_advance, ← Nat.add_assoc] at within
        have first := Nat.lt_of_le_of_lt (Nat.le_add_right _ _) within
        rw [← toNat_index_advance running stepId o now first] at within
        have running' := (advance_frame running stepId o now).2.2.1
        have step := advance booked.counts running stepId o now first
        exact step.trans (ih (booked.advance running stepId o now) running' within)

/-- The states along a trace extend each other. -/
theorem after_append (booked : s.Booked read written) (running : s.status = .running)
    (within : s.currentStepIndex.toNat + stepsDone (earlier ++ later) < UInt64.size) :
    (s.after earlier).Extends (s.after (earlier ++ later)) := by
  induction earlier generalizing s read written with
  | nil => exact after booked running within
  | cons t rest ih =>
      obtain ends | ⟨stepId, o, now, rfl⟩ := t.ends_or_advance
      · rw [List.cons_append, after_cons_of_ends ends, after_cons_of_ends ends]
        exact refl _
      · rw [List.cons_append, stepsDone_advance, ← Nat.add_assoc] at within
        have first := Nat.lt_of_le_of_lt (Nat.le_add_right _ _) within
        rw [← toNat_index_advance running stepId o now first] at within
        have running' := (advance_frame running stepId o now).2.2.1
        exact ih (booked.advance running stepId o now) running' within

end Extends

/-- Whatever happens to a consistent running state, at times that are not before its start and as
long as its index can be counted: the states that it comes to belong to the same run, and none is
behind an earlier one or lacks an incident of it. After the first end nothing changes any more. A
state on the way is consistent but for the total of its tokens, which is not their sum exactly if
the tokens read and those written up to there, each cut off at the greatest count, are together
beyond it. -/
theorem after_in_order (running : s.status = .running) (consistent : s.violations = [])
    (inOrder : ∀ t ∈ trace, s.startTime ≤ t.time)
    (within : s.currentStepIndex.toNat + stepsDone trace < UInt64.size) :
    (∀ earlier later, trace = earlier ++ later → (s.after earlier).Extends (s.after trace)) ∧
    (∀ earlier t later, trace = earlier ++ t :: later → t.ends = true →
      (s.after (earlier ++ [t])).isTerminal = true ∧ s.after trace = s.after (earlier ++ [t])) ∧
    (s.after trace).violations =
      if greatestCount <
          min (s.tokenUsage.input.toNat + tokensRead trace) greatestCount +
            min (s.tokenUsage.output.toNat + tokensWritten trace) greatestCount then
        [.totalMismatch (s.after trace).tokenUsage]
      else [] := by
  have booked := Booked.of_consistent consistent
  refine ⟨?_, ?_, (booked.after running inOrder).violations_eq⟩
  · rintro earlier later rfl
    exact Extends.after_append booked running within
  · rintro earlier t later rfl ends
    have terminal : (s.after (earlier ++ [t])).isTerminal = true := by
      rw [after_append]
      exact isTerminal_apply ends
    refine ⟨terminal, ?_⟩
    rw [after_append, after_append, after_cons_of_ends ends]
    rfl

/-- Two steps whose tokens are together beyond the greatest count leave a state whose total is
wrong. Its end keeps it so, and a failure after the end changes nothing. -/
theorem overfull_after_in_order :
    let now : Timestamp := ⟨⟨2025, 1, 1⟩, ⟨6, 0, 0, 0⟩, by decide, by decide⟩
    let s := RunState.start "run" "plan" now
    let steps : List Transition :=
      [.advance "a" (.succeeded 0xFFFFFFFFFFFFFFFF 0) now, .advance "b" (.failed "no answer") now,
        .advance "b" (.succeeded 0 1) now]
    let trace := steps ++ [.complete now, .fail "too late" now]
    s.Extends (s.after trace) ∧ s.after trace = s.after (steps ++ [.complete now]) ∧
      (s.after trace).violations = [.totalMismatch (s.after trace).tokenUsage] := by
  intro now s steps trace
  have inOrder : ∀ t ∈ trace, s.startTime ≤ t.time := by decide
  have within : s.currentStepIndex.toNat + stepsDone trace < UInt64.size := by decide
  obtain ⟨further, final, wrong⟩ := after_in_order rfl rfl inOrder within
  have beyond : greatestCount <
      min (s.tokenUsage.input.toNat + tokensRead trace) greatestCount +
        min (s.tokenUsage.output.toNat + tokensWritten trace) greatestCount := by decide
  rw [if_pos beyond] at wrong
  exact ⟨further [] trace rfl, (final steps (.complete now) [.fail "too late" now] rfl rfl).2,
    wrong⟩

end RunState

end BudgetedRun
