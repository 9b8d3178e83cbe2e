import BudgetedRun.Proofs.Engine.Soundness

/-!
# The turns of a run come to an end

`Engine.turns` takes a number of turns that it does not go beyond. `Engine.Loops` is the loop
without such a number: turn after turn until one of them is the last. From the first state of a run,
whatever its surroundings do, this loop ends, and the number that a run begins with is never used
up before. Each turn but the last uses up one of the iterations that the budgets allow.
-/

namespace BudgetedRun

namespace Engine

open History

variable {σ : Type}

/-- Turn after turn, until one of them is the last. -/
inductive Loops (env : Environment (StateM σ)) (budgets : Budgets) (job : Job)
    (started : Duration) : RunState → σ → (Ending × List Event) × σ → Prop where
  | last {s : RunState} {w w' : σ} {ending : Ending} {events : List Event}
      (turned : (turn env budgets job started s).run w = ((.last ending, events), w')) :
      Loops env budgets job started s w ((ending, events), w')
  | next {s s' : RunState} {w w' w'' : σ} {ending : Ending} {events more : List Event}
      (turned : (turn env budgets job started s).run w = ((.next s', events), w'))
      (rest : Loops env budgets job started s' w' ((ending, more), w'')) :
      Loops env budgets job started s w ((ending, events ++ more), w'')

variable {env : Environment (StateM σ)} {budgets : Budgets} {job : Job} {started : Duration}
  {s s' : RunState} {w w' : σ} {events : List Event}

/-- A last turn is the end, however many turns are left. -/
theorem turns_succ_of_last {ending : Ending} (n : Nat)
    (turned : (turn env budgets job started s).run w = ((.last ending, events), w')) :
    (turns env budgets job started (n + 1) s).run w = ((ending, events), w') := by
  rw [turns, StateT.run_bind, turned]
  rfl

/-- Another turn is followed by the turns that are left. -/
theorem turns_succ_of_next (n : Nat)
    (turned : (turn env budgets job started s).run w = ((.next s', events), w')) :
    (turns env budgets job started (n + 1) s).run w =
      let ((ending, more), w'') := (turns env budgets job started n s').run w'
      ((ending, events ++ more), w'') := by
  rw [turns, StateT.run_bind, turned]
  rfl

/-- With more turns than there are iterations left, the turns of a run are the whole loop. -/
theorem loops_turns {n : Nat} (underway : Underway job s)
    (enough : budgets.maxIterations.toNat < s.iterationCount.toNat + n)
    (within : s.iterationCount ≤ budgets.maxIterations) :
    Loops env budgets job started s w ((turns env budgets job started n s).run w) := by
  induction n generalizing s w with
  | zero =>
      rw [UInt32.le_iff_toNat_le] at within
      omega
  | succ n ih =>
      have turns : Turns (fun _ _ => True) budgets job s
          ((turn env budgets job started s).run w).1.1
          ((turn env budgets job started s).run w).1.2 :=
        (keeps_turn env.respects_true w trivial).1
      rcases turned : (turn env budgets job started s).run w with ⟨⟨after, events⟩, w'⟩
      rw [turned] at turns
      cases after with
      | last ending =>
          rw [turns_succ_of_last n turned]
          exact .last turned
      | next s' =>
          rw [turns_succ_of_next n turned]
          cases turns with
          | next iterates notOver consistent =>
              obtain ⟨further, counted, below⟩ := iterates.underway underway
              exact .next turned (ih further (by omega) below)

end Engine

end BudgetedRun
