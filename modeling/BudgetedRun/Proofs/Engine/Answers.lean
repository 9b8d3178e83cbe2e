import BudgetedRun.Proofs.Engine.Determinism
import BudgetedRun.Proofs.Engine.Effects
import BudgetedRun.Proofs.Engine.Gate
import BudgetedRun.Proofs.Engine.Simulation

/-!
# Surroundings that follow a script

In some surroundings the answers and the wish to cancel depend on nothing but how many calls there
were before, and every state is saved (`Environment.Plays`). The calls of a run in them have these
answers, it calls only as long as nobody wants it to end, and it is cancelled only if somebody does
(`Engine.wished_of_cancelled`).
-/

namespace BudgetedRun

variable {σ : Type}

namespace Environment

/-- The worlds that surroundings can be brought to with so many calls. -/
inductive After (env : Environment (StateM σ)) (w : σ) : Nat → σ → Prop where
  | refl : After env w 0 w
  | now {n : Nat} {w' : σ} : After env w n w' → After env w n (env.now.run w').2
  | steady {n : Nat} {w' : σ} : After env w n w' → After env w n (env.steady.run w').2
  | cancelled {n : Nat} {w' : σ} : After env w n w' → After env w n (env.cancelled.run w').2
  | call {n : Nat} {w' : σ} (request : Request) :
      After env w n w' → After env w (n + 1) ((env.call request).run w').2
  | save {n : Nat} {w' : σ} (s : RunState) :
      After env w n w' → After env w n ((env.save s).run w').2

/-- Answers and the wish to cancel go by the number of calls before, and every state is saved. -/
structure Plays (env : Environment (StateM σ)) (answers : Nat → Request → Answer)
    (wish : Nat → Bool) (w : σ) : Prop where
  answered : ∀ n w' request, env.After w n w' → ((env.call request).run w').1 = answers n request
  wished : ∀ n w', env.After w n w' → (env.cancelled.run w').1 = wish n
  saved : ∀ n w' s, env.After w n w' → ((env.save s).run w').1 = .ok ()

variable {env : Environment (StateM σ)} {answers : Nat → Request → Answer} {wish : Nat → Bool}
  {w w' : σ} {n : Nat}

/-- To read the steady clock is no call. -/
theorem After.of_steady (after : env.After (env.steady.run w).2 n w') : env.After w n w' := by
  induction after with
  | refl => exact .steady .refl
  | now _ ih => exact ih.now
  | steady _ ih => exact ih.steady
  | cancelled _ ih => exact ih.cancelled
  | call request _ ih => exact ih.call request
  | save s _ ih => exact ih.save s

/-- Surroundings that play answers still do so after the steady clock was read. -/
theorem Plays.steady (plays : env.Plays answers wish w) :
    env.Plays answers wish (env.steady.run w).2 where
  answered n w' request after := plays.answered n w' request after.of_steady
  wished n w' after := plays.wished n w' after.of_steady
  saved n w' s after := plays.saved n w' s after.of_steady

end Environment

namespace Effects

open History

variable {env : Environment (StateM σ)} {answers : Nat → Request → Answer} {wish : Nat → Bool}
  {started : Duration} {w w' : σ} {events : List Event}

/-- Events lead to a world that comes after so many calls as are among them. -/
theorem after (effects : Effects env started w events w') :
    env.After w (events.filterMap Event.call?).length w' := by
  induction effects with
  | refl => exact .refl
  | now _ ih => exact ih.now
  | steady _ ih => exact ih.steady
  | cancelled _ ih => exact ih.cancelled
  | logged _ entry timestamp ih =>
      rw [List.filterMap_append, List.length_append]
      exact ih.now
  | called _ reading s request ih =>
      obtain rfl := congrArg Prod.snd reading
      rw [List.filterMap_append, List.length_append]
      exact ih.cancelled.steady.call request
  | wrote _ s ih =>
      rw [List.filterMap_append, List.length_append]
      exact ih.save s

/-- Where all states are saved, all writes among the events succeed. -/
theorem kept (effects : Effects env started w events w') (plays : env.Plays answers wish w) :
    ∀ write ∈ events.filterMap Event.write?, write.2 = .ok () := by
  induction effects with
  | refl => exact List.forall_mem_nil _
  | now _ ih => exact ih
  | steady _ ih => exact ih
  | cancelled _ ih => exact ih
  | logged _ entry timestamp ih =>
      rw [List.filterMap_append, List.forall_mem_append]
      exact ⟨ih, List.forall_mem_nil _⟩
  | called _ reading s request ih =>
      rw [List.filterMap_append, List.forall_mem_append]
      exact ⟨ih, List.forall_mem_nil _⟩
  | wrote before s ih =>
      rw [List.filterMap_append, List.forall_mem_append]
      exact ⟨ih, List.forall_mem_singleton.mpr (plays.saved _ _ s before.after)⟩

/-- The calls among the events of a run are answered, and the wish to cancel read before them, as
their number says. -/
theorem called_eq (effects : Effects env started w events w') (plays : env.Plays answers wish w)
    {before after : List Event} {s : RunState} {boundary : Boundary} {request : Request}
    {answer : Answer} (split : events = before ++ .called s boundary request answer :: after) :
    answer = answers (before.filterMap Event.call?).length request ∧
      boundary.cancelled = wish (before.filterMap Event.call?).length := by
  induction effects generalizing after with
  | refl => exact absurd split.symm (List.append_ne_nil_of_right_ne_nil _ (List.cons_ne_nil _ _))
  | now _ ih => exact ih split
  | steady _ ih => exact ih split
  | cancelled _ ih => exact ih split
  | logged _ entry timestamp ih =>
      rcases eq_or_exists_of_append_singleton split with ⟨-, same, -⟩ | ⟨rest, inside⟩
      · cases same
      · exact ih inside
  | called earlier reading s request ih =>
      rcases eq_or_exists_of_append_singleton split with ⟨rfl, same, -⟩ | ⟨rest, inside⟩
      · cases same
        obtain rfl := congrArg Prod.snd reading
        have asked := earlier.after.cancelled.steady
        refine ⟨plays.answered _ _ _ asked, ?_⟩
        rw [← plays.wished _ _ earlier.after]
        exact congrArg (·.1.cancelled) reading.symm
      · exact ih inside
  | wrote _ s ih =>
      rcases eq_or_exists_of_append_singleton split with ⟨-, same, -⟩ | ⟨rest, inside⟩
      · cases same
      · exact ih inside

end Effects

/-- The run is to end because somebody wants it to. -/
def Ending.cancels : Ending → Bool
  | finish _ (.stop decision) => decide (decision.reason = .cancelled)
  | _ => false

/-- The run is to end after this turn because somebody wants it to. -/
def Turn.cancels : Turn → Bool
  | next _ => false
  | last ending => ending.cancels

/-- After some calls of a run, and before any other, somebody wants it to end. -/
def Wished (env : Environment (StateM σ)) (started : Duration) (w : σ) (calls : List Call) : Prop :=
  ∃ events w', Effects env started w events w' ∧ events.filterMap Event.call? = calls ∧
    (env.cancelled.run w').1 = true

namespace Leads

variable {α : Type} {pre : σ → Prop} {x : StateM σ α} {post post' : α → σ → Prop}

/-- What an action leads to in two ways it leads to in both. -/
theorem and (first : Leads pre x post) (second : Leads pre x post') :
    Leads pre x fun a w => post a w ∧ post' a w :=
  fun w holds => ⟨first w holds, second w holds⟩

/-- What an action gives from any world it gives from those of one kind. -/
theorem of_keeps {holds : α → Prop} (keeps : Keeps (fun _ => True) x holds) :
    Leads pre x fun a _ => holds a :=
  fun w _ => (keeps w trivial).1

end Leads

namespace Engine

open History

variable {env : Environment (StateM σ)} {started : Duration} {w : σ} {budgets : Budgets} {job : Job}
  {before : List Event} {s last : RunState} {how : Finish}

/-- No run is cancelled when a state is saved. -/
theorem keeps_checkpoint_uncancelled (s : RunState) (worked : List Event) :
    Keeps (fun _ => True) (checkpoint env budgets job s worked) fun r => r.1.cancels = false := by
  have saves : Keeps (fun _ => True) (persist env budgets job s s) fun _ => True :=
    fun _ _ => ⟨trivial, trivial⟩
  refine saves.bind fun saved _ => ?_
  obtain ⟨result, events⟩ := saved
  cases result with
  | ok _ => exact .pure rfl
  | error failure => exact .pure rfl

/-- Work on a step does not end a run by a wish. -/
theorem keeps_iterate_uncancelled (boundary : Boundary) (step : Step) :
    Keeps (fun _ => True) (iterate env budgets job s boundary step) fun r =>
      r.1.cancels = false := by
  refine (env.respects_true.keeps_call _).bind fun answer _ => ?_
  have settles : Keeps (fun _ => True) (settle env job s step.id (outcome budgets s answer))
      fun _ => True :=
    fun _ _ => ⟨trivial, trivial⟩
  refine settles.bind fun settled _ => ?_
  obtain ⟨s', noted⟩ := settled
  generalize outcome budgets s answer = o
  cases o with
  | overBudget input output => exact .pure rfl
  | succeeded input output => exact keeps_checkpoint_uncancelled _ _
  | failed message => exact keeps_checkpoint_uncancelled _ _

/-- A turn in which a run is cancelled has read the wish for it. -/
theorem leads_turn_wished (s : RunState) :
    Leads (Effects env started w before) (turn env budgets job started s) fun r _ =>
      r.1.cancels = true → Wished env started w ((before ++ r.2).filterMap Event.call?) := by
  unfold turn
  split
  · exact .pure fun _ _ => nofun
  · have reads : Leads (Effects env started w before) (readBoundary env started)
        fun boundary _ => boundary.cancelled = true →
          Wished env started w (before.filterMap Event.call?) :=
      fun w' effects wished => ⟨before, w', effects, rfl, wished⟩
    refine reads.bind fun boundary => ?_
    split
    · rename_i decision decided
      intro w'' wished cancels
      have reason : decision.reason = .cancelled := of_decide_eq_true cancels
      have cancelled : boundary.cancelled = true := by
        obtain ⟨-, rfl⟩ | ⟨-, rfl⟩ | ⟨limit, -, -, rfl⟩ | ⟨cancelled, -⟩ :=
          Budgets.checkStop_eq_some decided
        · cases reason
        · cases reason
        · cases reason
        · exact cancelled
      rw [List.filterMap_append]
      exact (List.append_nil (before.filterMap Event.call?)).symm ▸ wished cancelled
    · intro w'' _ cancels
      rw [(keeps_iterate_uncancelled boundary _ w'' trivial).1] at cancels
      cases cancels

/-- If a run is to end by a wish, somebody has that wish after its last call. -/
theorem leads_turns_wished (n : Nat) (s : RunState) :
    Leads (Effects env started w before) (turns env budgets job started n s) fun r _ =>
      r.1.cancels = true → Wished env started w ((before ++ r.2).filterMap Event.call?) := by
  induction n generalizing s before with
  | zero => exact .pure fun _ _ => nofun
  | succ n ih =>
      refine ((leads_turn s).and (leads_turn_wished s)).bind fun r => ?_
      obtain ⟨after, events⟩ := r
      cases after with
      | next s' =>
          refine Leads.strengthen ((ih s').bind fun r => .pure fun _ wished => ?_) fun _ => And.left
          rw [← List.append_assoc]
          exact wished
      | last ending => exact .pure fun _ both => both.2

/-- The turns of a run that goes on leave off in a state that goes on. -/
theorem keeps_turns_underway (n : Nat) (underway : Underway job s)
    (within : s.iterationCount ≤ budgets.maxIterations) :
    Keeps (fun _ => True) (turns env budgets job started n s) fun r =>
      ∀ last how, r.1 = .finish last how → Underway job last := by
  induction n generalizing s with
  | zero =>
      refine .pure fun last how same => ?_
      cases same
      exact underway
  | succ n ih =>
      have turned : Keeps (fun _ => True) (turn env budgets job started s) fun r =>
          Turns (fun _ _ => True) budgets job s r.1 r.2 :=
        keeps_turn env.respects_true
      refine turned.bind fun r turns => ?_
      obtain ⟨after, events⟩ := r
      cases turns with
      | next iterates notOver consistent =>
          obtain ⟨further, -, below⟩ := iterates.underway underway
          exact (ih further below).bind fun r holds => .pure holds
      | fail iterates notOver breaks =>
          refine .pure fun last how same => ?_
          cases same
      | finish leaves =>
          refine .pure fun last how same => ?_
          cases same
          exact (leaves.underway underway within).1

/-- A run that finishes with the reason that it was cancelled was to end by a wish. -/
theorem cancels_of_stopReason {now : Timestamp} (underway : Underway job last)
    (reason : (finishState last how now).stopReason = some .cancelled) :
    (Ending.finish last how).cancels = true := by
  cases how with
  | complete =>
      rw [finishState, RunState.complete_of_running underway.running] at reason
      cases underway.stopReason.symm.trans reason
  | stop decision =>
      rw [finishState, RunState.stop_of_running underway.running] at reason
      exact decide_eq_true (Option.some.inj reason)

/-- A report in which a run was cancelled comes after a wish for it. -/
def WishedFor (env : Environment (StateM σ)) (started : Duration) (w : σ) (before : List Event)
    (report : Report) : Prop :=
  ∀ s, report.result = .ok s → s.stopReason = some .cancelled →
    Wished env started w ((before ++ report.events).filterMap Event.call?)

/-- A run that leaves because somebody wants it to comes after a wish for it. -/
theorem keeps_conclude_wished {events : List Event} (underway : Underway job last)
    (wished : (Ending.finish last how).cancels = true →
      Wished env started w ((before ++ events).filterMap Event.call?)) :
    Keeps (fun _ => True) (conclude env budgets job last how)
      (WishedFor env started w (before ++ events)) := by
  refine fun w' _ => ⟨fun s finished reason => ?_, trivial⟩
  have concludes : Concludes (fun _ _ => True) budgets job last how
      ((conclude env budgets job last how).run w').1 :=
    (keeps_conclude how env.respects_true w' trivial).1
  obtain ⟨now, rfl⟩ := concludes.eq_finishState finished
  rw [List.filterMap_append, concludes.uncalled, List.append_nil]
  exact wished (cancels_of_stopReason underway reason)

/-- A run that goes on from a running state is cancelled only after a wish for it. -/
theorem leads_proceed_wished (underway : Underway job s)
    (within : s.iterationCount ≤ budgets.maxIterations) :
    Leads (Effects env started w before) (proceed env budgets job started s) fun report _ =>
      WishedFor env started w before report := by
  refine ((leads_turns_wished _ s).and
    (.of_keeps (keeps_turns_underway _ underway within))).bind fun r => ?_
  obtain ⟨ending, events⟩ := r
  cases ending with
  | fail failure =>
      refine .pure fun _ _ s finished => ?_
      cases finished
  | finish last how =>
      rintro w' ⟨wished, goesOn⟩
      have concludes : Keeps (fun _ => True) (conclude env budgets job last how)
          (WishedFor env started w (before ++ events)) :=
        keeps_conclude_wished (goesOn last how rfl) wished
      refine ((concludes.bind fun report wishedFor => .pure fun s finished reason => ?_)
        w' trivial).1
      rw [← List.append_assoc]
      exact wishedFor s finished reason

/-- A run that is launched is cancelled only after a wish for it. -/
theorem leads_launch_wished (underway : Underway job s)
    (within : s.iterationCount ≤ budgets.maxIterations) :
    Leads (Effects env started w before) (launch env budgets job started s) fun report _ =>
      WishedFor env started w before report := by
  refine (leads_log _ _ _ _).bind fun noted => (leads_persist s s).bind fun saved => ?_
  obtain ⟨result, events⟩ := saved
  cases result with
  | error failure =>
      refine .pure fun _ _ s finished => ?_
      cases finished
  | ok _ =>
      refine (leads_proceed_wished underway within).bind fun report => .pure fun _ wishedFor => ?_
      intro s finished reason
      have wished := wishedFor s finished reason
      rwa [List.append_assoc, List.append_assoc, List.singleton_append] at wished

/-- A run is cancelled only if somebody wants it to end, after its last call. -/
theorem wished_of_cancelled (valid : job.plan.validate = .ok ()) (w : σ)
    (finished : (report env budgets job w).result = .ok s)
    (reason : s.stopReason = some .cancelled) :
    Wished env (env.steady.run w).1 (env.steady.run w).2 (report env budgets job w).calls := by
  have wishedFor : WishedFor env (env.steady.run w).1 (env.steady.run w).2 []
      (report env budgets job w) := by
    rw [report, execute_of_valid w valid]
    exact leads_launch_wished ⟨rfl, rfl, rfl, rfl, rfl⟩ UInt32.zero_le _ (.now .refl)
  exact wishedFor s finished reason

section plays

variable {answers : Nat → Request → Answer} {wish : Nat → Bool}

/-- Every state of a run is saved where the surroundings play answers. -/
theorem report_kept (plays : env.Plays answers wish w) (valid : job.plan.validate = .ok ()) :
    ∀ write ∈ (report env budgets job w).writes, write.2 = .ok () :=
  (execute_effects env budgets valid w).kept plays.steady

/-- The answers of a run are those that the surroundings play. -/
theorem report_follows (plays : env.Plays answers wish w) (valid : job.plan.validate = .ok ()) :
    Follows answers (report env budgets job w).calls := by
  intro earlier request answer later split
  obtain ⟨before, s, boundary, after, place, rfl⟩ := Event.exists_called split
  exact ((execute_effects env budgets valid w).called_eq plays.steady place).1

/-- A run makes no call at which somebody wants it to end. -/
theorem report_unwished (plays : env.Plays answers wish w) (valid : job.plan.validate = .ok ())
    {k : Nat} (below : k < (report env budgets job w).calls.length) : wish k = false := by
  obtain ⟨⟨request, answer⟩, later, split, -⟩ := exists_eq_take_append below
  obtain ⟨before, s, boundary, after, place, calls⟩ := Event.exists_called split
  have wished := ((execute_effects env budgets valid w).called_eq plays.steady place).2
  have member : .called s boundary request answer ∈ (report env budgets job w).events := by
    rw [place]
    exact List.mem_append_right _ List.mem_cons_self
  have allowed := (report_runs env budgets job w).guarded.allowed s boundary request answer member
  rwa [calls, List.length_take_of_le (Nat.le_of_lt below), allowed.uncancelled, eq_comm] at wished

/-- A run that is cancelled has found that somebody wants it to end after its last call. -/
theorem report_wished (plays : env.Plays answers wish w) (valid : job.plan.validate = .ok ())
    (finished : (report env budgets job w).result = .ok s)
    (reason : s.stopReason = some .cancelled) :
    wish (report env budgets job w).calls.length = true := by
  obtain ⟨events, w', effects, calls, wished⟩ := wished_of_cancelled valid w finished reason
  rw [← calls, ← plays.steady.wished _ _ effects.after, wished]

end plays

end Engine

/-- The next answer of a script takes one line from it. -/
theorem Script.next_drop (lines : Script) (n : Nat) (request : Request) :
    (Script.next (lines.drop n) request).2 = lines.drop (n + 1) := by
  rw [← List.drop_drop]
  generalize lines.drop n = rest
  rcases rest with _ | ⟨_ | _, rest⟩ <;> rfl

namespace World

/-- A world whose provider goes through a script, so many calls of which were made, whose store
saves all, and in which somebody wants the run to end from some call on, if at all. -/
structure Scripted (lines : Script) (context : Option String) (cut : Option Nat) (n : Nat)
    (world : World) : Prop where
  keeping : world.keeping = .memory
  failing : world.memory.failing = .none
  player : world.player = .script (lines.drop n)
  errorContext : world.errorContext = context
  calls : world.calls = n
  cancelOnCall : world.cancelOnCall = cut
  cancellable : world.cancellable = true
  cancelled : world.cancelled = cut.any (· ≤ n)

namespace Scripted

variable {lines : Script} {context : Option String} {cut : Option Nat} {n : Nat} {world : World}

/-- What happens on the machine only leaves the script where it is. -/
theorem onMachine {α : Type} (scripted : Scripted lines context cut n world)
    (action : StateM Machine α) :
    Scripted lines context cut n ((World.onMachine action).run world).2 :=
  ⟨scripted.keeping, scripted.failing, scripted.player, scripted.errorContext, scripted.calls,
    scripted.cancelOnCall, scripted.cancellable, scripted.cancelled⟩

/-- A state is saved, and the script stays where it is. -/
theorem save (scripted : Scripted lines context cut n world) (s : RunState) :
    ((store.save s).run world).1 = .ok () ∧
      Scripted lines context cut n ((store.save s).run world).2 := by
  have saved : world.memory.save s = (.ok (), (world.memory.save s).2) := by
    rw [FaultyMemory.save, scripted.failing]
    rfl
  have failing : (world.memory.save s).2.failing = .none := by
    rw [FaultyMemory.save, scripted.failing]
    rfl
  rw [save_memory scripted.keeping]
  exact ⟨congrArg Prod.fst saved, { scripted with failing := failing }⟩

/-- A call gets the next answer of the script, with the context. -/
theorem call (scripted : Scripted lines context cut n world) (request : Request) :
    ((World.call request).run world).1 =
        withContext context (Script.next (lines.drop n) request).1 ∧
      Scripted lines context cut (n + 1) ((World.call request).run world).2 := by
  obtain ⟨keeping, failing, player, errorContext, calls, cancelOnCall, cancellable, cancelled⟩ :=
    scripted
  have answer : world.player.next request = ((Script.next (lines.drop n) request).1,
      .script (lines.drop (n + 1))) := by
    rw [player, ← Script.next_drop lines n request]
    rfl
  constructor
  · change withContext world.errorContext (world.player.next request).1 = _
    rw [errorContext, answer]
  · refine ⟨keeping, failing, congrArg Prod.snd answer, errorContext, congrArg (· + 1) calls,
      cancelOnCall, cancellable, ?_⟩
    change (world.cancelled ||
      (world.cancellable && world.cancelOnCall == some (world.calls + 1))) = _
    rw [cancelled, cancellable, cancelOnCall, calls]
    cases cut with
    | none => rfl
    | some k =>
        rw [Bool.eq_iff_iff]
        simp [Nat.le_succ_iff]

/-- After more calls the script is further by so many lines. -/
theorem after {m : Nat} {world' : World} (scripted : Scripted lines context cut m world)
    (after : environment.After world n world') :
    Scripted lines context cut (n + m) world' := by
  induction after with
  | refl => exact (Nat.zero_add m).symm ▸ scripted
  | now _ ih => exact ih.onMachine _
  | steady _ ih => exact ih.onMachine _
  | cancelled _ ih => exact ih
  | @call n _ request _ ih =>
      have next := (ih.call request).2
      rwa [Nat.add_right_comm] at next
  | save s _ ih => exact (ih.save s).2

/-- Such a world plays the rest of its script. -/
theorem plays (scripted : Scripted lines context cut n world) :
    environment.Plays
      (fun k request => withContext context (Script.next (lines.drop (k + n)) request).1)
      (fun k => cut.any (· ≤ k + n)) world where
  answered _ _ request after := ((scripted.after after).call request).1
  wished _ _ after := (scripted.after after).cancelled
  saved _ _ s after := ((scripted.after after).save s).1

end Scripted

end World

end BudgetedRun
