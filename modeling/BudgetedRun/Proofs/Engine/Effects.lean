import BudgetedRun.Proofs.Engine.Soundness

/-!
# What a run does to its surroundings

The events of a report are all that the run has done: `Engine.execute_effects` says that the world
after a run is the one that its events lead to, each call with the answer that the provider gave in
that place and with the readings that were taken right before, each write with what the store said.
Besides these a run only reads clocks and the wish to cancel.
-/

namespace BudgetedRun

variable {σ : Type}

/-- Some events lead from one world to another, in a run that started at some reading of the steady
clock. -/
inductive Effects (env : Environment (StateM σ)) (started : Duration) (w : σ) :
    List Event → σ → Prop where
  | refl : Effects env started w [] w
  | now {events : List Event} {w' : σ} (before : Effects env started w events w') :
      Effects env started w events (env.now.run w').2
  | steady {events : List Event} {w' : σ} (before : Effects env started w events w') :
      Effects env started w events (env.steady.run w').2
  | cancelled {events : List Event} {w' : σ} (before : Effects env started w events w') :
      Effects env started w events (env.cancelled.run w').2
  | logged {events : List Event} {w' : σ} (before : Effects env started w events w')
      (entry : LogEntry) (timestamp : entry.timestamp = (env.now.run w').1) :
      Effects env started w (events ++ [.logged entry]) (env.now.run w').2
  | called {events : List Event} {w' w'' : σ} {boundary : Boundary}
      (before : Effects env started w events w')
      (reading : (Engine.readBoundary env started).run w' = (boundary, w'')) (s : RunState)
      (request : Request) :
      Effects env started w
        (events ++ [.called s boundary request ((env.call request).run w'').1])
        ((env.call request).run w'').2
  | wrote {events : List Event} {w' : σ} (before : Effects env started w events w')
      (s : RunState) :
      Effects env started w (events ++ [.wrote s ((env.save s).run w').1])
        ((env.save s).run w').2

/-- An action leads from worlds of one kind to worlds that fit what it gives. -/
def Leads {α : Type} (pre : σ → Prop) (x : StateM σ α) (post : α → σ → Prop) : Prop :=
  ∀ w, pre w → post (x.run w).1 (x.run w).2

namespace Leads

variable {α β : Type} {pre : σ → Prop} {mid : α → σ → Prop} {post : β → σ → Prop}

theorem pure {a : α} {post : α → σ → Prop} (holds : ∀ w, pre w → post a w) :
    Leads pre (Pure.pure a : StateM σ α) post :=
  holds

/-- What an action leads to from worlds of one kind it leads to from fewer of them. -/
theorem strengthen {x : StateM σ α} {stronger : σ → Prop} (leads : Leads pre x mid)
    (implies : ∀ w, stronger w → pre w) : Leads stronger x mid :=
  fun w holds => leads w (implies w holds)

/-- Actions one after another lead as far as the second does. -/
theorem bind {x : StateM σ α} {f : α → StateM σ β} (first : Leads pre x mid)
    (next : ∀ a, Leads (mid a) (f a) post) : Leads pre (x >>= f) post :=
  fun w holds => next _ _ (first w holds)

end Leads

namespace Engine

variable {env : Environment (StateM σ)} {started : Duration} {w : σ} {budgets : Budgets} {job : Job}
  {before : List Event}

/-- To read the time of day is no event. -/
theorem leads_now :
    Leads (Effects env started w before) env.now fun _ => Effects env started w before :=
  fun _ effects => effects.now

/-- To save a state is a write. -/
theorem leads_save (s : RunState) :
    Leads (Effects env started w before) (env.save s) fun result =>
      Effects env started w (before ++ [.wrote s result]) :=
  fun _ effects => effects.wrote s

/-- To log something is an entry. -/
theorem leads_log (level : LogLevel) (domain operation message : String) :
    Leads (Effects env started w before) (log env job level domain operation message) fun noted =>
      Effects env started w (before ++ [noted]) :=
  fun _ effects => effects.logged _ rfl

/-- A run that fails does what its events say. -/
theorem leads_failRun (s : RunState) (fault : Fault) :
    Leads (Effects env started w before) (failRun env job s fault) fun r =>
      Effects env started w (before ++ r.2) := by
  refine (leads_log _ _ _ _).bind fun noted => leads_now.bind fun now => ?_
  refine (leads_save _).bind fun result => ?_
  cases result with
  | ok _ => exact .pure fun _ effects => by simpa using effects
  | error e =>
      exact (leads_log _ _ _ _).bind fun lost => .pure fun _ effects => by simpa using effects

/-- To save a state or fail does what its events say. -/
theorem leads_persist (s running : RunState) :
    Leads (Effects env started w before) (persist env budgets job s running) fun r =>
      Effects env started w (before ++ r.2) := by
  unfold persist
  split
  · refine (leads_save _).bind fun result => ?_
    cases result with
    | ok _ => exact .pure fun _ effects => effects
    | error e =>
        exact (leads_failRun _ _).bind fun failed => .pure fun _ effects => by simpa using effects
  · exact (leads_failRun _ _).bind fun failed => .pure fun _ effects => effects

theorem leads_logOutcome (stepId : String) (o : StepOutcome) :
    Leads (Effects env started w before) (logOutcome env job stepId o) fun noted =>
      Effects env started w (before ++ [noted]) := by
  cases o <;> exact leads_log _ _ _ _

theorem leads_settle (s : RunState) (stepId : String) (o : StepOutcome) :
    Leads (Effects env started w before) (settle env job s stepId o) fun r =>
      Effects env started w (before ++ [r.2]) := by
  cases o with
  | overBudget input output =>
      exact leads_now.bind fun now => (leads_logOutcome _ _).bind fun noted =>
        .pure fun _ effects => effects
  | succeeded input output =>
      exact (leads_logOutcome _ _).bind fun noted => leads_now.bind fun now =>
        .pure fun _ effects => effects
  | failed message =>
      exact (leads_logOutcome _ _).bind fun noted => leads_now.bind fun now =>
        .pure fun _ effects => effects

/-- To save a running state between turns does what its events say. -/
theorem leads_checkpoint (s : RunState) (worked : List Event) :
    Leads (Effects env started w (before ++ worked)) (checkpoint env budgets job s worked) fun r =>
      Effects env started w (before ++ r.2) := by
  refine (leads_persist _ _).bind fun saved => ?_
  obtain ⟨result, events⟩ := saved
  cases result <;> exact .pure fun _ effects => by simpa using effects

/-- An iteration does what its events say, from the world that its boundary was read in. -/
theorem leads_iterate (s : RunState) (boundary : Boundary) (step : Step) :
    Leads
      (fun w'' => ∃ w', Effects env started w before w' ∧
        (readBoundary env started).run w' = (boundary, w''))
      (iterate env budgets job s boundary step) fun r =>
      Effects env started w (before ++ r.2) := by
  have asks : Leads
      (fun w'' => ∃ w', Effects env started w before w' ∧
        (readBoundary env started).run w' = (boundary, w''))
      (env.call (request job s.currentStepIndex.toNat step)) fun answer =>
      Effects env started w
        (before ++ [.called s boundary (request job s.currentStepIndex.toNat step) answer]) :=
    fun _ ⟨_, effects, reading⟩ => effects.called reading s _
  refine asks.bind fun answer => (leads_settle _ _ _).bind fun settled => ?_
  obtain ⟨s', noted⟩ := settled
  rw [List.append_assoc]
  generalize outcome budgets s answer = o
  cases o with
  | overBudget input output => exact .pure fun _ effects => effects
  | succeeded input output => exact leads_checkpoint _ _
  | failed message => exact leads_checkpoint _ _

/-- A turn does what its events say. -/
theorem leads_turn (s : RunState) :
    Leads (Effects env started w before) (turn env budgets job started s) fun r =>
      Effects env started w (before ++ r.2) := by
  unfold turn
  split
  · exact .pure fun _ effects => by simpa using effects
  · have reads : Leads (Effects env started w before) (readBoundary env started)
        fun boundary w'' => ∃ w', Effects env started w before w' ∧
          (readBoundary env started).run w' = (boundary, w'') :=
      fun w' effects => ⟨w', effects, rfl⟩
    refine reads.bind fun boundary => ?_
    split
    -- A run that stops here has read the clock and the wish to cancel, and called nobody.
    · refine Leads.strengthen ((leads_log _ _ _ _).bind fun noted =>
        .pure fun _ effects => effects) ?_
      rintro w'' ⟨w', effects, reading⟩
      obtain rfl := congrArg Prod.snd reading
      exact effects.cancelled.steady
    · exact leads_iterate _ _ _

theorem leads_turns (n : Nat) (s : RunState) :
    Leads (Effects env started w before) (turns env budgets job started n s) fun r =>
      Effects env started w (before ++ r.2) := by
  induction n generalizing s before with
  | zero => exact .pure fun _ effects => by simpa using effects
  | succ n ih =>
      refine (leads_turn s).bind fun r => ?_
      obtain ⟨after, events⟩ := r
      cases after with
      | next s' => exact (ih s').bind fun r => .pure fun _ effects => by simpa using effects
      | last ending => exact .pure fun _ effects => effects

/-- The end of a run does what its events say. -/
theorem leads_conclude (last : RunState) (how : Finish) :
    Leads (Effects env started w before) (conclude env budgets job last how) fun report =>
      Effects env started w (before ++ report.events) := by
  refine leads_now.bind fun now => (leads_persist _ _).bind fun saved => ?_
  obtain ⟨result, events⟩ := saved
  cases result with
  | ok _ =>
      exact (leads_log _ _ _ _).bind fun noted => .pure fun _ effects => by simpa using effects
  | error failure => exact .pure fun _ effects => effects

/-- A run that goes on from a running state does what its events say. -/
theorem leads_proceed (s : RunState) :
    Leads (Effects env started w before) (proceed env budgets job started s) fun report =>
      Effects env started w (before ++ report.events) := by
  refine (leads_turns _ s).bind fun r => ?_
  obtain ⟨ending, events⟩ := r
  cases ending with
  | fail failure => exact .pure fun _ effects => effects
  | finish last how =>
      exact (leads_conclude last how).bind fun report =>
        .pure fun _ effects => by simpa using effects

/-- A run that is launched does what its events say. -/
theorem leads_launch (s : RunState) :
    Leads (Effects env started w before) (launch env budgets job started s) fun report =>
      Effects env started w (before ++ report.events) := by
  refine (leads_log _ _ _ _).bind fun noted => (leads_persist _ _).bind fun saved => ?_
  obtain ⟨result, events⟩ := saved
  cases result with
  | error failure => exact .pure fun _ effects => by simpa using effects
  | ok _ =>
      exact (leads_proceed s).bind fun report => .pure fun _ effects => by simpa using effects

variable (env budgets)

/-- The events of a run of a plan that can be run lead from the world in which it started to the
world that it leaves. -/
theorem execute_effects (valid : job.plan.validate = .ok ()) (w : σ) :
    Effects env (env.steady.run w).1 (env.steady.run w).2 (report env budgets job w).events
      ((execute env budgets job).run w).2 := by
  rw [report, execute_of_valid w valid]
  exact leads_launch _ _ (.now .refl)

end Engine

end BudgetedRun
