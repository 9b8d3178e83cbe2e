import BudgetedRun.Proofs.Engine.Sequence
import BudgetedRun.Proofs.Engine.Termination
import BudgetedRun.Proofs.Engine.Widening

/-!
# The log mirrors the run

What the log of a run says, entry after entry: that the run has begun, what became of each call,
that the budgets have ended it, if they did, and how it came out (`Engine.execute_log`). `Tells`
ties some events to what is remarked of them, and is put together along the parts of a run.

Whether a run was ended at a boundary is not read off its log. `Halted` says it of the surroundings:
turn after turn the run comes to a boundary at which the budgets allow no further iteration.
-/

namespace BudgetedRun

/-- What an entry of a log says, apart from whose it is and when it was made. -/
structure Remark where
  level : LogLevel
  domain : String
  operation : String
  message : String
deriving DecidableEq

namespace Remark

def began (job : Job) : Remark where
  level := .info
  domain := "engine"
  operation := "start"
  message :=
    s!"starting plan '{job.plan.id}' with {job.plan.steps.length} steps " ++ s!"in {job.repository}"

/-- What became of a step. -/
def worked (stepId : String) : StepOutcome → Remark
  | .succeeded input output =>
    ⟨.info, "engine", "step", s!"step '{stepId}' completed ({input} input, {output} output tokens)"⟩
  | .failed message => ⟨.warn, "engine", "step", s!"step '{stepId}' failed: {message}"⟩
  | .overBudget _ _ => ⟨.warn, "engine", "stop", s!"step '{stepId}' would exceed the token budget"⟩

/-- The budgets have ended the run. -/
def halted (last : RunState) (decision : StopDecision) : Remark :=
  ⟨.warn, "engine", "stop",
    s!"stopping after {last.iterationCount} iterations: {decision.reason.name}"⟩

def finished (job : Job) (s : RunState) : Remark where
  level := .info
  domain := "engine"
  operation := "finish"
  message :=
    s!"run {s.status.name} after {s.iterationCount} iterations, " ++
      s!"step {s.currentStepIndex}/{job.plan.steps.length}, " ++ s!"{s.tokenUsage.total} tokens"

/-- The run could not go on. -/
def failed (fault : Fault) : Remark := ⟨.error, "store", "save", fault.message⟩

/-- The state of a run that could not go on was not saved either. -/
def unrecorded (e : StoreError) : Remark :=
  ⟨.error, "store", "save", s!"could not record failed state: {e.message}"⟩

/-- The remark is about a step that was committed. -/
def isCommit (r : Remark) : Bool :=
  r.level == .info && r.domain == "engine" && r.operation == "step"

end Remark

def LogEntry.remark (e : LogEntry) : Remark := ⟨e.level, e.domain, e.operation, e.message⟩

namespace Event

/-- What is remarked of a call, by what its answer comes to in the state that it was made in. -/
def verdict? (budgets : Budgets) : Event → Option Remark
  | called s _ request answer =>
    some (.worked request.stepId (Engine.outcome budgets s answer))
  | _ => none

end Event

/-- What is remarked of the calls among some events. -/
def verdicts (budgets : Budgets) (events : List Event) : List Remark :=
  events.filterMap (Event.verdict? budgets)

/-- What is remarked of the end of a run by its budgets. -/
def haltRemarks (halt : Option (RunState × StopDecision)) : List Remark :=
  (halt.map fun (last, decision) => .halted last decision).toList

section Verdicts

variable {budgets : Budgets} {events : List Event}

theorem verdicts_append (budgets : Budgets) (events more : List Event) :
    verdicts budgets (events ++ more) = verdicts budgets events ++ verdicts budgets more :=
  List.filterMap_append

/-- Nothing is remarked of events without calls. -/
theorem verdicts_eq_nil (uncalled : events.filterMap Event.call? = []) :
    verdicts budgets events = [] := by
  rw [List.filterMap_eq_nil_iff] at uncalled
  rw [verdicts, List.filterMap_eq_nil_iff]
  intro e member
  have noCall := uncalled e member
  cases e with
  | called s boundary request answer => cases noCall
  | logged entry => rfl
  | wrote s result => rfl

/-- There is one remark for every call. -/
theorem length_verdicts (budgets : Budgets) (events : List Event) :
    (verdicts budgets events).length = (events.filterMap Event.call?).length := by
  induction events with
  | nil => rfl
  | cons e rest ih =>
      cases e with
      | logged entry => exact ih
      | wrote s result => exact ih
      | called s boundary request answer => exact congrArg (· + 1) ih

/-- As many steps are committed as there are remarks that say so. -/
theorem countP_verdicts (budgets : Budgets) (events : List Event) :
    (verdicts budgets events).countP Remark.isCommit =
      (events.filterMap (Event.committed? budgets)).length := by
  induction events with
  | nil => rfl
  | cons e rest ih =>
      rw [verdicts] at ih ⊢
      cases e with
      | logged entry => exact ih
      | wrote s result => exact ih
      | called s boundary request answer =>
          simp only [List.filterMap_cons, Event.verdict?, Event.committed?]
          rw [List.countP_cons, ih]
          cases answer with
          | error message => rfl
          | ok r =>
              rw [Engine.outcome]
              by_cases beyond :
                  budgets.wouldExceedTokens s (addCapped r.inputTokens r.outputTokens) = true
              · simp only [if_pos beyond]
                rfl
              · simp only [if_neg beyond]
                rfl

end Verdicts

/-- The log entries among some events are those of the job, and say what is to be remarked. -/
inductive Tells (job : Job) : List Event → List Remark → Prop where
  | nil : Tells job [] []
  | logged {entry : LogEntry} {events : List Event} {remarks : List Remark}
      (own : entry.runId = job.runId) (rest : Tells job events remarks) :
      Tells job (.logged entry :: events) (entry.remark :: remarks)
  | called {s : RunState} {boundary : Boundary} {request : Request} {answer : Answer}
      {events : List Event} {remarks : List Remark} (rest : Tells job events remarks) :
      Tells job (.called s boundary request answer :: events) remarks
  | wrote {s : RunState} {result : Except StoreError Unit} {events : List Event}
      {remarks : List Remark} (rest : Tells job events remarks) :
      Tells job (.wrote s result :: events) remarks

namespace Tells

variable {job : Job} {events more : List Event} {remarks further : List Remark}

/-- Events one after another are told one after another. -/
theorem append (tells : Tells job events remarks) (rest : Tells job more further) :
    Tells job (events ++ more) (remarks ++ further) := by
  induction tells with
  | nil => exact rest
  | logged own _ ih => exact .logged own ih
  | called _ ih => exact .called ih
  | wrote _ ih => exact .wrote ih

/-- The log of a report consists of the remarks that its events tell, in the name of its job. -/
theorem log_eq {report : Report} (tells : Tells job report.events remarks) :
    report.log.map LogEntry.remark = remarks ∧ ∀ entry ∈ report.log, entry.runId = job.runId := by
  obtain ⟨result, events⟩ := report
  simp only [Report.log] at tells ⊢
  induction tells with
  | nil => exact ⟨rfl, List.forall_mem_nil _⟩
  | @logged entry events remarks own _ ih =>
      obtain ⟨same, others⟩ := ih
      exact ⟨congrArg (entry.remark :: ·) same, List.forall_mem_cons.mpr ⟨own, others⟩⟩
  | called _ ih => exact ih
  | wrote _ ih => exact ih

end Tells

/-- How a log ends: a run that is finished says so, one that failed says why, and says again that
its failed state was not saved, which was its last write. -/
inductive Epilogue (job : Job) (report : Report) : List Remark → Prop where
  | finished {s : RunState} (ok : report.result = .ok s) : Epilogue job report [.finished job s]
  | recorded {f : RunFailure} (failed : report.result = .error (.failed f))
      (last : report.writes.getLast? = some (f.state, .ok ())) :
      Epilogue job report [.failed f.fault]
  | unrecorded {f : RunFailure} {e : StoreError} (failed : report.result = .error (.failed f))
      (last : report.writes.getLast? = some (f.state, .error e)) :
      Epilogue job report [.failed f.fault, .unrecorded e]

/-- What is remarked of the end by the budgets commits no step. -/
theorem countP_haltRemarks (halt : Option (RunState × StopDecision)) :
    (haltRemarks halt).countP Remark.isCommit = 0 := by
  cases halt <;> rfl

/-- The end of a log commits no step. -/
theorem Epilogue.countP_eq {job : Job} {report : Report} {remarks : List Remark}
    (epilogue : Epilogue job report remarks) : remarks.countP Remark.isCommit = 0 := by
  cases epilogue with
  | finished => simp [Remark.isCommit, Remark.finished]
  | recorded => rfl
  | unrecorded => rfl

/-- A log ends alike whatever events come before. -/
theorem Epilogue.prepend {job : Job} {result : Except RunError RunState} {events : List Event}
    {remarks : List Remark} (epilogue : Epilogue job ⟨result, events⟩ remarks)
    (earlier : List Event) : Epilogue job ⟨result, earlier ++ events⟩ remarks := by
  have last {write : RunState × Except StoreError Unit}
      (last : (Report.writes ⟨result, events⟩).getLast? = some write) :
      (Report.writes ⟨result, earlier ++ events⟩).getLast? = some write := by
    rw [Report.writes_eq] at last ⊢
    rw [List.filterMap_append, List.getLast?_append, last]
    rfl
  cases epilogue with
  | finished ok => exact .finished ok
  | recorded failed saved => exact .recorded failed (last saved)
  | unrecorded failed unsaved => exact .unrecorded failed (last unsaved)

namespace History

variable {clock : Timestamp → Timestamp → Prop} {budgets : Budgets} {job : Job}
  {s s' running : RunState} {o : StepOutcome} {failure : RunFailure} {events worked : List Event}
  {noted : Event}

/-- An entry tells what it says. -/
theorem Entry.tells {level : LogLevel} {domain operation message : String}
    (entry : Entry job level domain operation message noted) :
    Tells job [noted] [⟨level, domain, operation, message⟩] := by
  cases entry with
  | intro timestamp => exact .logged rfl .nil

/-- The entry for an outcome tells what became of the step. -/
theorem OutcomeEntry.tells {stepId : String} (entry : OutcomeEntry job stepId o noted) :
    Tells job [noted] [.worked stepId o] := by
  cases o <;> exact Entry.tells entry

/-- An answer comes to one outcome only. -/
theorem Judges.eq_outcome {answer : Answer} (judges : Judges budgets s answer o) :
    o = Engine.outcome budgets s answer := by
  cases judges with
  | failed => rfl
  | succeeded covered =>
      rw [Engine.outcome, if_neg]
      rw [covered]
      exact Bool.false_ne_true
  | overBudget beyond => rw [Engine.outcome, if_pos beyond]

/-- Work on a step leaves one entry, which says what has become of the call. -/
theorem Iterates.tells (iterates : Iterates clock budgets job s o s' worked) :
    Tells job worked (verdicts budgets worked) := by
  cases iterates with
  | intro due allowed judges reading entry =>
      have tells := entry.tells
      obtain ⟨e, rfl⟩ := entry.exists_logged
      rw [judges.eq_outcome] at tells
      exact .called tells

/-- A run that fails tells how it ends. -/
theorem Fails.tells {fault : Fault} (fails : Fails clock job s fault failure events) :
    ∃ remarks, Tells job events remarks ∧
      Epilogue job ⟨.error (.failed failure), events⟩ remarks := by
  cases fails with
  | @recorded now noted reading entry =>
      have tells := entry.tells
      obtain ⟨noted, rfl⟩ := entry.exists_logged
      refine ⟨[.failed fault], tells.append (.wrote .nil), ?_⟩
      exact .recorded (f := ⟨job.runId, fault, s.fail fault.message now⟩) rfl rfl
  | @unrecorded now noted lost e reading entry again =>
      have tells := entry.tells
      have further := again.tells
      obtain ⟨noted, rfl⟩ := entry.exists_logged
      obtain ⟨lost, rfl⟩ := again.exists_logged
      refine ⟨[.failed fault, .unrecorded e], tells.append (.wrote further), ?_⟩
      exact .unrecorded (f := ⟨job.runId, fault, s.fail fault.message now⟩) rfl rfl

/-- A run that breaks tells how it ends. -/
theorem Breaks.tells (breaks : Breaks clock budgets job s running failure events) :
    ∃ remarks, Tells job events remarks ∧
      Epilogue job ⟨.error (.failed failure), events⟩ remarks := by
  cases breaks with
  | inconsistent broken fails => exact fails.tells
  | unsaved consistent fails =>
      obtain ⟨remarks, tells, epilogue⟩ := fails.tells
      exact ⟨remarks, .wrote tells, epilogue.prepend [_]⟩

/-- The log of a finished run ends with its last remark, and that of a run that cannot be finished
as that of any run that breaks. -/
theorem Concludes.tells {last : RunState} {how : Finish} {report : Report}
    (concludes : Concludes clock budgets job last how report) :
    ∃ remarks, Tells job report.events remarks ∧ Epilogue job report remarks := by
  cases concludes with
  | broken reading breaks => exact breaks.tells
  | finished reading finished_eq consistent entry =>
      have tells := entry.tells
      obtain ⟨noted, rfl⟩ := entry.exists_logged
      exact ⟨_, .wrote tells, .finished rfl⟩

end History

namespace Engine

open History

variable {σ : Type}

/-- From a boundary in some state and some world a run comes to the same or a later one, turn after
turn. -/
inductive Comes (env : Environment (StateM σ)) (budgets : Budgets) (job : Job)
    (started : Duration) : RunState → σ → RunState → σ → Prop where
  | here {s : RunState} {w : σ} : Comes env budgets job started s w s w
  | next {s s₁ s' : RunState} {w w₁ w' : σ} {events : List Event}
      (turned : (turn env budgets job started s).run w = ((.next s₁, events), w₁))
      (rest : Comes env budgets job started s₁ w₁ s' w') : Comes env budgets job started s w s' w'

/-- At a boundary in some state and some world a step is due, but the budgets end the run. -/
def Halts (env : Environment (StateM σ)) (budgets : Budgets) (job : Job) (started : Duration)
    (s : RunState) (w : σ) (decision : StopDecision) : Prop :=
  (∃ step, job.plan.steps[s.currentStepIndex.toNat]? = some step) ∧
    let boundary := ((readBoundary env started).run w).1
    budgets.checkStop s boundary.elapsed boundary.cancelled = some decision

/-- The run that begins in some world saves its first state and comes to a boundary at which the
budgets end it. -/
inductive Halted (env : Environment (StateM σ)) (budgets : Budgets) (job : Job) (w : σ)
    (last : RunState) (decision : StopDecision) : Prop where
  | intro {started : Duration} {now : Timestamp} {noted : Event} {events : List Event}
      {w₁ w₂ w₃ w₄ w₅ : σ} (begins : env.steady.run w = (started, w₁))
      (dates : env.now.run w₁ = (now, w₂))
      (notes : (log env job .info "engine" "start" (Remark.began job).message).run w₂ = (noted, w₃))
      (saves : (persist env budgets job (.start job.runId job.plan.id now)
        (.start job.runId job.plan.id now)).run w₃ = ((.ok (), events), w₄))
      (comes : Comes env budgets job started (.start job.runId job.plan.id now) w₄ last w₅)
      (halts : Halts env budgets job started last w₅ decision) :
      Halted env budgets job w last decision

variable {env : Environment (StateM σ)} {budgets : Budgets} {job : Job} {started : Duration}
  {s last : RunState} {w w' : σ} {events : List Event}

/-- Work on a step is at least a call and an entry. -/
theorem keeps_iterate_length (boundary : Boundary) (step : Step) :
    Keeps (fun _ => True) (iterate env budgets job s boundary step) fun r => 2 ≤ r.2.length := by
  have any {α : Type} (x : StateM σ α) : Keeps (fun _ => True) x fun _ => True :=
    fun _ _ => ⟨trivial, trivial⟩
  refine (any _).bind fun answer _ => (any _).bind fun settled _ => ?_
  have saved : Keeps (fun _ => True)
      (checkpoint env budgets job settled.1
        [.called s boundary (request job s.currentStepIndex.toNat step) answer, settled.2])
      fun r => 2 ≤ r.2.length := by
    refine (any _).bind fun saved _ => ?_
    obtain ⟨result, events⟩ := saved
    cases result <;> exact .pure (Nat.le_add_left _ _)
  obtain ⟨s', noted⟩ := settled
  generalize outcome budgets s answer = o
  cases o with
  | overBudget input output => exact .pure (Nat.le_refl _)
  | succeeded input output => exact saved
  | failed message => exact saved

/-- The budgets end a run at a boundary exactly if the turn from there is its last one and leaves an
entry, and no more. -/
theorem halts_iff {decision : StopDecision} :
    Halts env budgets job started s w decision ↔
      ∃ noted w', (turn env budgets job started s).run w =
        ((.last (.finish s (.stop decision)), [noted]), w') := by
  rw [Halts, turn]
  cases due : job.plan.steps[s.currentStepIndex.toNat]? with
  | none =>
      refine iff_of_false (fun halts => ?_) ?_
      · obtain ⟨⟨step, same⟩, -⟩ := halts
        cases same
      · rintro ⟨noted, w', same⟩
        cases same
  | some step =>
      rcases reading : (readBoundary env started).run w with ⟨boundary, w₁⟩
      simp only
      rw [run_bind_eq reading, and_iff_right ⟨step, rfl⟩]
      cases decided : budgets.checkStop s boundary.elapsed boundary.cancelled with
      | none =>
          refine iff_of_false nofun ?_
          rintro ⟨noted, w', same⟩
          have long : 2 ≤ ((iterate env budgets job s boundary step).run w₁).1.2.length :=
            (keeps_iterate_length boundary step w₁ trivial).1
          rw [show (iterate env budgets job s boundary step).run w₁ = _ from same] at long
          exact absurd long (Nat.not_succ_le_self 1)
      | some stops =>
          constructor
          · intro same
            cases same
            exact ⟨_, _, rfl⟩
          · rintro ⟨noted, w', same⟩
            cases same
            rfl

/-- In its last turn a run is ended at the boundary that it has come to, or not at all. -/
theorem halts_iff_of_last {ending : Ending}
    (turned : (turn env budgets job started s).run w = ((.last ending, events), w'))
    (last : RunState) (decision : StopDecision) :
    (∃ v, Comes env budgets job started s w last v ∧
      Halts env budgets job started last v decision) ↔
    last = s ∧ ending = .finish s (.stop decision) ∧ ∃ noted, events = [noted] := by
  constructor
  · rintro ⟨v, comes, halts⟩
    cases comes with
    | here =>
        obtain ⟨noted, v, same⟩ := halts_iff.mp halts
        rw [turned] at same
        cases same
        exact ⟨rfl, rfl, noted, rfl⟩
    | next again rest =>
        rw [turned] at again
        cases again
  · rintro ⟨rfl, rfl, noted, rfl⟩
    exact ⟨w, .here, halts_iff.mpr ⟨noted, w', turned⟩⟩

/-- After a turn that is not the last one, a run is ended where it is ended from there. -/
theorem halts_iff_of_next {s' : RunState}
    (turned : (turn env budgets job started s).run w = ((.next s', events), w'))
    (last : RunState) (decision : StopDecision) :
    (∃ v, Comes env budgets job started s w last v ∧
      Halts env budgets job started last v decision) ↔
    ∃ v, Comes env budgets job started s' w' last v ∧
      Halts env budgets job started last v decision := by
  constructor
  · rintro ⟨v, comes, halts⟩
    cases comes with
    | here =>
        obtain ⟨noted, v, same⟩ := halts_iff.mp halts
        rw [turned] at same
        cases same
    | next again rest =>
        rw [turned] at again
        cases again
        exact ⟨v, rest, halts⟩
  · rintro ⟨v, comes, halts⟩
    exact ⟨v, .next turned comes, halts⟩

/-- What the turns of a run leave at their end: nothing, or what a run leaves that breaks. -/
inductive Remains (budgets : Budgets) (job : Job) : Ending → List Event → Prop where
  | finish {last : RunState} {how : Finish} : Remains budgets job (.finish last how) []
  | fail {running : RunState} {f : RunFailure} {closing : List Event}
      (breaks : Breaks (fun _ _ => True) budgets job running running f closing) :
      Remains budgets job (.fail f) closing

/-- What the turns of a run leave behind: entries on all calls and on the end by the budgets, if
there is one, and then what remains. -/
structure Relates (env : Environment (StateM σ)) (budgets : Budgets) (job : Job)
    (started : Duration) (s : RunState) (w : σ) (ending : Ending)
    (halt : Option (RunState × StopDecision)) (told closing : List Event) : Prop where
  halted : ∀ last decision, halt = some (last, decision) ↔
    ∃ v, Comes env budgets job started s w last v ∧ Halts env budgets job started last v decision
  tells : Tells job told (verdicts budgets told ++ haltRemarks halt)
  remains : Remains budgets job ending closing

/-- Whatever a turn gives is a turn that a run can take. -/
theorem turns_of_run {after : Turn}
    (turned : (turn env budgets job started s).run w = ((after, events), w')) :
    Turns (fun _ _ => True) budgets job s after events := by
  have turns : Turns (fun _ _ => True) budgets job s
      ((turn env budgets job started s).run w).1.1 ((turn env budgets job started s).run w).1.2 :=
    (keeps_turn env.respects_true w trivial).1
  rw [turned] at turns
  exact turns

/-- A last turn tells of its call, and of the end by the budgets. -/
theorem relates_last {ending : Ending}
    (turned : (turn env budgets job started s).run w = ((.last ending, events), w')) :
    ∃ halt told closing, events = told ++ closing ∧
      Relates env budgets job started s w ending halt told closing := by
  have halted := halts_iff_of_last turned
  cases turns_of_run turned with
  | fail iterates within breaks =>
      refine ⟨none, _, _, rfl, fun last decision => ?_, ?_, .fail breaks⟩
      · rw [halted]
        exact iff_of_false nofun nofun
      · exact (List.append_nil _).symm ▸ iterates.tells
  | finish leaves =>
      cases leaves with
      | complete done =>
          refine ⟨none, [], [], rfl, fun last decision => ?_, .nil, .finish⟩
          rw [halted]
          exact iff_of_false nofun nofun
      | @stop step boundary decision noted due decided entry =>
          have tells := entry.tells
          obtain ⟨noted, rfl⟩ := entry.exists_logged
          refine ⟨some (s, decision), [.logged noted], [], rfl, fun last decision' => ?_, tells,
            .finish⟩
          rw [halted]
          constructor
          · rintro ⟨⟩
            exact ⟨rfl, rfl, _, rfl⟩
          · rintro ⟨rfl, ⟨⟩, -⟩
            rfl
      | reject iterates beyond =>
          refine ⟨none, _, [], (List.append_nil _).symm, fun last decision => ?_, ?_, .finish⟩
          · rw [halted]
            refine iff_of_false nofun ?_
            rintro ⟨-, -, noted, same⟩
            cases iterates with
            | intro => cases same
          · exact (List.append_nil _).symm ▸ iterates.tells

/-- From turn to turn, the turns of a run leave what they should. -/
theorem relates_loops {r : (Ending × List Event) × σ}
    (loops : Loops env budgets job started s w r) :
    ∃ halt told closing, r.1.2 = told ++ closing ∧
      Relates env budgets job started s w r.1.1 halt told closing := by
  induction loops with
  | last turned => exact relates_last turned
  | @next s s' w w₁ w₂ ending worked more turned rest ih =>
      obtain ⟨halt, told, closing, split, halted, tells, remains⟩ := ih
      refine ⟨halt, worked ++ told, closing, ?_, fun last decision => ?_, ?_, remains⟩
      · rw [List.append_assoc, ← split]
      · rw [halted, halts_iff_of_next turned]
      · cases turns_of_run turned with
        | @next s' o worked iterates within consistent =>
            have silent : verdicts budgets [.wrote s' (.ok ())] = [] := rfl
            rw [verdicts_append, verdicts_append, silent, List.append_nil, List.append_assoc,
              List.append_assoc]
            exact iterates.tells.append (.wrote tells)

/-- From its first boundary on, the log of a run says what became of its calls, what ended it and
how it came out. -/
theorem proceed_tells (underway : Underway job s)
    (within : s.iterationCount ≤ budgets.maxIterations) (w : σ) :
    let report := ((proceed env budgets job started s).run w).1
    ∃ halt epilogue, (∀ last decision, halt = some (last, decision) ↔
        ∃ v, Comes env budgets job started s w last v ∧
          Halts env budgets job started last v decision) ∧
      Tells job report.events (verdicts budgets report.events ++ haltRemarks halt ++ epilogue) ∧
      Epilogue job report epilogue := by
  have loops : Loops env budgets job started s w
      ((turns env budgets job started (budgets.maxIterations.toNat + 1) s).run w) :=
    loops_turns underway (by omega) within
  rcases turned : (turns env budgets job started (budgets.maxIterations.toNat + 1) s).run w with
    ⟨⟨ending, events⟩, w'⟩
  rw [turned] at loops
  obtain ⟨halt, told, closing, split, halted, tells, remains⟩ := relates_loops loops
  obtain rfl : events = told ++ closing := split
  rw [proceed, run_bind_eq turned]
  cases remains with
  | fail breaks =>
      obtain ⟨epilogue, closes, ends⟩ := breaks.tells
      refine ⟨halt, epilogue, halted, ?_, ends.prepend told⟩
      change Tells job (told ++ closing) (verdicts budgets (told ++ closing) ++ _ ++ _)
      rw [verdicts_append, verdicts_eq_nil breaks.uncalled, List.append_nil]
      exact tells.append closes
  | @finish last how =>
      have concludes : Concludes (fun _ _ => True) budgets job last how
          ((conclude env budgets job last how).run w').1 :=
        (keeps_conclude how env.respects_true w' trivial).1
      rcases concluded : (conclude env budgets job last how).run w' with ⟨report, v⟩
      rw [concluded] at concludes
      obtain ⟨epilogue, closes, ends⟩ := concludes.tells
      simp only [List.append_nil]
      rw [run_bind_eq concluded]
      refine ⟨halt, epilogue, halted, ?_, ends.prepend told⟩
      change Tells job (told ++ report.events) (verdicts budgets (told ++ report.events) ++ _ ++ _)
      rw [verdicts_append, verdicts_eq_nil concludes.uncalled, List.append_nil]
      exact tells.append closes

/-- A run that has begun is ended by the budgets exactly if it has saved its first state and comes
to a boundary where they end it. -/
theorem halted_iff {now : Timestamp} {noted : Event} {saved : Except RunFailure Unit}
    {w₁ w₂ w₃ w₄ : σ} (begins : env.steady.run w = (started, w₁))
    (dates : env.now.run w₁ = (now, w₂))
    (notes : (log env job .info "engine" "start" (Remark.began job).message).run w₂ = (noted, w₃))
    (saves : (persist env budgets job (.start job.runId job.plan.id now)
      (.start job.runId job.plan.id now)).run w₃ = ((saved, events), w₄))
    (last : RunState) (decision : StopDecision) :
    Halted env budgets job w last decision ↔
      saved = .ok () ∧
        ∃ v, Comes env budgets job started (.start job.runId job.plan.id now) w₄ last v ∧
          Halts env budgets job started last v decision := by
  constructor
  · rintro ⟨begins', dates', notes', saves', comes, halts⟩
    rw [begins] at begins'
    cases begins'
    rw [dates] at dates'
    cases dates'
    rw [notes] at notes'
    cases notes'
    rw [saves] at saves'
    cases saves'
    exact ⟨rfl, _, comes, halts⟩
  · rintro ⟨rfl, v, comes, halts⟩
    exact ⟨begins, dates, notes, saves, comes, halts⟩

/-- To launch a run is to log that it began, to save its first state and to go on from there. -/
theorem launch_run {first : RunState} {noted : Event} {saved : Except RunFailure Unit} {w₁ w₂ : σ}
    (notes : (log env job .info "engine" "start" (Remark.began job).message).run w = (noted, w₁))
    (saves : (persist env budgets job first first).run w₁ = ((saved, events), w₂)) :
    (launch env budgets job started first).run w =
      match saved with
      | .error f => (⟨.error (.failed f), noted :: events⟩, w₂)
      | .ok () =>
        let (report, w₃) := (proceed env budgets job started first).run w₂
        (⟨report.result, noted :: events ++ report.events⟩, w₃) := by
  rw [launch]
  refine (run_bind_eq notes).trans ?_
  rw [run_bind_eq saves]
  cases saved <;> rfl

variable (env budgets) in
/-- The log of a run says that it has begun, what became of its calls, what ended it and how it came
out. -/
theorem execute_tells (valid : job.plan.validate = .ok ()) (w : σ) :
    let report := report env budgets job w
    ∃ halt epilogue,
      (∀ last decision, halt = some (last, decision) ↔ Halted env budgets job w last decision) ∧
      Tells job report.events
        (.began job :: (verdicts budgets report.events ++ haltRemarks halt ++ epilogue)) ∧
      Epilogue job report epilogue := by
  rcases begins : env.steady.run w with ⟨started, w₁⟩
  rcases dates : env.now.run w₁ with ⟨now, w₂⟩
  have entry : Entry job .info "engine" "start" (Remark.began job).message
      ((log env job .info "engine" "start" (Remark.began job).message).run w₂).1 := .intro _
  rcases notes : (log env job .info "engine" "start" (Remark.began job).message).run w₂ with
    ⟨noted, w₃⟩
  rw [notes] at entry
  have opens : Tells job [noted] [.began job] := entry.tells
  obtain ⟨noted, rfl⟩ := entry.exists_logged
  generalize first_eq : RunState.start job.runId job.plan.id now = first
  have outcome : Saves (fun _ _ => True) budgets job first first
      ((persist env budgets job first first).run w₃).1.1
      ((persist env budgets job first first).run w₃).1.2 :=
    (keeps_persist env.respects_true first w₃ trivial).1
  rcases saves : (persist env budgets job first first).run w₃ with ⟨⟨saved, events⟩, w₄⟩
  rw [saves] at outcome
  have halted := halted_iff begins dates notes (first_eq.symm ▸ saves)
  rw [report, execute_of_valid w valid, begins]
  simp only [dates, first_eq, launch_run notes saves] at halted ⊢
  cases outcome with
  | broken breaks =>
      obtain ⟨epilogue, closes, ends⟩ := breaks.tells
      refine ⟨none, epilogue, fun last decision => ?_, ?_, ends.prepend [_]⟩
      · rw [halted]
        exact iff_of_false (fun same => by cases same) (fun halts => by cases halts.1)
      · have uncalled : verdicts budgets (.logged noted :: events) = [] :=
          verdicts_eq_nil breaks.uncalled
        rw [uncalled]
        exact opens.append closes
  | kept consistent =>
      have underway : Underway job first := first_eq ▸ ⟨rfl, rfl, rfl, rfl, rfl⟩
      have within : first.iterationCount ≤ budgets.maxIterations := first_eq ▸ UInt32.zero_le
      obtain ⟨halt, epilogue, halts, tells, ends⟩ := proceed_tells underway within w₄
      refine ⟨halt, epilogue, fun last decision => ?_, ?_, ends.prepend _⟩
      · rw [halts, halted, and_iff_right rfl]
      · exact opens.append (.wrote tells)

/-- The log of a run mirrors what it did. Its entries are those of the job, and a plan that cannot
be run leaves none. Otherwise they are, in order: that the run has begun; one for each call, by what
became of it; one for the end by the budgets, exactly if they have ended the run at a boundary; and
how it came out, which for a run that failed is why, and that its failed state was not saved, if
that was so. The calls that failed are those whose messages are recorded as recoverable incidents,
and the entries on steps that were committed are as many as the index of the state that is given
back. -/
theorem execute_log (w : σ) :
    let report := report env budgets job w
    (∀ entry ∈ report.log, entry.runId = job.runId) ∧
    (∀ e, job.plan.validate = .error e → report.log = []) ∧
    (job.plan.validate = .ok () → ∃ s halt epilogue,
      report.returned = some s ∧
      (∀ last decision, halt = some (last, decision) ↔ Halted env budgets job w last decision) ∧
      report.log.map LogEntry.remark =
        .began job :: (verdicts budgets report.events ++ haltRemarks halt ++ epilogue) ∧
      Epilogue job report epilogue ∧
      (verdicts budgets report.events).length = report.calls.length ∧
      (s.errors.filter (·.recoverable)).map Incident.note = report.calls.filterMap Call.failure? ∧
      report.log.countP (·.remark.isCommit) = s.currentStepIndex.toNat) := by
  intro report
  have runs := report_runs env budgets job w
  have unlogged {e : PlanError} (invalid : job.plan.validate = .error e) : report.log = [] := by
    change (Engine.report env budgets job w).log = []
    rw [Engine.report, execute_of_invalid w invalid]
    rfl
  refine ⟨?_, fun e => unlogged, fun valid => ?_⟩
  · cases valid : job.plan.validate with
    | error e =>
        rw [unlogged valid]
        exact List.forall_mem_nil _
    | ok _ =>
        obtain ⟨halt, epilogue, -, tells, -⟩ := execute_tells env budgets valid w
        exact tells.log_eq.2
  · obtain ⟨halt, epilogue, halted, tells, ends⟩ := execute_tells env budgets valid w
    obtain ⟨s, answered, rejected, closing, returned, billed, accounts, closes⟩ :=
      runs.accounts valid
    have remarks := tells.log_eq.1
    refine ⟨s, halt, epilogue, returned, halted, remarks, ends, length_verdicts .., ?_, ?_⟩
    · have unfailed : (rejectedCall rejected).filterMap Call.failure? = [] := by
        cases rejected <;> rfl
      rw [accounts.recoverable_eq closes.unrecoverable, billed.calls_eq, List.filterMap_append,
        unfailed, List.append_nil]
    · obtain ⟨s', returned', committed⟩ := runs.committed_eq valid
      obtain rfl : s = s' := Option.some.inj (returned.symm.trans returned')
      have begun : (Remark.began job).isCommit = false := by simp [Remark.isCommit, Remark.began]
      calc
        report.log.countP (·.remark.isCommit)
          = (report.log.map LogEntry.remark).countP Remark.isCommit := by
            rw [List.countP_map]
            rfl
        _ = (verdicts budgets report.events).countP Remark.isCommit := by
            rw [remarks, List.countP_cons, List.countP_append, List.countP_append,
              countP_haltRemarks, ends.countP_eq, begun]
            rfl
        _ = s.currentStepIndex.toNat := by
            rw [countP_verdicts, committed, length_firstSteps (runs.index_le returned)]

/-- In a rehearsal one step is committed, one call fails and one answer is rejected, which ends
it. -/
theorem rehearsal_log :
    let report := report World.environment .rehearsal .rehearsal
      (.rehearsal [.ok (3, 4), .error "no answer", .ok (90, 4)] .none)
    ∃ s, report.returned = some s ∧
      report.log.countP (·.remark.isCommit) = s.currentStepIndex.toNat ∧
      (s.errors.filter (·.recoverable)).map Incident.note =
        report.calls.filterMap Call.failure? := by
  intro report
  obtain ⟨-, -, told⟩ := @execute_log World World.environment .rehearsal .rehearsal
    (.rehearsal [.ok (3, 4), .error "no answer", .ok (90, 4)] .none)
  obtain ⟨s, halt, epilogue, returned, -, -, -, -, recoverable, count⟩ := told Job.rehearsal_valid
  exact ⟨s, returned, count, recoverable⟩

example :
    (report World.environment .rehearsal .rehearsal
      (.rehearsal [.ok (3, 4), .error "no answer", .ok (90, 4)] .none)).log.map
        (fun e => (e.level, e.operation)) =
      [(.info, "start"), (.info, "step"), (.warn, "step"), (.warn, "stop"), (.info, "finish")] := by
  decide +kernel

end Engine

end BudgetedRun
