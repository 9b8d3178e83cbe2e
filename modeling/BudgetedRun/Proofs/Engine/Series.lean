import BudgetedRun.Proofs.Engine.Cancellation
import BudgetedRun.Proofs.Engine.Storage

/-!
# Runs one after another

Jobs that are run one after another in one world, with one script and one store in memory. No run
sees anything of the others but that the script goes on where they left it
(`World.executeAll_isolated`), and the store has what each of them gave back last.
-/

namespace BudgetedRun

namespace Environment

variable {σ : Type} {env : Environment (StateM σ)} {w w' : σ} {n : Nat}

/-- Worlds that come after calls are reachable. -/
theorem After.reachable (after : env.After w n w') : env.Reachable w w' := by
  induction after with
  | refl => exact .refl
  | now _ ih => exact ih.now
  | steady _ ih => exact ih.steady
  | cancelled _ ih => exact ih.cancelled
  | call request _ ih => exact ih.call request
  | save s _ ih => exact ih.save s

/-- Where the time of day never goes back, it does not do so later. -/
theorem Forward.of_reachable (forward : env.Forward w) (reached : env.Reachable w w') :
    env.Forward w' :=
  fun first second => forward (reached.trans first) second

end Environment

namespace Engine

open History

variable {σ τ : Type} {env : Environment (StateM σ)} {env' : Environment (StateM τ)} {w : σ} {v : τ}
  {store : Store (StateM σ)} {budgets : Budgets} {job : Job} {answers : Nat → Request → Answer}

/-- A job with an invalid plan is refused, and nothing happens. -/
theorem report_of_invalid {e : PlanError} (invalid : job.plan.validate = .error e) :
    report env budgets job w = ⟨.error (.invalidPlan e), []⟩ :=
  congrArg Prod.fst (execute_of_invalid w invalid)

/-- A run leaves the world in which it has made its calls. -/
theorem execute_after :
    env.After w (report env budgets job w).calls.length ((execute env budgets job).run w).2 := by
  cases valid : job.plan.validate with
  | error e =>
      rw [report_of_invalid valid, execute_of_invalid w valid]
      exact .refl
  | ok _ => exact (execute_effects env budgets valid w).after.of_steady

/-- Runs of a job with the same answers come to the same, without a time limit or a wish to
cancel. -/
theorem same_result_of_plays (unlimited : budgets.timeLimit = none)
    (plays : env.Plays answers (fun _ => false) w) (forward : env.Forward w)
    (plays' : env'.Plays answers (fun _ => false) v) (forward' : env'.Forward v) :
    (report env budgets job w).calls = (report env' budgets job v).calls ∧
      SameResult (report env budgets job w).result (report env' budgets job v).result := by
  cases valid : job.plan.validate with
  | error e =>
      rw [report_of_invalid valid, report_of_invalid valid]
      exact ⟨rfl, .refused e⟩
  | ok _ =>
      apply same_result_of_length_eq valid unlimited plays forward plays' forward'
      apply Nat.le_antisymm
      · by_contra longer
        obtain ⟨wished, -⟩ :=
          cancelled_of_shorter valid unlimited plays' forward' plays (Nat.not_le.mp longer)
        cases wished
      · by_contra longer
        obtain ⟨wished, -⟩ :=
          cancelled_of_shorter valid unlimited plays forward plays' (Nat.not_le.mp longer)
        cases wished

/-- If everything is saved, a run puts the state that it gives back into the store, and does nothing
else to it. -/
theorem execute_files_returned (budgets : Budgets) (files : env.FilesIn store w)
    (plays : env.Plays answers (fun _ => false) w) (valid : job.plan.validate = .ok ()) :
    ∃ s, (report env budgets job w).returned = some s ∧
      store.loaded ((execute env budgets job).run w).2 =
        Function.update (store.loaded w) job.runId (.ok (some s)) := by
  have deposits := (report_runs env budgets job w).deposits valid
  have kept : ∀ write ∈ (report env budgets job w).writes, write.2 = .ok () :=
    report_kept plays valid
  have own : ∀ s, (report env budgets job w).savedStates.foldl filed (store.loaded w) job.runId =
      .ok (some s) → store.loaded ((execute env budgets job).run w).2 =
        Function.update (store.loaded w) job.runId (.ok (some s)) := by
    intro s last
    rw [execute_files files]
    funext runId
    by_cases same : runId = job.runId
    · rw [same, last, Function.update_self]
    · rw [Function.update_of_ne same]
      exact foldl_filed_of_ne deposits.saved_own same
  cases result : (report env budgets job w).result with
  | ok s =>
      rw [result] at deposits
      exact ⟨s, by rw [Report.returned, result], own s (deposits.foldl_filed_finished _)⟩
  | error e =>
      cases e with
      | invalidPlan e =>
          rw [result] at deposits
          cases deposits
      | failed f =>
          rw [result] at deposits
          obtain ⟨-, earlier, retry, writes, -, stored, -⟩ :=
            deposits.foldl_filed_failed (store.loaded w)
          have saved : retry = .ok () := by
            apply kept (f.state, retry)
            rw [writes]
            exact List.mem_append_right _ List.mem_cons_self
          exact ⟨f.state, by rw [Report.returned, result], own f.state (stored saved)⟩

end Engine

namespace World

/-- Run jobs in a world, one after another, with nobody who wants a run to end. -/
def executeAll (budgets : Budgets) : List Job → StateM World (List Report)
  | [] => return []
  | job :: rest => do
    let report ← execute budgets job false true
    let reports ← executeAll budgets rest
    return report :: reports

/-- How many calls were made in some runs. -/
def callsMade (reports : List Report) : Nat := (reports.flatMap (·.calls)).length

variable {lines : Script} {context : Option String} {n : Nat} {world : World} {budgets : Budgets}
  {job : Job} {jobs : List Job} {runId : String}

theorem callsMade_cons (report : Report) (reports : List Report) :
    callsMade (report :: reports) = report.calls.length + callsMade reports := by
  rw [callsMade, List.flatMap_cons, List.length_append, callsMade]

theorem executeAll_cons (budgets : Budgets) (job : Job) (rest : List Job) (world : World) :
    (executeAll budgets (job :: rest)).run world =
      (((execute budgets job false true).run world).1 ::
          ((executeAll budgets rest).run ((execute budgets job false true).run world).2).1,
        ((executeAll budgets rest).run ((execute budgets job false true).run world).2).2) := rfl

/-- Jobs that follow others are run in the world that these leave. -/
theorem executeAll_append (budgets : Budgets) (before after : List Job) (world : World) :
    (executeAll budgets (before ++ after)).run world =
      (((executeAll budgets before).run world).1 ++
          ((executeAll budgets after).run ((executeAll budgets before).run world).2).1,
        ((executeAll budgets after).run ((executeAll budgets before).run world).2).2) := by
  induction before generalizing world with
  | nil => rfl
  | cons job rest ih =>
      rw [List.cons_append, executeAll_cons, executeAll_cons, ih, List.cons_append]

/-- Each job has its report. -/
theorem length_executeAll (budgets : Budgets) (jobs : List Job) (world : World) :
    ((executeAll budgets jobs).run world).1.length = jobs.length := by
  induction jobs generalizing world with
  | nil => rfl
  | cons job rest ih => exact congrArg (· + 1) (ih _)

/-- The reports on the jobs before some job are those on these jobs alone. -/
theorem take_executeAll (budgets : Budgets) (before after : List Job) (world : World) :
    ((executeAll budgets (before ++ after)).run world).1.take before.length =
      ((executeAll budgets before).run world).1 := by
  rw [executeAll_append]
  exact List.take_left' (length_executeAll budgets before world)

/-- A job is run in the world that the jobs before it leave. -/
theorem getElem?_executeAll (budgets : Budgets) (before : List Job) (job : Job) (after : List Job)
    (world : World) :
    ((executeAll budgets (before ++ job :: after)).run world).1[before.length]? =
      some ((execute budgets job false true).run ((executeAll budgets before).run world).2).1 := by
  rw [executeAll_append, executeAll_cons, ← length_executeAll budgets before world,
    List.getElem?_append_right (Nat.le_refl _), Nat.sub_self, List.getElem?_cons_zero]

/-- A store in memory lists the ids of its states. -/
theorem list_memory (memory : world.keeping = .memory) :
    (store.list.run world).1 = .ok world.memory.states.keys := by
  change ((storeOf world.keeping).list.run world).1 = _
  rw [memory]
  rfl

/-- Of the runs with an id, if there are any, one is the last. -/
theorem exists_last_run (ran : ∃ job ∈ jobs, job.plan.validate = .ok () ∧ job.runId = runId) :
    ∃ before job after, jobs = before ++ job :: after ∧ job.plan.validate = .ok () ∧
      job.runId = runId ∧ ∀ later ∈ after, later.plan.validate = .ok () → later.runId ≠ runId := by
  induction jobs with
  | nil =>
      obtain ⟨job, member, -⟩ := ran
      cases member
  | cons first rest ih =>
      by_cases again : ∃ job ∈ rest, job.plan.validate = .ok () ∧ job.runId = runId
      · obtain ⟨before, job, after, rfl, last⟩ := ih again
        exact ⟨first :: before, job, after, rfl, last⟩
      · obtain ⟨job, member, valid, named⟩ := ran
        rcases List.mem_cons.mp member with rfl | later
        · exact ⟨[], job, rest, rfl, valid, named,
            fun later inside valid named => again ⟨later, inside, valid, named⟩⟩
        · exact absurd ⟨job, later, valid, named⟩ again

namespace Scripted

/-- In a world where nobody wants a run to end there is nothing to prepare for one. -/
theorem execute_eq (scripted : Scripted lines context none n world) (budgets : Budgets)
    (job : Job) :
    (execute budgets job false true).run world =
      (Engine.execute environment budgets job).run world := by
  have prepared : { world with cancelled := false, cancellable := true } = world := by
    have uncancelled : world.cancelled = false := scripted.cancelled
    rw [← uncancelled, ← scripted.cancellable]
  change (Engine.execute environment budgets job).run
    { world with cancelled := false, cancellable := true } = _
  rw [prepared]

/-- A run that is scripted takes its lines from the script and leaves the others. -/
theorem executed (scripted : Scripted lines context none n world) (budgets : Budgets) (job : Job) :
    let run := (execute budgets job false true).run world
    Scripted lines context none (run.1.calls.length + n) run.2 ∧
      environment.Reachable world run.2 := by
  rw [scripted.execute_eq]
  have after : environment.After world (Engine.report environment budgets job world).calls.length
      ((Engine.execute environment budgets job).run world).2 := Engine.execute_after
  exact ⟨scripted.after after, after.reachable⟩

/-- Runs that are scripted take their lines from the script one after another. -/
theorem executedAll (scripted : Scripted lines context none n world) (budgets : Budgets)
    (jobs : List Job) :
    let runs := (executeAll budgets jobs).run world
    Scripted lines context none (callsMade runs.1 + n) runs.2 ∧
      environment.Reachable world runs.2 := by
  induction jobs generalizing n world with
  | nil => exact ⟨(Nat.zero_add n).symm ▸ scripted, .refl⟩
  | cons job rest ih =>
      obtain ⟨first, reached⟩ := scripted.executed budgets job
      obtain ⟨others, further⟩ := ih first
      rw [executeAll_cons]
      refine ⟨?_, reached.trans further⟩
      have total {first others : Nat} : first + others + n = others + (first + n) := by omega
      rw [callsMade_cons, total]
      exact others

/-- A run comes to the same as it does alone, with the rest of the script. -/
theorem same_result {alone : World} (scripted : Scripted lines context none n world)
    (forward : environment.Forward world)
    (fresh : Scripted (lines.drop n) context none 0 alone) (forward' : environment.Forward alone)
    (unlimited : budgets.timeLimit = none) (job : Job) :
    let run := (execute budgets job false true).run world
    let single := (execute budgets job false true).run alone
    run.1.calls = single.1.calls ∧ SameResult run.1.result single.1.result := by
  rw [scripted.execute_eq, fresh.execute_eq]
  have plays := fresh.plays
  simp only [Nat.add_zero, List.drop_drop, Nat.add_comm n] at plays
  exact Engine.same_result_of_plays unlimited scripted.plays forward plays forward'

/-- A run that is not refused puts the state that it gives back into the store, and any run does
nothing else to it. -/
theorem executed_loaded (scripted : Scripted lines context none n world) (budgets : Budgets)
    (job : Job) :
    let run := (execute budgets job false true).run world
    (∀ runId, (job.plan.validate = .ok () → job.runId ≠ runId) →
      store.loaded run.2 runId = store.loaded world runId) ∧
    (job.plan.validate = .ok () →
      ∃ s, run.1.returned = some s ∧ store.loaded run.2 job.runId = .ok (some s)) := by
  rw [scripted.execute_eq]
  cases valid : job.plan.validate with
  | error e =>
      rw [Engine.execute_of_invalid world valid]
      exact ⟨fun _ _ => rfl, nofun⟩
  | ok _ =>
      obtain ⟨s, returned, loaded⟩ := Engine.execute_files_returned budgets
        (filesIn scripted.keeping) scripted.plays valid
      constructor
      · intro runId other
        rw [loaded, Function.update_of_ne (other rfl).symm]
      · intro _
        refine ⟨s, returned, ?_⟩
        rw [loaded, Function.update_self]

/-- What no run of a plan that can be run is called by stays as it was in the store. -/
theorem executedAll_loaded_of_ne (scripted : Scripted lines context none n world)
    (budgets : Budgets)
    (others : ∀ job ∈ jobs, job.plan.validate = .ok () → job.runId ≠ runId) :
    store.loaded ((executeAll budgets jobs).run world).2 runId = store.loaded world runId := by
  induction jobs generalizing n world with
  | nil => rfl
  | cons job rest ih =>
      obtain ⟨another, later⟩ := List.forall_mem_cons.mp others
      rw [executeAll_cons]
      exact (ih (scripted.executed budgets job).1 later).trans
        ((scripted.executed_loaded budgets job).1 runId another)

/-- What the last run of a plan that can be run gives back is in the store under its id. -/
theorem executedAll_loaded (scripted : Scripted lines context none n world) (budgets : Budgets)
    {before after : List Job} (valid : job.plan.validate = .ok ())
    (last : ∀ later ∈ after, later.plan.validate = .ok () → later.runId ≠ job.runId) :
    let runs := (executeAll budgets (before ++ job :: after)).run world
    ∃ report s, runs.1[before.length]? = some report ∧ report.returned = some s ∧
      store.loaded runs.2 job.runId = .ok (some s) := by
  obtain ⟨scripted', -⟩ := scripted.executedAll budgets before
  obtain ⟨-, filed⟩ := scripted'.executed_loaded budgets job
  obtain ⟨s, returned, loaded⟩ := filed valid
  have kept := (scripted'.executed budgets job).1.executedAll_loaded_of_ne budgets last
  refine ⟨_, s, getElem?_executeAll budgets before job after world, returned, ?_⟩
  rw [executeAll_append, executeAll_cons]
  exact kept.trans loaded

/-- In a store that was empty there are the ids of the runs of plans that can be run. -/
theorem mem_keys_executedAll (scripted : Scripted lines context none n world)
    (empty : world.memory.states = .empty) (budgets : Budgets) :
    runId ∈ ((executeAll budgets jobs).run world).2.memory.states.keys ↔
      ∃ job ∈ jobs, job.plan.validate = .ok () ∧ job.runId = runId := by
  obtain ⟨scripted', -⟩ := scripted.executedAll budgets jobs
  have loaded := loaded_memory scripted'.keeping
  rw [Table.mem_keys]
  constructor
  · intro present
    by_contra never
    have absent := scripted.executedAll_loaded_of_ne budgets
      fun job member valid named => never ⟨job, member, valid, named⟩
    rw [loaded_memory scripted.keeping, loaded, empty] at absent
    exact present (Except.ok.inj absent)
  · intro ran
    obtain ⟨before, job, after, rfl, valid, rfl, last⟩ := exists_last_run ran
    obtain ⟨-, s, -, -, present⟩ := scripted.executedAll_loaded budgets valid last
    rw [loaded] at present
    rw [Except.ok.inj present]
    exact Option.some_ne_none s

end Scripted

/-- Jobs run one after another, with one script and one store, do not leak into each other. Each run
comes to the same as it does alone in any other world with an empty store and with the script less
the calls that were made before, if the time of day never goes back in either world. In the end the
store has, for each run, the state that the last job with its id gave back, of those whose plan can
be run, and lists these ids in order. -/
theorem executeAll_isolated (scripted : Scripted lines context none 0 world)
    (empty : world.memory.states = .empty) (unlimited : budgets.timeLimit = none)
    (jobs : List Job) :
    let runs := (executeAll budgets jobs).run world
    runs.1.length = jobs.length ∧
    (∀ before job after, jobs = before ++ job :: after →
      ∃ report, runs.1[before.length]? = some report ∧
        (∀ alone,
          Scripted (lines.drop (callsMade (runs.1.take before.length))) context none 0 alone →
          alone.memory.states = .empty → environment.Forward world → environment.Forward alone →
          SameResult report.result ((execute budgets job false true).run alone).1.result) ∧
        (job.plan.validate = .ok () →
          (∀ later ∈ after, later.plan.validate = .ok () → later.runId ≠ job.runId) →
          ∃ s, report.returned = some s ∧ store.loaded runs.2 job.runId = .ok (some s))) ∧
    ∃ ids, (store.list.run runs.2).1 = .ok ids ∧ ids.Pairwise (· < ·) ∧
      (∀ runId, runId ∈ ids ↔ ∃ job ∈ jobs, job.plan.validate = .ok () ∧ job.runId = runId) ∧
      ∀ runId, runId ∉ ids → store.loaded runs.2 runId = .ok none := by
  intro runs
  refine ⟨length_executeAll budgets jobs world, ?_, ?_⟩
  · rintro before job after rfl
    obtain ⟨scripted', reached⟩ := scripted.executedAll budgets before
    rw [Nat.add_zero] at scripted'
    have there := getElem?_executeAll budgets before job after world
    refine ⟨_, there, ?_, ?_⟩
    · intro alone fresh _ forward forward'
      rw [take_executeAll] at fresh
      exact (scripted'.same_result (forward.of_reachable reached) fresh forward' unlimited job).2
    · intro valid last
      obtain ⟨report, s, same, returned, loaded⟩ := scripted.executedAll_loaded budgets valid last
      obtain rfl := Option.some.inj (there.symm.trans same)
      exact ⟨s, returned, loaded⟩
  · obtain ⟨scripted', -⟩ := scripted.executedAll budgets jobs
    have loaded := loaded_memory scripted'.keeping
    refine ⟨runs.2.memory.states.keys, list_memory scripted'.keeping,
      runs.2.memory.states.keys_ascending, fun _ => scripted.mem_keys_executedAll empty budgets, ?_⟩
    intro runId absent
    rw [Table.mem_keys, not_not] at absent
    exact (congrFun loaded runId).trans (congrArg Except.ok absent)

/-- Of a rehearsal, a plan that cannot be run and another rehearsal with the id of the first, the
last gets what is left of the script, and the store has its state. -/
theorem rehearsal_isolated :
    let script : Script := [.ok (3, 4), .error "no answer", .ok (5, 6), .error "late"]
    let unusable : Job := ⟨.sample "plan" 0, "none", "."⟩
    let again : Job := ⟨.sample "plan" 1, "run", "."⟩
    let runs := (executeAll .rehearsal [.rehearsal, unusable, again]).run (.rehearsal script .none)
    callsMade (runs.1.take 2) = 3 ∧ ∃ report s, runs.1[2]? = some report ∧
      SameResult report.result ((execute .rehearsal again false true).run
        (.rehearsal [.error "late"] .none)).1.result ∧
      report.returned = some s ∧ store.loaded runs.2 "run" = .ok (some s) ∧
      store.loaded runs.2 "none" = .ok none := by
  intro script unusable again runs
  have scripted : Scripted script none none 0 (.rehearsal script .none) :=
    ⟨rfl, rfl, rfl, rfl, rfl, rfl, rfl, rfl⟩
  have three : callsMade (runs.1.take 2) = 3 := by decide +kernel
  have fresh : Scripted (script.drop (callsMade (runs.1.take 2))) none none 0
      (.rehearsal [.error "late"] .none) := by
    rw [three]
    exact ⟨rfl, rfl, rfl, rfl, rfl, rfl, rfl, rfl⟩
  obtain ⟨-, isolated, ids, -, -, members, others⟩ := @executeAll_isolated _ _ _ .rehearsal scripted
    rfl rfl [.rehearsal, unusable, again]
  obtain ⟨report, there, alike, stored⟩ := isolated [.rehearsal, unusable] again [] rfl
  obtain ⟨s, returned, loaded⟩ := stored (by decide +kernel) (List.forall_mem_nil _)
  have alike := alike _ fresh rfl (rehearsal_forward _ _) (rehearsal_forward _ _)
  refine ⟨three, report, s, there, alike, returned, loaded, ?_⟩
  apply others
  rw [members]
  decide +kernel

end World

end BudgetedRun
