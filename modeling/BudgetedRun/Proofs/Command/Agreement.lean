import BudgetedRun.Command.Perform
import BudgetedRun.Proofs.Config.File
import BudgetedRun.Proofs.Engine.Storage
import BudgetedRun.Proofs.Store.Holding
import BudgetedRun.Proofs.Store.Outside

/-!
# Runs that can be looked at

The commands agree with one another: a run that is over is shown as it was printed and is among the
runs that are listed (`Command.run_agrees_with_show`), because its last write has put what is
printed into its place, and nothing that decides where to look has changed.
-/

namespace BudgetedRun

open Disk DirectoryStore

namespace History

variable {clock : Timestamp → Timestamp → Prop} {budgets : Budgets} {job : Job} {s : RunState}
  {report : Report}

/-- A plan that was run to an end is valid. -/
theorem Runs.valid_of_ok (runs : Runs clock budgets job report) (ok : report.result = .ok s) :
    job.plan.validate = .ok () := by
  cases runs with
  | refused invalid => cases ok
  | failed valid => exact valid
  | unfinished valid => exact valid
  | finished valid => exact valid

/-- The state that a run ends in is consistent. -/
theorem Runs.consistent_of_ok (runs : Runs clock budgets job report) (ok : report.result = .ok s) :
    s.violations = [] := by
  cases runs with
  | refused invalid => cases ok
  | failed valid closes => cases ok
  | unfinished valid closes => cases ok
  | finished valid closes reading finished_eq consistent =>
      cases ok
      exact (RunState.of_progressViolations_eq_nil consistent).1

/-- The last write of a run that is finished has saved what it gives back. -/
theorem Runs.last_write (runs : Runs clock budgets job report) (ok : report.result = .ok s) :
    s.runId = job.runId ∧ report.writes.getLast? = some (s, .ok ()) := by
  have deposits := runs.deposits (runs.valid_of_ok ok)
  rw [ok] at deposits
  generalize report.writes = writes at deposits
  cases deposits with
  | finished underway own =>
      rw [saved_append]
      exact ⟨own, List.getLast?_concat⟩

end History

namespace Command

variable {settings : Config} {started : Duration} {w w' machine : Machine} {events : List Event}
  {s : RunState} {d : Disk}

theorem environment_save (s : RunState) :
    (environment settings .file : Environment (StateM Machine)).save s =
      save settings.storePath s := rfl

/-- A call spares the whole disk. -/
theorem spares_call (r : Request) :
    Keeps (fun machine => d.Spares settings.storePath machine.disk)
      ((environment settings .file : Environment (StateM Machine)).call r) fun _ => True := by
  have waits (time : Duration) : Keeps (fun machine => d.Spares settings.storePath machine.disk)
      (Clock.sleep time : StateM Machine Unit) fun _ => True :=
    fun _ still => ⟨trivial, still⟩
  exact (waits _).bind fun _ _ => .pure trivial

/-- Whatever a run asks of a machine, only the store changes. -/
theorem respects_spares (plain : ".." ∉ names settings.storePath)
    (nonempty : settings.storePath ≠ "") :
    (environment settings .file : Environment (StateM Machine)).Respects (fun _ => True)
      (fun machine => d.Spares settings.storePath machine.disk) where
  now _ still := ⟨trivial, still⟩
  steady _ still := still
  cancelled _ still := still
  call r w still := (spares_call r w still).2
  save s w still := by
    rw [environment_save]
    exact (spares_save plain nonempty s w still).2

/-- After the last write, if it was saved, its state is in place. -/
theorem holds_of_last_write (nonempty : settings.storePath ≠ "")
    (effects : Effects (environment settings .file) started w events w')
    (last : (events.filterMap Event.write?).getLast? = some (s, .ok ())) :
    Holds settings.storePath s.runId s.snapshot w'.disk := by
  induction effects with
  | refl => cases last
  | now _ ih => exact ih last
  | steady _ ih => exact ih last
  | cancelled _ ih => exact ih last
  | logged _ entry timestamp ih =>
      rw [List.filterMap_append] at last
      exact ih ((congrArg List.getLast? (List.append_nil _)).symm.trans last)
  | called _ reading t request ih =>
      obtain rfl := congrArg Prod.snd reading
      rw [List.filterMap_append] at last
      exact ih ((congrArg List.getLast? (List.append_nil _)).symm.trans last)
  | @wrote events w' _ t ih =>
      rw [List.filterMap_append, List.filterMap_cons, Event.write?_wrote] at last
      simp only [List.filterMap_nil, List.getLast?_concat, Option.some.injEq, Prod.mk.injEq] at last
      obtain ⟨rfl, said⟩ := last
      rw [environment_save] at said ⊢
      exact .of_save nonempty said

end Command

namespace Config

variable {path : String} {settings : Config} {machine machine' : Machine}

/-- Settings that name a store are loaded again when only that store has changed. -/
theorem load_run_of_spares
    (loaded : ((load path : StateM Machine (Except ConfigLoadError Config)).run machine).1 =
      .ok settings)
    (plain : ".." ∉ names path)
    (apart : ¬machine.disk.resolve settings.storePath <+: machine.disk.resolve path)
    (spares : machine.disk.Spares settings.storePath machine'.disk) :
    (load path : StateM Machine (Except ConfigLoadError Config)).run machine' =
      (.ok settings, machine') := by
  have known : machine.disk.isPresent path = true ∨
      ∃ name, machine.disk.resolve settings.storePath =
        machine.disk.origin settings.storePath ++ [name] := by
    cases present : machine.disk.isPresent path with
    | true => exact .inl rfl
    | false =>
        rw [load_run_absent present] at loaded
        cases loaded
        exact .inr ⟨".plan-engine", rfl⟩
  obtain ⟨read, present⟩ := spares.read_eq plain apart known
  rw [load_run_congr read present, loaded]

end Config

theorem Plan.load_run_snd (path : String) (machine : Machine) :
    ((load path : StateM Machine (Except PlanFileError Plan)).run machine).2 = machine := by
  have still := @Machine.readText_run_congr machine path machine rfl
  rw [load, run_bind_eq still]
  cases ((FileSystem.readText path : StateM Machine (Except FileError String)).run machine).1 with
  | error e => rfl
  | ok text =>
      simp only
      cases Plan.parse text <;> rfl

/-- Exactly a completed run ends the command with 0. -/
theorem RunStatus.exitCode_eq_zero {status : RunStatus} :
    status.exitCode = 0 ↔ status = .completed := by
  cases status <;> decide

/-- Exactly a stopped run ends the command with 2. -/
theorem RunStatus.exitCode_eq_two {status : RunStatus} :
    status.exitCode = 2 ↔ status = .stopped := by
  cases status <;> decide

/-- Only a run that is finished has one of the exit codes of runs that are. -/
theorem Output.ok_of_code {result : Except RunError RunState}
    (code : (ofResult result).code = 0 ∨ (ofResult result).code = 2) : ∃ s, result = .ok s := by
  cases result with
  | ok s => exact ⟨s, rfl⟩
  | error e =>
      have failed : ¬(RunStatus.failed.exitCode = 0 ∨ RunStatus.failed.exitCode = 2) := by decide
      have refused : ¬((1 : UInt32) = 0 ∨ (1 : UInt32) = 2) := by decide
      cases e with
      | failed f => exact absurd code failed
      | invalidPlan e => exact absurd code refused

namespace Command

variable {plan repository id config : String} {settings : Config} {budgets : Budgets} {job : Job}
  {machine after : Machine} {s : RunState} {out : Output}

/-- The state of a run can be looked at: it is in its file, it is what is shown, and the run is
among those that are listed. -/
structure Finds (config base id text : String) (machine : Machine) : Prop where
  kept : machine.disk.read (RunPaths.of base id).snapshot = .ok text.toUTF8
  shown : (perform (.showRun id config) : StateM Machine Output).run machine = (.ok text, machine)
  listed : ∃ ids : List String, (perform (.listRuns config) : StateM Machine Output).run machine =
    (.ok (String.join (ids.map (· ++ "\n"))), machine) ∧ id ∈ ids

/-- A consistent state that the store holds is found by the other commands. -/
theorem Finds.of_holds
    (loads : (Config.load config : StateM Machine (Except ConfigLoadError Config)).run machine =
      (.ok settings, machine))
    (holds : Holds settings.storePath s.runId s.snapshot machine.disk)
    (accepted : RunId.fault? s.runId = none) (consistent : s.violations = []) :
    Finds config settings.storePath s.runId s.snapshot machine where
  kept := holds.read_eq (RunId.isName accepted)
  shown := by
    rw [perform, performShow, run_bind_eq loads]
    simp only
    rw [run_bind_eq (holds.load_run accepted consistent)]
    rfl
  listed := by
    obtain ⟨ids, lists, member⟩ := holds.list_run accepted
    refine ⟨ids, ?_, member⟩
    rw [perform, performList, run_bind_eq loads]
    simp only
    rw [run_bind_eq lists]
    rfl

theorem execute_run (settings : Config) (budgets : Budgets) (job : Job) (machine : Machine) :
    let env : Environment (StateM Machine) := environment settings .file
    let report := Engine.report env budgets job machine
    (execute settings budgets .file job : StateM Machine Output).run machine =
      (.ofResult report.result,
        ((writeRunLog settings.storePath job.runId report.log :
          StateM Machine (Except LogError Unit)).run
            ((Engine.execute env budgets job).run machine).2).2) := by
  intro env report
  have runs : (Engine.execute env budgets job).run machine =
      (report, ((Engine.execute env budgets job).run machine).2) := rfl
  rw [execute, run_bind_eq runs]
  rfl

/-- A run that has one of the exit codes of finished runs was given settings, a plan and a run id,
and did what they say. -/
theorem performRun_run
    (loads : (Config.load config : StateM Machine (Except ConfigLoadError Config)).run machine =
      (.ok settings, machine))
    (ran : (performRun plan repository (some id) config .file : StateM Machine Output).run machine =
      (out, after))
    (code : out.code = 0 ∨ out.code = 2) :
    ∃ p budgets, RunId.check id = .ok () ∧ settings.budgets = .ok budgets ∧
      (execute settings budgets .file ⟨p, id, repository⟩ : StateM Machine Output).run machine =
        (out, after) := by
  have unrefused {e : CommandError} (refused : (Output.refused e, machine) = (out, after)) :
      False := by
    cases refused
    have failed : ¬((1 : UInt32) = 0 ∨ (1 : UInt32) = 2) := by decide
    exact failed code
  rw [performRun, run_bind_eq loads] at ran
  simp only at ran
  cases read : ((Plan.load plan : StateM Machine (Except PlanFileError Plan)).run machine).1 with
  | error e =>
      have reads : (Plan.load plan : StateM Machine (Except PlanFileError Plan)).run machine =
          (.error e, machine) := Prod.ext read (Plan.load_run_snd plan machine)
      rw [run_bind_eq reads] at ran
      exact (unrefused ran).elim
  | ok p =>
      have reads : (Plan.load plan : StateM Machine (Except PlanFileError Plan)).run machine =
          (.ok p, machine) := Prod.ext read (Plan.load_run_snd plan machine)
      have chooses :
          (chooseRunId (some id) : StateM Machine String).run machine = (id, machine) := rfl
      rw [run_bind_eq reads] at ran
      simp only at ran
      rw [run_bind_eq chooses] at ran
      cases checked : RunId.check id with
      | error e =>
          simp only [checked] at ran
          exact (unrefused ran).elim
      | ok _ =>
          cases limits : settings.budgets with
          | error e =>
              simp only [checked, limits] at ran
              exact (unrefused ran).elim
          | ok budgets =>
              simp only [checked, limits] at ran
              exact ⟨p, budgets, rfl, rfl, ran⟩

/-- The state of a run that is finished is in the store, and nothing beside the store has
changed. -/
theorem execute_holds (plain : ".." ∉ names settings.storePath) (nonempty : settings.storePath ≠ "")
    (ok : (Engine.report (environment settings .file) budgets job machine).result = .ok s) :
    let finished := ((Engine.execute (environment settings .file : Environment (StateM Machine))
      budgets job).run machine).2
    s.runId = job.runId ∧ s.violations = [] ∧
      Holds settings.storePath s.runId s.snapshot finished.disk ∧
      machine.disk.Spares settings.storePath finished.disk := by
  intro finished
  have runs := Engine.report_runs (environment settings .file) budgets job machine
  have effects := Engine.execute_effects (environment settings .file) budgets
    (runs.valid_of_ok ok) machine
  obtain ⟨own, last⟩ := runs.last_write ok
  exact ⟨own, runs.consistent_of_ok ok, holds_of_last_write nonempty effects last,
    effects.reachable.good (respects_spares plain nonempty) (.refl _ _)⟩

/-- A run that exits as a finished one prints a state that is complete if it exits with 0 and
stopped if it exits with 2. What it prints is in the file of its run, it is what the command prints
that shows the run, and the run is among those that are listed. All this holds already before the
log of the run is written, and a log leaves it as it is, whichever it is and whether it can be
written or not. The settings must not come from the store, and `..` must not be in the way to
either. -/
theorem run_agrees_with_show
    (loaded :
      ((Config.load config : StateM Machine (Except ConfigLoadError Config)).run machine).1 =
        .ok settings)
    (plain : ".." ∉ names config) (storePlain : ".." ∉ names settings.storePath)
    (apart : ¬machine.disk.resolve settings.storePath <+: machine.disk.resolve config)
    (ran : (perform (.run plan repository (some id) config .file) : StateM Machine Output).run
      machine = (out, after))
    (code : out.code = 0 ∨ out.code = 2) :
    Finds config settings.storePath id out.out after ∧
    ∃ (s : RunState) (p : Plan) (budgets : Budgets),
      let env : Environment (StateM Machine) := environment settings .file
      let report := Engine.report env budgets ⟨p, id, repository⟩ machine
      let finished := ((Engine.execute env budgets ⟨p, id, repository⟩).run machine).2
      let logged (entries : List LogEntry) : Machine :=
        ((writeRunLog settings.storePath id entries : StateM Machine (Except LogError Unit)).run
          finished).2
      out.out = s.snapshot ∧ RunState.parse? out.out = some s ∧
        (out.code = 0 ↔ s.status = .completed) ∧ (out.code = 2 ↔ s.status = .stopped) ∧
        Finds config settings.storePath id out.out finished ∧ after = logged report.log ∧
        ∀ entries, Finds config settings.storePath id out.out (logged entries) := by
  have still := @Config.load_run_congr config machine machine rfl rfl
  rw [loaded] at still
  obtain ⟨p, budgets, checked, limits, executed⟩ := performRun_run still ran code
  have accepted := RunId.fault?_of_check checked
  have nonempty : settings.storePath ≠ "" := by
    rw [Config.budgets] at limits
    split at limits
    · cases limits
    split at limits
    · cases limits
    · assumption
  rw [execute_run] at executed
  cases executed
  obtain ⟨s, ok⟩ := Output.ok_of_code code
  obtain ⟨rfl, consistent, holds, spares⟩ := execute_holds storePlain nonempty ok
  rw [ok]
  have finds {machine' : Machine}
      (holds : Holds settings.storePath s.runId s.snapshot machine'.disk)
      (spares : machine.disk.Spares settings.storePath machine'.disk) :
      Finds config settings.storePath s.runId s.snapshot machine' :=
    .of_holds (Config.load_run_of_spares loaded plain apart spares) holds accepted consistent
  have logged (entries : List LogEntry) := finds (holds.writeRunLog accepted entries)
    (spares_writeRunLog storePlain nonempty s.runId entries _ spares).2
  exact ⟨logged _, s, p, budgets, rfl, s.parse?_snapshot, RunStatus.exitCode_eq_zero,
    RunStatus.exitCode_eq_two, finds holds spares, rfl, logged⟩

/-- A machine for rehearsals, with a plan of one step and a directory in the place of a log. -/
def rehearsal : Machine where
  disk := ⟨.directory
    [("plan.json", .file (Plan.sample "plan" 1).compactText.toUTF8),
      (".plan-engine", .directory [("runs", .directory [("r", .directory
        [("log.jsonl", .directory [])])])])], []⟩
  process := 7
  tags := 0
  dayClock := fun _ => World.dawn
  steadyClock := fun _ => 0
  readings := 0
  waited := 0

theorem rehearsal_code :
    ((perform (.run "plan.json" "." (some "r") "engine.toml" .file) :
      StateM Machine Output).run rehearsal).1.code = 0 := by
  decide +kernel

/-- A directory in the place of its log does not keep a run with standard settings from being
shown. -/
theorem run_agrees_with_show_unlogged :
    let ran := (perform (.run "plan.json" "." (some "r") "engine.toml" .file) :
      StateM Machine Output).run rehearsal
    ran.1.code = 0 ∧ Finds "engine.toml" ".plan-engine" "r" ran.1.out ran.2 := by
  have loaded : ((Config.load "engine.toml" :
      StateM Machine (Except ConfigLoadError Config)).run rehearsal).1 = .ok .standard := by
    decide +kernel
  have apart : ¬rehearsal.disk.resolve Config.standard.storePath <+:
      rehearsal.disk.resolve "engine.toml" := by
    decide +kernel
  have agrees := run_agrees_with_show loaded (by decide +kernel) (by decide +kernel) apart
    Prod.mk.eta.symm (.inl rehearsal_code)
  exact ⟨rehearsal_code, agrees.1⟩

end Command

end BudgetedRun
