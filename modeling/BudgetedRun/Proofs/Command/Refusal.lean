import BudgetedRun.Proofs.Command.Agreement
import BudgetedRun.Proofs.Plan.Text

/-!
# Commands that are refused

Whatever is wrong with a command is found before anything is written: a command with exit code 1
leaves all files as they are, and the command that only checks a plan draws the same line as the one
that runs it (`Command.refusal_leaves_no_trace`). What becomes of a command that runs a plan is said
once, by `Command.Attempt`.
-/

namespace BudgetedRun

open DirectoryStore

/-- An action that leaves the host as it is gives a result, and that is all. -/
theorem run_eq_of_snd {σ α : Type} {x : StateM σ α} {s : σ} (still : (x.run s).2 = s) :
    x.run s = ((x.run s).1, s) :=
  Prod.ext rfl still

namespace Config

variable {path : String} {settings : Config} {machine : Machine}

/-- To load the settings leaves the machine as it was. -/
theorem load_run_snd (path : String) (machine : Machine) :
    ((load path : StateM Machine (Except ConfigLoadError Config)).run machine).2 = machine :=
  congrArg Prod.snd (@load_run_congr path machine machine rfl rfl)

/-- Usable settings give budgets. -/
theorem exists_budgets_of_validate (usable : settings.validate = .ok ()) :
    ∃ budgets, settings.budgets = .ok budgets := by
  rw [validate] at usable
  cases limits : settings.budgets with
  | error e =>
      rw [limits] at usable
      cases usable
  | ok budgets => exact ⟨budgets, rfl⟩

/-- Settings that are read from a text are usable. -/
theorem validate_of_ofText {text : String} (read : ofText path text = .ok settings) :
    settings.validate = .ok () := by
  rw [ofText] at read
  split at read
  · cases read
  · split at read
    · rename_i usable
      cases read
      exact usable
    · cases read

/-- Settings that are loaded can be used. -/
theorem validate_of_load
    (loaded : ((load path : StateM Machine (Except ConfigLoadError Config)).run machine).1 =
      .ok settings) :
    settings.validate = .ok () := by
  have looks : (FileSystem.isPresent path : StateM Machine Bool).run machine =
      (machine.disk.isPresent path, machine) := rfl
  cases present : machine.disk.isPresent path with
  | false =>
      rw [load_run_absent present] at loaded
      cases loaded
      rfl
  | true =>
      have still := @Machine.readText_run_congr machine path machine rfl
      rw [load, run_bind_eq looks, present, if_pos rfl, run_bind_eq still] at loaded
      cases read : ((FileSystem.readText path :
          StateM Machine (Except FileError String)).run machine).1 with
      | error e =>
          rw [read] at loaded
          cases loaded
      | ok text =>
          rw [read] at loaded
          exact validate_of_ofText loaded

end Config

/-- A plan that is loaded can be run. -/
theorem Plan.validate_of_load {path : String} {p : Plan} {machine : Machine}
    (loaded : ((load path : StateM Machine (Except PlanFileError Plan)).run machine).1 = .ok p) :
    p.validate = .ok () := by
  have still := @Machine.readText_run_congr machine path machine rfl
  rw [load, run_bind_eq still] at loaded
  cases read : ((FileSystem.readText path :
      StateM Machine (Except FileError String)).run machine).1 with
  | error e =>
      rw [read] at loaded
      cases loaded
  | ok text =>
      rw [read] at loaded
      simp only at loaded
      cases parsed : Plan.parse text with
      | error e =>
          rw [parsed] at loaded
          cases loaded
      | ok q =>
          rw [parsed] at loaded
          cases loaded
          obtain ⟨v, -, -, valid⟩ := parse_eq_ok_iff.mp parsed
          exact valid

namespace DirectoryStore

theorem load_run_snd (base runId : String) (machine : Machine) :
    ((load base runId : StateM Machine (Except StoreError (Option RunState))).run machine).2 =
      machine :=
  congrArg Prod.snd (@load_run_congr machine base runId machine rfl)

end DirectoryStore

/-- No run of a plan that can be run has the exit code of a command that is refused. -/
theorem History.Runs.code_ne_one {clock : Timestamp → Timestamp → Prop} {budgets : Budgets}
    {job : Job} {report : Report} (runs : Runs clock budgets job report)
    (valid : job.plan.validate = .ok ()) : (Output.ofResult report.result).code ≠ 1 := by
  have codes : RunStatus.completed.exitCode ≠ 1 ∧ RunStatus.stopped.exitCode ≠ 1 ∧
      RunStatus.failed.exitCode ≠ 1 := by decide
  obtain ⟨s, answered, rejected, closing, -, -, -, closes⟩ := runs.accounts valid
  cases result : report.result with
  | ok s' =>
      rw [result] at closes
      rw [Output.ofResult]
      obtain status | status := closes.completed_or_stopped
      · rw [status]
        exact codes.1
      · rw [status]
        exact codes.2.1
  | error e =>
      rw [result] at closes
      cases closes with
      | failed => exact codes.2.2

namespace Command

variable {plan repository config : String} {runId : Option String} {store : StoreKind}
  {settings : Config} {budgets : Budgets} {job : Job} {machine : Machine} {ran : Output × Machine}

/-- A call leaves the disk as it was. -/
theorem keeps_disk_call (settings : Config) (store : StoreKind) (d : Disk) (r : Request) :
    Keeps (fun machine => machine.disk = d)
      ((environment settings store : Environment (StateM Machine)).call r) fun _ => True := by
  have waits (time : Duration) : Keeps (fun machine => machine.disk = d)
      (Clock.sleep time : StateM Machine Unit) fun _ => True :=
    fun _ still => ⟨trivial, still⟩
  exact (waits _).bind fun _ _ => .pure trivial

/-- Whatever a run with states that are not kept asks of a machine, the files stay as they are. -/
theorem respects_disk (settings : Config) (d : Disk) :
    (environment settings .memory : Environment (StateM Machine)).Respects (fun _ => True)
      (fun machine => machine.disk = d) where
  now _ still := ⟨trivial, still⟩
  steady _ still := still
  cancelled _ still := still
  call r w still := (keeps_disk_call settings .memory d r w still).2
  save _ _ still := still

/-- A run whose states are not kept does what the plan says, and that is all. -/
theorem execute_run_memory (settings : Config) (budgets : Budgets) (job : Job) (machine : Machine) :
    let env : Environment (StateM Machine) := environment settings .memory
    (execute settings budgets .memory job : StateM Machine Output).run machine =
      (.ofResult (Engine.report env budgets job machine).result,
        ((Engine.execute env budgets job).run machine).2) := by
  intro env
  have runs : (Engine.execute env budgets job).run machine =
      (Engine.report env budgets job machine,
        ((Engine.execute env budgets job).run machine).2) := rfl
  rw [execute, run_bind_eq runs]
  rfl

theorem execute_run_code_ne_one (valid : job.plan.validate = .ok ()) (settings : Config)
    (budgets : Budgets) (store : StoreKind) (machine : Machine) :
    ((execute settings budgets store job : StateM Machine Output).run machine).1.code ≠ 1 := by
  have runs := Engine.report_runs (environment settings store : Environment (StateM Machine))
    budgets job machine
  cases store with
  | file =>
      rw [execute_run]
      exact runs.code_ne_one valid
  | memory =>
      rw [execute_run_memory]
      exact runs.code_ne_one valid

/-- A run with a store in memory leaves the disk as it was. -/
theorem execute_run_memory_disk (valid : job.plan.validate = .ok ()) (settings : Config)
    (budgets : Budgets) (machine : Machine) :
    ((execute settings budgets .memory job : StateM Machine Output).run machine).2.disk =
      machine.disk := by
  have effects := Engine.execute_effects (environment settings .memory) budgets valid machine
  rw [execute_run_memory]
  exact effects.reachable.good (respects_disk settings machine.disk) rfl

/-- To choose an id leaves the disk as it was. -/
theorem disk_eq_of_chooseRunId {id : String} {chosen : Machine}
    (chooses : (chooseRunId runId : StateM Machine String).run machine = (id, chosen)) :
    chosen.disk = machine.disk := by
  cases runId <;> cases chooses <;> rfl

/-- What becomes of the command that runs a plan: the first thing that is wrong refuses it, and if
nothing is wrong the plan is run. -/
inductive Attempt (plan repository : String) (runId : Option String) (config : String)
    (store : StoreKind) (machine : Machine) : Output × Machine → Prop where
  | misconfigured {e : ConfigLoadError}
      (refused : ((Config.load config :
        StateM Machine (Except ConfigLoadError Config)).run machine).1 = .error e) :
      Attempt plan repository runId config store machine (.refused (.config e), machine)
  | unplanned {settings : Config} {e : PlanFileError}
      (loaded : ((Config.load config :
        StateM Machine (Except ConfigLoadError Config)).run machine).1 = .ok settings)
      (refused : ((Plan.load plan :
        StateM Machine (Except PlanFileError Plan)).run machine).1 = .error e) :
      Attempt plan repository runId config store machine (.refused (.plan e), machine)
  | unnamed {settings : Config} {p : Plan} {id : String} {e : RunIdError} {chosen : Machine}
      (loaded : ((Config.load config :
        StateM Machine (Except ConfigLoadError Config)).run machine).1 = .ok settings)
      (read : ((Plan.load plan :
        StateM Machine (Except PlanFileError Plan)).run machine).1 = .ok p)
      (chooses : (chooseRunId runId : StateM Machine String).run machine = (id, chosen))
      (refused : RunId.check id = .error e) :
      Attempt plan repository runId config store machine (.refused (.runId e), chosen)
  | carried {settings : Config} {p : Plan} {id : String} {budgets : Budgets} {chosen : Machine}
      (loaded : ((Config.load config :
        StateM Machine (Except ConfigLoadError Config)).run machine).1 = .ok settings)
      (read : ((Plan.load plan :
        StateM Machine (Except PlanFileError Plan)).run machine).1 = .ok p)
      (chooses : (chooseRunId runId : StateM Machine String).run machine = (id, chosen))
      (accepted : RunId.check id = .ok ()) (limits : settings.budgets = .ok budgets) :
      Attempt plan repository runId config store machine
        ((execute settings budgets store ⟨p, id, repository⟩ : StateM Machine Output).run chosen)

theorem performRun_attempt (plan repository : String) (runId : Option String) (config : String)
    (store : StoreKind) (machine : Machine) :
    Attempt plan repository runId config store machine
      ((performRun plan repository runId config store : StateM Machine Output).run machine) := by
  have loads := run_eq_of_snd (Config.load_run_snd config machine)
  have reads := run_eq_of_snd (Plan.load_run_snd plan machine)
  rw [performRun, run_bind_eq loads]
  cases loaded : ((Config.load config :
      StateM Machine (Except ConfigLoadError Config)).run machine).1 with
  | error e => exact .misconfigured loaded
  | ok settings =>
      simp only
      rw [run_bind_eq reads]
      cases read : ((Plan.load plan :
          StateM Machine (Except PlanFileError Plan)).run machine).1 with
      | error e => exact .unplanned loaded read
      | ok p =>
          obtain ⟨id, chosen, chooses⟩ : ∃ id chosen,
              (chooseRunId runId : StateM Machine String).run machine = (id, chosen) := ⟨_, _, rfl⟩
          simp only
          rw [run_bind_eq chooses]
          cases accepted : RunId.check id with
          | error e => exact .unnamed loaded read chooses accepted
          | ok _ =>
              obtain ⟨budgets, limits⟩ :=
                Config.exists_budgets_of_validate (Config.validate_of_load loaded)
              simp only [limits]
              exact .carried loaded read chooses accepted limits

namespace Attempt

/-- A command that runs a plan writes nothing if it is refused. -/
theorem disk_eq_of_refused (attempt : Attempt plan repository runId config store machine ran)
    (code : ran.1.code = 1) : ran.2.disk = machine.disk := by
  cases attempt with
  | misconfigured refused => rfl
  | unplanned loaded refused => rfl
  | unnamed loaded read chooses refused => exact disk_eq_of_chooseRunId chooses
  | carried loaded read chooses accepted limits =>
      exact absurd code (execute_run_code_ne_one (Plan.validate_of_load read) _ _ _ _)

theorem disk_eq_of_memory (attempt : Attempt plan repository runId config .memory machine ran) :
    ran.2.disk = machine.disk := by
  cases attempt with
  | misconfigured refused => rfl
  | unplanned loaded refused => rfl
  | unnamed loaded read chooses refused => exact disk_eq_of_chooseRunId chooses
  | carried loaded read chooses accepted limits =>
      exact (execute_run_memory_disk (Plan.validate_of_load read) _ _ _).trans
        (disk_eq_of_chooseRunId chooses)

/-- With settings and a run id that can be used, it is the plan alone that a run is refused for. -/
theorem code_ne_one_iff (attempt : Attempt plan repository runId config store machine ran)
    (loaded : ((Config.load config :
      StateM Machine (Except ConfigLoadError Config)).run machine).1 = .ok settings)
    (accepted : RunId.check ((chooseRunId runId : StateM Machine String).run machine).1 = .ok ()) :
    ran.1.code ≠ 1 ↔
      ∃ p, ((Plan.load plan : StateM Machine (Except PlanFileError Plan)).run machine).1 =
        .ok p := by
  cases attempt with
  | misconfigured refused =>
      rw [refused] at loaded
      cases loaded
  | unplanned _ refused =>
      rw [refused]
      exact ⟨fun code => absurd rfl code, nofun⟩
  | unnamed _ read chooses refused =>
      rw [chooses, refused] at accepted
      cases accepted
  | carried _ read =>
      exact ⟨fun _ => ⟨_, read⟩,
        fun _ => execute_run_code_ne_one (Plan.validate_of_load read) _ _ _ _⟩

end Attempt

theorem performShow_run_snd (id config : String) (machine : Machine) :
    ((performShow id config : StateM Machine Output).run machine).2 = machine := by
  have loads := run_eq_of_snd (Config.load_run_snd config machine)
  rw [performShow, run_bind_eq loads]
  cases ((Config.load config : StateM Machine (Except ConfigLoadError Config)).run machine).1 with
  | error e => rfl
  | ok settings =>
      have finds := run_eq_of_snd (load_run_snd settings.storePath id machine)
      simp only
      rw [run_bind_eq finds]
      split <;> rfl

theorem performList_run_snd (config : String) (machine : Machine) :
    ((performList config : StateM Machine Output).run machine).2 = machine := by
  have loads := run_eq_of_snd (Config.load_run_snd config machine)
  rw [performList, run_bind_eq loads]
  cases ((Config.load config : StateM Machine (Except ConfigLoadError Config)).run machine).1 with
  | error e => rfl
  | ok settings =>
      have lists := run_eq_of_snd (list_run_snd settings.storePath machine)
      simp only
      rw [run_bind_eq lists]
      split <;> rfl

/-- To validate a plan leaves the machine as it was, and succeeds exactly if the plan is loaded. -/
theorem performValidate_run (plan : String) (machine : Machine) :
    ((performValidate plan : StateM Machine Output).run machine).2 = machine ∧
      (((performValidate plan : StateM Machine Output).run machine).1.code = 0 ↔
        ∃ p, ((Plan.load plan : StateM Machine (Except PlanFileError Plan)).run machine).1 =
          .ok p) := by
  have reads := run_eq_of_snd (Plan.load_run_snd plan machine)
  have refused : (1 : UInt32) ≠ 0 := by decide
  rw [performValidate, run_bind_eq reads]
  cases ((Plan.load plan : StateM Machine (Except PlanFileError Plan)).run machine).1 with
  | error e => exact ⟨rfl, fun code => absurd code refused, nofun⟩
  | ok p => exact ⟨rfl, fun _ => ⟨p, rfl⟩, fun _ => rfl⟩

/-- A command that is refused leaves no trace: with exit code 1 all files are as they were. So they
are after a run whose states are not kept, whatever its exit code. And a plan passes the command
that checks it exactly if a run of it, with settings and a run id that can be used, is not
refused. -/
theorem refusal_leaves_no_trace :
    (∀ (command : Command) (machine : Machine),
      let ran := (perform command : StateM Machine Output).run machine
      ran.1.code = 1 → ran.2.disk = machine.disk) ∧
    (∀ (plan repository : String) (runId : Option String) (config : String) (machine : Machine),
      ((perform (.run plan repository runId config .memory) :
        StateM Machine Output).run machine).2.disk = machine.disk) ∧
    ∀ (plan repository : String) (runId : Option String) (config : String) (store : StoreKind)
      (machine : Machine) (settings : Config),
      ((Config.load config : StateM Machine (Except ConfigLoadError Config)).run machine).1 =
        .ok settings →
      RunId.check ((chooseRunId runId : StateM Machine String).run machine).1 = .ok () →
      (((perform (.validate plan) : StateM Machine Output).run machine).1.code = 0 ↔
        ((perform (.run plan repository runId config store) :
          StateM Machine Output).run machine).1.code ≠ 1) := by
  refine ⟨fun command machine => ?_, fun plan repository runId config machine => ?_, ?_⟩
  · intro ran code
    cases command with
    | run plan repository runId config store =>
        have attempt := performRun_attempt plan repository runId config store machine
        exact attempt.disk_eq_of_refused code
    | showRun id config => exact congrArg Machine.disk (performShow_run_snd id config machine)
    | listRuns config => exact congrArg Machine.disk (performList_run_snd config machine)
    | validate plan => exact congrArg Machine.disk (performValidate_run plan machine).1
  · exact (performRun_attempt plan repository runId config .memory machine).disk_eq_of_memory
  · intro plan repository runId config store machine settings loaded accepted
    have attempt := performRun_attempt plan repository runId config store machine
    exact (performValidate_run plan machine).2.trans
      (attempt.code_ne_one_iff loaded accepted).symm

theorem rehearsal_refused :
    ((perform (.run "missing.json" "." (some "r") "engine.toml" .file) :
      StateM Machine Output).run rehearsal).1.code = 1 := by
  decide +kernel

/-- On the machine for rehearsals a run of a missing plan is refused and leaves the files as they
are, and the plan that is there runs and passes its check. -/
theorem refusal_leaves_no_trace_rehearsal :
    ((perform (.run "missing.json" "." (some "r") "engine.toml" .file) :
        StateM Machine Output).run rehearsal).2.disk = rehearsal.disk ∧
      ((perform (.run "plan.json" "." (some "r") "engine.toml" .memory) :
        StateM Machine Output).run rehearsal).2.disk = rehearsal.disk ∧
      ((perform (.validate "plan.json") : StateM Machine Output).run rehearsal).1.code = 0 := by
  have loaded : ((Config.load "engine.toml" :
      StateM Machine (Except ConfigLoadError Config)).run rehearsal).1 = .ok .standard := by
    decide +kernel
  obtain ⟨untouched, unkept, agree⟩ := refusal_leaves_no_trace
  refine ⟨untouched _ _ rehearsal_refused, unkept _ _ _ _ _, ?_⟩
  refine (agree "plan.json" "." (some "r") "engine.toml" .file _ _ loaded (by decide)).mpr ?_
  rw [rehearsal_code]
  decide

end Command

end BudgetedRun
