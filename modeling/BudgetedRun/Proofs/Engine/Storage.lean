import BudgetedRun.Proofs.Engine.Course
import BudgetedRun.Proofs.Engine.Effects
import BudgetedRun.Proofs.Engine.Simulation

/-!
# What a store holds after a run

The states that a run has saved are put into its store one after another, each in place of the one
of the same run (`Engine.execute_files`). So the store agrees with what the run gives back, as far
as its last writes were saved.
-/

namespace BudgetedRun

variable {σ : Type}

namespace Store

/-- What a store answers in some world, run by run. -/
def loaded (store : Store (StateM σ)) (w : σ) : String → Except StoreError (Option RunState) :=
  fun runId => ((store.load runId).run w).1

end Store

/-- The answers of a store after a state was put into it. -/
def filed (answers : String → Except StoreError (Option RunState)) (s : RunState) :
    String → Except StoreError (Option RunState) :=
  Function.update answers s.runId (.ok (some s))

section filed

variable {answers : String → Except StoreError (Option RunState)} {states : List RunState}
  {runId : String}

/-- States of one run leave all others alone. -/
theorem foldl_filed_of_ne (own : ∀ s ∈ states, s.runId = runId) {other : String}
    (another : other ≠ runId) : states.foldl filed answers other = answers other := by
  induction states generalizing answers with
  | nil => rfl
  | cons s rest ih =>
      obtain ⟨first, later⟩ := List.forall_mem_cons.mp own
      rw [List.foldl_cons, ih later, filed, first, Function.update_of_ne another]

/-- The last of some states under an id is what is stored under it. -/
theorem foldl_filed_append (s : RunState) :
    (states ++ [s]).foldl filed answers s.runId = .ok (some s) := by
  rw [List.foldl_append, List.foldl_cons, List.foldl_nil, filed, Function.update_self]

end filed

namespace Environment

variable {env : Environment (StateM σ)} {store : Store (StateM σ)} {w w' w'' : σ}

theorem Reachable.trans (first : env.Reachable w w') (second : env.Reachable w' w'') :
    env.Reachable w w'' := by
  induction second with
  | refl => exact first
  | now _ ih => exact ih.now
  | steady _ ih => exact ih.steady
  | cancelled _ ih => exact ih.cancelled
  | call request _ ih => exact ih.call request
  | save s _ ih => exact ih.save s

/-- The states of runs are kept in a store. A state that is saved takes the place of the one of the
same run; a write that fails, and whatever else is asked for, leaves the store as it was. -/
structure FilesIn (env : Environment (StateM σ)) (store : Store (StateM σ)) (w : σ) : Prop where
  now : ∀ w', env.Reachable w w' → store.loaded (env.now.run w').2 = store.loaded w'
  steady : ∀ w', env.Reachable w w' → store.loaded (env.steady.run w').2 = store.loaded w'
  cancelled : ∀ w', env.Reachable w w' → store.loaded (env.cancelled.run w').2 = store.loaded w'
  call : ∀ w' request, env.Reachable w w' →
    store.loaded ((env.call request).run w').2 = store.loaded w'
  saved : ∀ w' s, env.Reachable w w' → ((env.save s).run w').1 = .ok () →
    store.loaded ((env.save s).run w').2 = filed (store.loaded w') s
  unsaved : ∀ w' s e, env.Reachable w w' → ((env.save s).run w').1 = .error e →
    store.loaded ((env.save s).run w').2 = store.loaded w'

theorem FilesIn.of_reachable (files : env.FilesIn store w) (reached : env.Reachable w w') :
    env.FilesIn store w' where
  now _ later := files.now _ (reached.trans later)
  steady _ later := files.steady _ (reached.trans later)
  cancelled _ later := files.cancelled _ (reached.trans later)
  call _ request later := files.call _ request (reached.trans later)
  saved _ s later := files.saved _ s (reached.trans later)
  unsaved _ s e later := files.unsaved _ s e (reached.trans later)

end Environment

namespace Effects

variable {env : Environment (StateM σ)} {store : Store (StateM σ)} {started : Duration}
  {w w' : σ} {events : List Event}

theorem reachable (effects : Effects env started w events w') : env.Reachable w w' := by
  induction effects with
  | refl => exact .refl
  | now _ ih => exact ih.now
  | steady _ ih => exact ih.steady
  | cancelled _ ih => exact ih.cancelled
  | logged _ entry timestamp ih => exact ih.now
  | called _ reading s request ih =>
      obtain rfl := congrArg Prod.snd reading
      exact (ih.cancelled.steady).call request
  | wrote _ s ih => exact ih.save s

open History

/-- The events of a run put the states that they save into the store, and do nothing else to it. -/
theorem loaded_eq (effects : Effects env started w events w') (files : env.FilesIn store w) :
    store.loaded w' = (savedBy events).foldl filed (store.loaded w) := by
  induction effects with
  | refl => rfl
  | now before ih => rw [files.now _ before.reachable, ih]
  | steady before ih => rw [files.steady _ before.reachable, ih]
  | cancelled before ih => rw [files.cancelled _ before.reachable, ih]
  | logged before entry timestamp ih =>
      rw [files.now _ before.reachable, ih, savedBy_append]
      exact congrArg (List.foldl filed _) (List.append_nil _).symm
  | called before reading s request ih =>
      obtain rfl := congrArg Prod.snd reading
      have asked := before.reachable.cancelled
      have unchanged := files.call _ request asked.steady
      rw [files.steady _ asked, files.cancelled _ before.reachable, ih] at unchanged
      rw [savedBy_append]
      exact unchanged.trans (congrArg (List.foldl filed _) (List.append_nil _).symm)
  | @wrote events w' before s ih =>
      rw [savedBy_append, List.foldl_append, ← ih]
      cases said : ((env.save s).run w').1 with
      | ok _ => exact files.saved _ s before.reachable said
      | error e => exact files.unsaved _ s e before.reachable said

end Effects

namespace History

open RunState

variable {clock : Timestamp → Timestamp → Prop} {budgets : Budgets} {job : Job}
  {s running last : RunState} {how : Finish} {failure : RunFailure} {events : List Event}
  {report : Report}

/-- How the writes of a run go together with its result: running states of its own were saved, and
then the finished one, or, after a state that perhaps was not saved, the failed one was written. -/
inductive Deposits (job : Job) :
    Except RunError RunState → List (RunState × Except StoreError Unit) → Prop where
  | finished {states : List RunState} {s : RunState} (underway : ∀ t ∈ states, Underway job t)
      (own : s.runId = job.runId) : Deposits job (.ok s) (saved (states ++ [s]))
  | failed {states : List RunState} {lost : List (RunState × Except StoreError Unit)}
      {f : RunFailure} {retry : Except StoreError Unit} (underway : ∀ t ∈ states, Underway job t)
      (unsaved : ∀ write ∈ lost, write.1.status ≠ .failed ∧ write.2 ≠ .ok ())
      (own : f.state.runId = job.runId) (failed : f.state.status = .failed) :
      Deposits job (.error (.failed f)) (saved states ++ lost ++ [(f.state, retry)])

theorem savedAmong_saved_append {states : List RunState}
    {lost : List (RunState × Except StoreError Unit)}
    (unsaved : ∀ write ∈ lost, write.2 ≠ .ok ()) : savedAmong (saved states ++ lost) = states := by
  have nothing : savedAmong lost = [] :=
    List.eq_nil_iff_forall_not_mem.mpr fun s member => unsaved _ (mem_savedAmong.mp member) rfl
  rw [savedAmong_append, savedAmong_saved, nothing, List.append_nil]

/-- The states of a recorded run are deposited under the id of its job. -/
theorem Recorded.deposits {states : List RunState} {result : Except RunError RunState}
    {writes : List (RunState × Except StoreError Unit)}
    (recorded : Recorded budgets job states s result writes)
    (underway : ∀ t ∈ states ++ [s], Underway job t) : Deposits job result writes := by
  obtain ⟨earlier, last⟩ := List.forall_mem_append.mp underway
  have runId := (List.forall_mem_singleton.mp last).runId
  have running := (List.forall_mem_singleton.mp last).running
  cases recorded with
  | @broken lost f retry attempt failed further =>
      rw [← List.append_assoc]
      refine .failed earlier ?_ (further.runId.trans runId) failed
      rcases attempt with ⟨rfl, -⟩ | ⟨e, rfl⟩
      · exact List.forall_mem_nil _
      · exact List.forall_mem_singleton.mpr ⟨running ▸ nofun, nofun⟩
  | @unfinished t lost f retry unfailed attempt failed further =>
      rw [← List.append_assoc]
      refine .failed underway ?_ (further.runId.trans runId) failed
      rcases attempt with rfl | ⟨e, rfl⟩
      · exact List.forall_mem_nil _
      · exact List.forall_mem_singleton.mpr ⟨unfailed, nofun⟩
  | finished status further =>
      rw [← saved_append]
      exact .finished underway (further.runId.trans runId)

/-- What a run of a plan that can be run writes goes together with its result. -/
theorem Runs.deposits (runs : Runs clock budgets job report) (valid : job.plan.validate = .ok ()) :
    Deposits job report.result report.writes := by
  obtain ⟨s, before, rejected, arrives, recorded, -⟩ := runs.recorded valid
  refine recorded.deposits ?_
  rw [List.forall_mem_append, List.forall_mem_singleton]
  exact ⟨arrives.saved_underway, arrives.underway⟩

namespace Deposits

variable {result : Except RunError RunState} {writes : List (RunState × Except StoreError Unit)}

/-- What a run saves are states of its own: running ones, and one in which it is over. -/
theorem savedAmong_cases (deposits : Deposits job result writes) (member : s ∈ savedAmong writes) :
    Underway job s ∨ s.runId = job.runId ∧
      (result = .ok s ∨ s.status = .failed ∧ ∃ f, result = .error (.failed f)) := by
  cases deposits with
  | finished underway own =>
      rw [savedAmong_saved, List.mem_append, List.mem_singleton] at member
      rcases member with member | rfl
      · exact .inl (underway s member)
      · exact .inr ⟨own, .inl rfl⟩
  | failed underway unsaved own failed =>
      rw [savedAmong_append, savedAmong_saved_append fun write lost => (unsaved write lost).2,
        List.mem_append] at member
      rcases member with member | member
      · exact .inl (underway s member)
      · cases List.mem_singleton.mp (mem_savedAmong.mp member)
        exact .inr ⟨own, .inr ⟨failed, _, rfl⟩⟩

/-- Every state that is deposited has the id of the job. -/
theorem saved_own (deposits : Deposits job result writes) :
    ∀ s ∈ savedAmong writes, s.runId = job.runId := by
  intro s member
  rcases deposits.savedAmong_cases member with underway | ⟨own, -⟩
  · exact underway.runId
  · exact own

/-- A run that does not finish saves no state that is complete or stopped. -/
theorem saved_unfinished {e : RunError} (deposits : Deposits job (.error e) writes) :
    ∀ s ∈ savedAmong writes, s.status ≠ .completed ∧ s.status ≠ .stopped := by
  intro s member
  rcases deposits.savedAmong_cases member with underway | ⟨-, finished | ⟨failed, -⟩⟩
  · rw [underway.running]
    exact ⟨nofun, nofun⟩
  · cases finished
  · rw [failed]
    exact ⟨nofun, nofun⟩

/-- A store that a run puts its states into has the finished one in the end. -/
theorem foldl_filed_finished (deposits : Deposits job (.ok s) writes)
    (answers : String → Except StoreError (Option RunState)) :
    (savedAmong writes).foldl filed answers job.runId = .ok (some s) := by
  cases deposits with
  | finished underway own =>
      rw [savedAmong_saved, ← own]
      exact foldl_filed_append s

/-- A store that a run puts its states into has the failed one in the end, or, if that was not
saved, the last running one, or nothing has changed. -/
theorem foldl_filed_failed {f : RunFailure} (deposits : Deposits job (.error (.failed f)) writes)
    (answers : String → Except StoreError (Option RunState)) :
    let answer := (savedAmong writes).foldl filed answers job.runId
    f.state.status = .failed ∧ ∃ earlier retry, writes = earlier ++ [(f.state, retry)] ∧
      (∀ write ∈ earlier, write.1.status ≠ .failed) ∧
      (retry = .ok () → answer = .ok (some f.state)) ∧
      (retry ≠ .ok () →
        (∃ s, (savedAmong earlier).getLast? = some s ∧ s.status = .running ∧
          answer = .ok (some s)) ∨
        savedAmong earlier = [] ∧ answer = answers job.runId) := by
  cases deposits with
  | @failed states lost f retry underway unsaved own failed =>
      have lostAll := fun write member => (unsaved write member).2
      refine ⟨failed, saved states ++ lost, retry, rfl, ?_, ?_, ?_⟩
      · rw [List.forall_mem_append]
        refine ⟨?_, fun write member => (unsaved write member).1⟩
        rintro ⟨s, result⟩ member
        have running := (underway s (mem_saved.mp member).1).running
        exact running ▸ nofun
      · rintro rfl
        rw [savedAmong_append, ← own]
        exact foldl_filed_append f.state
      · intro lostToo
        have nothing : savedAmong (saved states ++ lost ++ [(f.state, retry)]) = states := by
          rw [List.append_assoc]
          refine savedAmong_saved_append ?_
          rw [List.forall_mem_append, List.forall_mem_singleton]
          exact ⟨lostAll, lostToo⟩
        rw [nothing, savedAmong_saved_append lostAll]
        rcases List.eq_nil_or_concat states with rfl | ⟨front, s, rfl⟩
        · exact .inr ⟨rfl, rfl⟩
        · rw [List.concat_eq_append] at underway ⊢
          have last := underway s (List.mem_append_right _ List.mem_cons_self)
          rw [← last.runId]
          exact .inl ⟨s, List.getLast?_concat, last.running, foldl_filed_append s⟩

end Deposits

end History

namespace FaultyMemory

variable {memory : FaultyMemory} {s : RunState}

theorem states_saved (said : (memory.save s).1 = .ok ()) :
    (memory.save s).2.states = memory.states.save s := by
  rw [save] at said ⊢
  split at said
  · cases said
  · rename_i kept
    rw [if_neg kept]

theorem states_unsaved {e : StoreError} (said : (memory.save s).1 = .error e) :
    (memory.save s).2.states = memory.states := by
  rw [save] at said ⊢
  split at said
  · rename_i lost
    rw [if_pos lost]
  · cases said

end FaultyMemory

namespace World

variable {world : World}

theorem loaded_memory (memory : world.keeping = .memory) :
    store.loaded world = fun runId => .ok (world.memory.states.get? runId) := by
  funext runId
  change ((storeOf world.keeping).load runId |>.run world).1 = _
  rw [memory]
  rfl

theorem loaded_congr {world' : World} (memory : world.keeping = .memory)
    (memory' : world'.keeping = .memory) (states : world'.memory.states = world.memory.states) :
    store.loaded world' = store.loaded world := by
  rw [loaded_memory memory, loaded_memory memory', states]

/-- A world whose store is in memory keeps it there. -/
theorem respects_memory :
    environment.Respects (fun _ => True) (fun world => world.keeping = .memory) where
  now _ memory := ⟨trivial, memory⟩
  steady _ memory := memory
  cancelled _ memory := memory
  call _ _ memory := memory
  save s world memory := by
    change ((store.save s).run world).2.keeping = .memory
    rw [save_memory memory]
    exact memory

/-- Simulated surroundings with a store in memory keep the states of runs in it, whichever of its
writes fail. -/
theorem filesIn (memory : world.keeping = .memory) : environment.FilesIn store world := by
  have still {world' : World} (reached : environment.Reachable world world') :
      world'.keeping = .memory := reached.good respects_memory memory
  constructor
  · exact fun world' reached => loaded_congr (still reached) (still reached.now) rfl
  · exact fun world' reached => loaded_congr (still reached) (still reached.steady) rfl
  · exact fun world' reached => loaded_congr (still reached) (still reached.cancelled) rfl
  · exact fun world' request reached =>
      loaded_congr (still reached) (still (reached.call request)) rfl
  · intro world' s reached said
    have saves := save_memory (still reached) s
    have said : (world'.memory.save s).1 = .ok () := (congrArg Prod.fst saves).symm.trans said
    rw [loaded_memory (still reached), loaded_memory (still (reached.save s))]
    funext runId
    change Except.ok (((store.save s).run world').2.memory.states.get? runId) = _
    rw [saves, FaultyMemory.states_saved said, Memory.save, Table.get?_insert, filed,
      Function.update_apply]
    split <;> rfl
  · intro world' s e reached said
    have saves := save_memory (still reached) s
    have said : (world'.memory.save s).1 = .error e := (congrArg Prod.fst saves).symm.trans said
    refine loaded_congr (still reached) (still (reached.save s)) ?_
    change ((store.save s).run world').2.memory.states = _
    rw [saves, FaultyMemory.states_unsaved said]

end World

namespace Engine

open History

variable {σ : Type} {env : Environment (StateM σ)} {store : Store (StateM σ)} {w : σ}
  {budgets : Budgets} {job : Job}

/-- A run puts the states that it saves into the store, one after another, and does nothing else to
it. -/
theorem execute_files (files : env.FilesIn store w) :
    store.loaded ((execute env budgets job).run w).2 =
      (report env budgets job w).savedStates.foldl filed (store.loaded w) := by
  cases valid : job.plan.validate with
  | error e =>
      rw [report, execute_of_invalid w valid]
      rfl
  | ok _ =>
      have effects := execute_effects env budgets valid w
      rw [effects.loaded_eq (files.of_reachable (.steady .refl)), files.steady w .refl]
      rfl

/-- The store agrees with what a run gives back. It has the finished state of a run that finishes.
Of a run that fails it has the failed state, which is the last one that the run writes; if that
could not be saved, it has the last running state, or, if nothing was saved, what it had before, and
never a state of this run that is complete or stopped. A plan that cannot be run changes nothing,
and no run changes the state of another. -/
theorem execute_agrees_with_store (files : env.FilesIn store w) :
    let report := report env budgets job w
    let after := ((execute env budgets job).run w).2
    (∀ s, report.result = .ok s → store.loaded after job.runId = .ok (some s)) ∧
    (∀ f, report.result = .error (.failed f) →
      f.state.status = .failed ∧ ∃ earlier retry, report.writes = earlier ++ [(f.state, retry)] ∧
        (∀ write ∈ earlier, write.1.status ≠ .failed) ∧
        (retry = .ok () → store.loaded after job.runId = .ok (some f.state)) ∧
        (retry ≠ .ok () →
          (∃ s, (savedAmong earlier).getLast? = some s ∧ s.status = .running ∧
            store.loaded after job.runId = .ok (some s)) ∨
          savedAmong earlier = [] ∧
            store.loaded after job.runId = store.loaded w job.runId)) ∧
    (∀ e, job.plan.validate = .error e → report.result = .error (.invalidPlan e) ∧ after = w) ∧
    (∀ e, report.result = .error e →
      ∀ s ∈ report.savedStates, s.status ≠ .completed ∧ s.status ≠ .stopped) ∧
    (∀ runId, runId ≠ job.runId → store.loaded after runId = store.loaded w runId) := by
  intro report after
  have files : store.loaded after = report.savedStates.foldl filed (store.loaded w) :=
    execute_files files
  cases valid : job.plan.validate with
  | error e =>
      have refused : (execute env budgets job).run w = (⟨.error (.invalidPlan e), []⟩, w) :=
        execute_of_invalid w valid
      have result : report = ⟨.error (.invalidPlan e), []⟩ := congrArg Prod.fst refused
      have unchanged : after = w := congrArg Prod.snd refused
      rw [result, unchanged]
      refine ⟨?_, ?_, ?_, fun _ _ => List.forall_mem_nil _, fun _ _ => rfl⟩
      · intro s finished
        cases finished
      · intro f failed
        cases failed
      · intro e' same
        cases same
        exact ⟨rfl, rfl⟩
  | ok _ =>
      have deposits : Deposits job report.result report.writes :=
        (report_runs env budgets job w).deposits valid
      rw [files]
      refine ⟨?_, ?_, ?_, ?_, fun _ => foldl_filed_of_ne deposits.saved_own⟩
      · intro s finished
        rw [finished] at deposits
        exact deposits.foldl_filed_finished _
      · intro f failed
        rw [failed] at deposits
        exact deposits.foldl_filed_failed _
      · intro e invalid
        cases invalid
      · intro e failed
        rw [failed] at deposits
        exact deposits.saved_unfinished

/-- A rehearsal that can save two states and nothing after them leaves the second of these, a
running one, in the store, beside the state of another run. -/
theorem rehearsal_agrees_with_store :
    let world : World :=
      { World.rehearsal [.ok (3, 4), .error "no answer"] (.after 2) with
        memory := ⟨Memory.save .empty (.start "other" "plan" World.dawn), .after 2, 0⟩ }
    let after := ((execute World.environment .rehearsal .rehearsal).run world).2
    (∃ s, s.status = .running ∧ World.store.loaded after "run" = .ok (some s)) ∧
      World.store.loaded after "other" = .ok (some (.start "other" "plan" World.dawn)) := by
  intro world after
  let report := report World.environment .rehearsal .rehearsal world
  have memory : world.keeping = .memory := rfl
  obtain ⟨-, agrees, -, -, others⟩ :=
    @execute_agrees_with_store _ _ _ _ .rehearsal .rehearsal (World.filesIn memory)
  refine ⟨?_, others "other" (by decide)⟩
  have unfinished : report.result.toOption = none := by decide +kernel
  have returned : report.returned.isSome = true := by decide +kernel
  have last : report.writes.getLast?.map Prod.snd = some (.error .full) := by decide +kernel
  have two : report.savedStates.length = 2 := by decide +kernel
  rw [Report.returned] at returned
  cases result : report.result with
  | ok s =>
      rw [result] at unfinished
      cases unfinished
  | error e =>
      cases e with
      | invalidPlan e =>
          rw [result] at returned
          cases returned
      | failed f =>
          obtain ⟨-, earlier, retry, writes, -, -, lost⟩ := agrees f result
          change report.writes = _ at writes
          rw [writes, List.getLast?_concat] at last
          obtain rfl := Option.some.inj last
          rw [Report.savedStates, writes, savedAmong_append] at two
          rcases lost nofun with ⟨s, -, running, loaded⟩ | ⟨nothing, -⟩
          · exact ⟨s, running, loaded⟩
          · rw [nothing] at two
            cases two

end Engine

end BudgetedRun
