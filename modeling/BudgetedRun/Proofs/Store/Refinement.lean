import BudgetedRun.Proofs.Run.Snapshot
import BudgetedRun.Proofs.Store.Directory
import BudgetedRun.Store.Memory
import Mathlib.Data.List.Sort

/-!
# A store in a directory against one in memory

A store in a directory that was empty at first answers everything that is asked of it, one after
another, as a store in memory does (`DirectoryStore.refines_memory`). The one difference is that it
does not give out a state that is inconsistent. Both are asked the same, and after each operation
the directory holds the states that are in memory (`Mirrors.perform`).
-/

namespace BudgetedRun

open Disk

/-- What can be asked of a store, and of the logs beside it. -/
inductive Operation where
  | save (s : RunState)
  | load (runId : String)
  | list
  | log (runId : String) (entries : List LogEntry)

/-- What is answered. -/
inductive Reply where
  | saved (result : Except StoreError Unit)
  | loaded (result : Except StoreError (Option RunState))
  | listed (result : Except StoreError (List String))
  | logged (result : Except LogError Unit)
deriving DecidableEq

/-- A place for states and logs. -/
structure Archive (m : Type → Type) where
  store : Store m
  writeLog : String → List LogEntry → m (Except LogError Unit)

namespace Archive

def directory (base : String) : Archive (StateM Machine) :=
  ⟨DirectoryStore.store base, writeRunLog base⟩

/-- States in memory, and no logs. -/
def memory : Archive (StateM FaultyMemory) :=
  ⟨FaultyMemory.store id fun memory _ => memory, fun _ _ => return .ok ()⟩

end Archive

namespace Operation

/-- The run that is named. -/
def runId? : Operation → Option String
  | save s => some s.runId
  | load runId => some runId
  | list => none
  | log runId _ => some runId

def isLog : Operation → Bool
  | log _ _ => true
  | _ => false

/-- The paths by way of which a directory is read and changed. -/
def paths (base : String) (tag : TemporaryTag) : Operation → List String
  | save s =>
    let snapshot := (RunPaths.of base s.runId).snapshot
    [snapshot, RunPaths.temporary snapshot tag]
  | load runId => [(RunPaths.of base runId).snapshot]
  | list => [RunPaths.runs base]
  | log runId _ => [(RunPaths.of base runId).log]

section perform

variable {m : Type → Type} [Monad m]

def perform (archive : Archive m) : Operation → m Reply
  | save s => do return .saved (← archive.store.save s)
  | load runId => do return .loaded (← archive.store.load runId)
  | list => do return .listed (← archive.store.list)
  | log runId entries => do return .logged (← archive.writeLog runId entries)

/-- The replies to some operations, one after another. -/
def performAll (archive : Archive m) : List Operation → m (List Reply)
  | [] => return []
  | operation :: rest => do
    let reply ← operation.perform archive
    let replies ← performAll archive rest
    return reply :: replies

/-- The first of some operations is performed before the others. -/
theorem performAll_cons_run {σ : Type} {archive : Archive (StateM σ)} {operation : Operation}
    {operations : List Operation} {reply : Reply} {replies : List Reply} {s s' s'' : σ}
    (answers : (operation.perform archive).run s = (reply, s'))
    (follow : (performAll archive operations).run s' = (replies, s'')) :
    (performAll archive (operation :: operations)).run s = (reply :: replies, s'') := by
  rw [performAll, run_bind_eq answers, run_bind_eq follow]
  rfl

end perform

end Operation

namespace Reply

def isLogged : Reply → Bool
  | logged _ => true
  | _ => false

/-- What a directory replies where the memory replies something: the same, but an error in place of
a state that is inconsistent. -/
def checked (base : String) : Reply → Reply
  | loaded (.ok (some s)) =>
    loaded (if s.violations = [] then .ok (some s)
      else .error (.inconsistent (RunPaths.of base s.runId).snapshot s.violations))
  | reply => reply

/-- A reply about a log is so when it is checked. -/
theorem isLogged_checked (base : String) (reply : Reply) :
    (reply.checked base).isLogged = reply.isLogged := by
  rw [checked.eq_def]
  split <;> rfl

/-- To leave out the replies about logs and to check the others can be done in either order. -/
theorem filter_checked (base : String) (replies : List Reply) :
    (replies.filter (!·.isLogged)).map (checked base) =
      (replies.map (checked base)).filter (!·.isLogged) := by
  rw [List.filter_map]
  simp only [Function.comp_def, isLogged_checked]

end Reply

/-- A directory holds the states that are in memory. -/
structure Mirrors (base : String) (memory : FaultyMemory) (disk : Disk) : Prop where
  failing : memory.failing = .none
  own : ∀ id s, memory.states.get? id = some s →
    s.runId = id ∧ RunId.fault? id = none ∧ Admissible (RunPaths.of base id).snapshot
  site : ∃ dir n, disk.Site base dir n ∧ n.IsStore ∧
    ∀ id, n.get? ["runs", id, "snapshot.json"] =
      (memory.states.get? id).map fun s => .file s.snapshot.toUTF8

variable {base : String} {memory : FaultyMemory} {machine : Machine} {operation : Operation}
  {operations : List Operation}

namespace Archive

/-- A write in memory does not fail, unless it is meant to. -/
theorem memory_save_run (failing : memory.failing = .none) (s : RunState) :
    (Archive.memory.store.save s).run memory =
      (.ok (), { memory with states := memory.states.save s, writes := memory.writes + 1 }) := by
  change memory.save s = _
  rw [FaultyMemory.save, failing]
  rfl

end Archive

/-- The state of a run is read from its snapshot, if it is consistent. -/
theorem DirectoryStore.readState_snapshot {runId : String} {s : RunState} (own : s.runId = runId) :
    (readState (RunPaths.of base runId).snapshot runId s.snapshot).map some =
      if s.violations = [] then .ok (some s)
      else .error (.inconsistent (RunPaths.of base s.runId).snapshot s.violations) := by
  rw [readState, s.parse?_snapshot]
  simp only [own, ne_eq, not_true_eq_false, ↓reduceIte, ite_not]
  split <;> rfl

namespace Mirrors

/-- An empty directory holds the states of an empty memory. -/
theorem of_empty (empty : machine.disk.list base = .ok []) :
    Mirrors base (.empty .none) machine.disk := by
  obtain ⟨dir, es, site, names⟩ := Site.of_list empty
  obtain rfl := List.map_eq_nil_iff.mp names
  refine ⟨rfl, ?_, dir, _, site, .empty, fun _ => rfl⟩
  intro id s there
  cases there

/-- What one operation answers, and that it leaves the states in the directory that are in memory
then. -/
theorem perform (mirrors : Mirrors base memory machine.disk)
    (accepted : ∀ runId, operation.runId? = some runId → RunId.check runId = .ok ())
    (fits : ∀ path ∈ operation.paths base ⟨machine.process, machine.tags⟩, Admissible path) :
    ∃ reply memory' machine', (operation.perform .memory).run memory = (reply, memory') ∧
      (operation.perform (.directory base)).run machine = (reply.checked base, machine') ∧
      Mirrors base memory' machine'.disk ∧ machine'.process = machine.process ∧
      machine.tags ≤ machine'.tags ∧ machine'.tags ≤ machine.tags + 1 := by
  have unchanged := mirrors
  obtain ⟨failing, own, dir, n, site, isStore, holds⟩ := mirrors
  cases operation with
  | save s =>
      have accepted := RunId.fault?_of_check (accepted s.runId rfl)
      obtain ⟨admissible, rest⟩ := List.forall_mem_cons.mp fits
      obtain ⟨d, n', saves, site', isStore', files⟩ := DirectoryStore.save_run site isStore accepted
        admissible (List.forall_mem_singleton.mp rest)
      refine ⟨_, _, _, run_bind_eq (Archive.memory_save_run failing s), run_bind_eq saves,
        ⟨failing, ?_, dir, n', site', isStore', ?_⟩, rfl, Nat.le_succ _, Nat.le_refl _⟩
      · intro id s' there
        rw [Memory.save, Table.get?_insert] at there
        split at there
        · rename_i same
          cases there
          exact ⟨same.symm, same ▸ accepted, same ▸ admissible⟩
        · exact own id s' there
      · intro id
        rw [files, Memory.save, Table.get?_insert, holds]
        split <;> rfl
  | load runId =>
      have accepted := RunId.fault?_of_check (accepted runId rfl)
      have admissible := List.forall_mem_singleton.mp fits
      refine ⟨.loaded (.ok (memory.states.get? runId)), memory, machine, rfl, ?_, unchanged, rfl,
        Nat.le_refl _, Nat.le_succ _⟩
      have file := holds runId
      cases there : memory.states.get? runId with
      | none =>
          rw [there] at file
          exact run_bind_eq (DirectoryStore.load_run_none site isStore accepted admissible file)
      | some s =>
          rw [there] at file
          have loads := DirectoryStore.load_run_some site isStore accepted admissible file
          rw [DirectoryStore.readState_snapshot (own runId s there).1] at loads
          exact run_bind_eq loads
  | list =>
      obtain ⟨ids, lists, ascending, members⟩ := DirectoryStore.list_run site isStore
        (List.forall_mem_singleton.mp fits) fun id m there => by
          rw [holds] at there
          obtain ⟨s, kept, -⟩ := Option.map_eq_some_iff.mp there
          exact (own id s kept).2
      have same : ids = memory.states.keys := by
        refine ascending.eq_of_mem_iff memory.states.keys_ascending fun id => ?_
        rw [members, holds, Table.mem_keys, ne_eq, Option.map_eq_none_iff]
      refine ⟨.listed (.ok memory.states.keys), memory, machine, rfl, ?_, unchanged, rfl,
        Nat.le_refl _, Nat.le_succ _⟩
      exact run_bind_eq (same ▸ lists)
  | log runId entries =>
      have accepted := RunId.fault?_of_check (accepted runId rfl)
      obtain ⟨d, n', writes, site', isStore', files⟩ := DirectoryStore.writeRunLog_run site isStore
        accepted (List.forall_mem_singleton.mp fits) entries
      refine ⟨.logged (.ok ()), memory, _, rfl, run_bind_eq writes,
        ⟨failing, own, dir, n', site', isStore', ?_⟩, rfl, Nat.le_refl _, Nat.le_succ _⟩
      exact fun id => (files id).trans (holds id)

/-- What some operations answer, one after another. Each takes one tag at most, so the paths that
matter are those for as many tags as there are operations. -/
theorem performAll (mirrors : Mirrors base memory machine.disk)
    (accepted : ∀ operation ∈ operations, ∀ runId, operation.runId? = some runId →
      RunId.check runId = .ok ())
    (fits : ∀ operation ∈ operations, ∀ n, machine.tags ≤ n →
      n < machine.tags + operations.length →
      ∀ path ∈ operation.paths base ⟨machine.process, n⟩, Admissible path) :
    ∃ replies memory' machine',
      (Operation.performAll .memory operations).run memory = (replies, memory') ∧
      (Operation.performAll (.directory base) operations).run machine =
        (replies.map (Reply.checked base), machine') ∧
      Mirrors base memory' machine'.disk := by
  induction operations generalizing memory machine with
  | nil => exact ⟨[], memory, machine, rfl, rfl, mirrors⟩
  | cons operation rest ih =>
      obtain ⟨first, others⟩ := List.forall_mem_cons.mp accepted
      obtain ⟨reply, memory₁, machine₁, answers, answers', mirrors₁, process, lower, upper⟩ :=
        mirrors.perform first (fits operation List.mem_cons_self machine.tags (Nat.le_refl _)
          (Nat.lt_add_of_pos_right (Nat.succ_pos _)))
      obtain ⟨replies, memory₂, machine₂, follow, follow', mirrors₂⟩ :=
        ih mirrors₁ others fun operation member n least most => by
          rw [process]
          refine fits operation (List.mem_cons_of_mem _ member) n (Nat.le_trans lower least) ?_
          rw [List.length_cons]
          omega
      exact ⟨_, _, _, Operation.performAll_cons_run answers follow,
        Operation.performAll_cons_run answers' follow', mirrors₂⟩

end Mirrors

namespace Operation

/-- Exactly an operation on a log is replied to as such. -/
theorem isLogged_perform (operation : Operation) (memory : FaultyMemory) :
    ((operation.perform .memory).run memory).1.isLogged = operation.isLog := by
  cases operation <;> rfl

/-- An operation on a log leaves the states as they are. -/
theorem perform_of_isLog (isLog : operation.isLog = true) (memory : FaultyMemory) :
    ((operation.perform .memory).run memory).2 = memory := by
  cases operation with
  | log runId entries => rfl
  | _ => cases isLog

/-- What is answered in memory does not depend on the logs that are written. -/
theorem performAll_filter (operations : List Operation) (memory : FaultyMemory) :
    ∃ replies memory', (performAll .memory operations).run memory = (replies, memory') ∧
      (performAll .memory (operations.filter (!·.isLog))).run memory =
        (replies.filter (!·.isLogged), memory') := by
  induction operations generalizing memory with
  | nil => exact ⟨[], memory, rfl, rfl⟩
  | cons operation rest ih =>
      cases answers : (operation.perform .memory).run memory with
      | mk reply memory₁ =>
          obtain ⟨replies, memory', follow, kept⟩ := ih memory₁
          refine ⟨_, memory', performAll_cons_run answers follow, ?_⟩
          have kind := isLogged_perform operation memory
          rw [answers] at kind
          rw [List.filter_cons, List.filter_cons, kind]
          cases isLog : operation.isLog with
          | false => exact performAll_cons_run answers kept
          | true =>
              have unchanged := perform_of_isLog isLog memory
              rw [answers] at unchanged
              exact unchanged ▸ kept

end Operation

namespace DirectoryStore

/-- A store in a directory that was empty answers as one in memory does, whatever is asked of it,
but it does not give out inconsistent states; and its answers are the same without the logs. The
run ids must be plain names, and no path may be too long for the file system. -/
theorem refines_memory (empty : machine.disk.list base = .ok [])
    (accepted : ∀ operation ∈ operations, ∀ runId, operation.runId? = some runId →
      RunId.check runId = .ok ())
    (fits : ∀ operation ∈ operations, ∀ n, machine.tags ≤ n →
      n < machine.tags + operations.length →
      ∀ path ∈ operation.paths base ⟨machine.process, n⟩, Admissible path) :
    ((Operation.performAll (.directory base) operations).run machine).1 =
        ((Operation.performAll .memory operations).run (.empty .none)).1.map
          (Reply.checked base) ∧
      ((Operation.performAll (.directory base) (operations.filter (!·.isLog))).run machine).1 =
        ((Operation.performAll (.directory base) operations).run machine).1.filter
          (!·.isLogged) := by
  have mirrors := Mirrors.of_empty empty
  obtain ⟨_, memory, _, answers, answers', -⟩ := mirrors.performAll accepted fits
  obtain ⟨replies, _, same, filtered⟩ := Operation.performAll_filter operations (.empty .none)
  obtain ⟨rfl, rfl⟩ := Prod.mk.inj (same.symm.trans answers)
  -- Without the logs the directory goes along with the memory without the logs, which is the same.
  have among {operation : Operation} (member : operation ∈ operations.filter (!·.isLog)) :
      operation ∈ operations := List.mem_of_mem_filter member
  obtain ⟨_, _, _, fewer, fewer', -⟩ := mirrors.performAll
    (fun operation member => accepted operation (among member))
    fun operation member n least most => fits operation (among member) n least
      (Nat.lt_of_lt_of_le most (Nat.add_le_add_left (List.length_filter_le _ _) _))
  obtain ⟨rfl, rfl⟩ := Prod.mk.inj (fewer.symm.trans filtered)
  rw [answers, answers', fewer']
  exact ⟨rfl, Reply.filter_checked base replies⟩

/-- An inconsistent state is kept and listed in a directory, but not given out. -/
theorem rehearsal_refines_memory :
    let now : Timestamp := ⟨⟨2025, 1, 1⟩, ⟨6, 0, 0, 0⟩, by decide, by decide⟩
    let machine : Machine :=
      ⟨⟨.directory [("out", .directory [])], []⟩, 7, 0, fun _ => now, fun _ => 0, 0, 0⟩
    let good := RunState.start "b" "plan" now
    let bad := RunState.start "a" "" now
    let entry : LogEntry := ⟨"b", .info, "engine", "run", "say \"λ\"", now⟩
    let operations : List Operation :=
      [.save good, .save bad, .log "b" [entry], .list, .load "b", .load "a", .load "c"]
    ((Operation.performAll (.directory "out") operations).run machine).1 =
      [.saved (.ok ()), .saved (.ok ()), .logged (.ok ()), .listed (.ok ["a", "b"]),
        .loaded (.ok (some good)),
        .loaded (.error (.inconsistent "out/runs/a/snapshot.json" [.emptyPlanId])),
        .loaded (.ok none)] := by
  intro now machine good bad entry operations
  have fits : ∀ operation ∈ operations, ∀ n, machine.tags ≤ n →
      n < machine.tags + operations.length →
      ∀ path ∈ operation.paths "out" ⟨machine.process, n⟩, Admissible path := by
    decide +kernel
  obtain ⟨same, -⟩ :=
    @refines_memory "out" machine operations (by decide +kernel) (by decide +kernel) fits
  refine same.trans ?_
  decide +kernel

end DirectoryStore

end BudgetedRun
