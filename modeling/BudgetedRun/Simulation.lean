import BudgetedRun.Engine
import BudgetedRun.Store.Directory
import BudgetedRun.Store.Memory

/-!
# Simulated surroundings

A world in which runs can be rehearsed: a machine with its files and clocks, a store in memory some
of whose writes fail, or one in a directory, and a provider with a script. Runs follow one another
in one world, so a later one finds what an earlier one left.
-/

namespace BudgetedRun

/-- A step of a plan for tests, with a title and a prompt by its id. -/
def Step.sample (id : String) (kind : StepKind) : Step :=
  ⟨id, kind, s!"{id} title", "", ⟨s!"{id} prompt", .empty, .empty⟩⟩

/-- A plan for tests, with so many steps of analysis. -/
def Plan.sample (id : String) (count : Nat) : Plan :=
  ⟨id, s!"{id} goal", "", (List.range count).map fun n => .sample s!"step-{n + 1}" .analysis⟩

/-- How the simulated provider answers. -/
inductive Player where
  | mock (provider : MockProvider)
  | script (lines : Script)

/-- The next answer of a player, and the player after it. -/
def Player.next (p : Player) (r : Request) : Answer × Player :=
  match p with
  | .mock provider => (provider.answer r, p)
  | .script lines =>
    let (answer, rest) := Script.next lines r
    (answer, .script rest)

/-- Where the simulated store keeps its states. -/
inductive Keeping where
  | memory
  | directory (base : String)

/-- The surroundings of simulated runs. -/
structure World where
  machine : Machine
  memory : FaultyMemory
  keeping : Keeping
  player : Player
  /-- How long a call takes. -/
  latency : Duration
  /-- What is put in front of the message of every failed call. -/
  errorContext : Option String
  /-- How many calls there were. -/
  calls : Nat
  /-- The call, counted from one, in which somebody wants the present run to end. -/
  cancelOnCall : Option Nat
  /-- Somebody wants the present run to end. -/
  cancelled : Bool
  /-- The present run can be asked to end. -/
  cancellable : Bool

namespace World

/-- Do something with the machine. -/
def onMachine (action : StateM Machine α) : StateM World α := do
  let world ← get
  let (result, machine) := action.run world.machine
  set { world with machine := machine }
  return result

/-- A store whose state is part of the world. -/
def lift (s : Store (StateM Machine)) : Store (StateM World) where
  save state := onMachine (s.save state)
  load runId := onMachine (s.load runId)
  list := onMachine s.list

def storeOf : Keeping → Store (StateM World)
  | .memory => FaultyMemory.store World.memory fun memory world => { world with memory := memory }
  | .directory base => lift (DirectoryStore.store base)

def store : Store (StateM World) where
  save state := do (storeOf (← get).keeping).save state
  load runId := do (storeOf (← get).keeping).load runId
  list := do (storeOf (← get).keeping).list

/-- The message of a failed call. -/
def withContext (context : Option String) : Answer → Answer
  | .ok r => .ok r
  | .error message =>
    .error (match context with
      | some c => c ++ ": " ++ message
      | none => message)

/-- Ask the provider of a world. -/
def call (r : Request) : StateM World Answer := do
  let world ← get
  let number := world.calls + 1
  let (answer, player) := world.player.next r
  set { world with
    calls := number
    player := player
    cancelled := world.cancelled || (world.cancellable && world.cancelOnCall == some number) }
  onMachine (Clock.sleep world.latency)
  return withContext world.errorContext answer

/-- The surroundings of a run in a world. -/
def environment : Environment (StateM World) where
  now := onMachine Clock.now
  steady := onMachine Clock.steady
  cancelled := do return (← get).cancelled
  call := call
  save := store.save

/-- Run a plan in a world, in which somebody may want it to end from the start, or in which it
cannot be asked to end at all. -/
def execute (budgets : Budgets) (job : Job) (cancelled cancellable : Bool) :
    StateM World Report := do
  modify fun world => { world with cancelled := cancelled, cancellable := cancellable }
  Engine.execute environment budgets job

end World

end BudgetedRun
