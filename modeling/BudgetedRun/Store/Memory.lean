import BudgetedRun.Store.Basic
import BudgetedRun.Table

/-!
# Stores in memory

A store that is a table of states, for as long as the program runs, and the same store with some of
its writes failing.
-/

namespace BudgetedRun

/-- The states that are kept, by run. -/
abbrev Memory := Table RunState

namespace Memory

/-- Keep a state, in place of the one of the same run. -/
def save (t : Memory) (s : RunState) : Memory := t.insert s.runId s

end Memory

/-- The writes, counted from zero, that fail. -/
inductive FailingWrites where
  | none
  /-- All writes after the first so many. -/
  | after (n : Nat)
  /-- One write. -/
  | only (n : Nat)
deriving DecidableEq

/-- Whether a write fails. -/
def FailingWrites.fails : FailingWrites → Nat → Bool
  | none, _ => false
  | after n, k => n ≤ k
  | only n, k => k == n

/-- A store in memory some of whose writes fail. -/
structure FaultyMemory where
  states : Memory
  failing : FailingWrites
  /-- How many writes there were, failed ones included. -/
  writes : Nat

namespace FaultyMemory

def empty (failing : FailingWrites) : FaultyMemory := ⟨.empty, failing, 0⟩

/-- Keep a state, unless this write fails. -/
def save (s : FaultyMemory) (state : RunState) : Except StoreError Unit × FaultyMemory :=
  if s.failing.fails s.writes then (.error .full, { s with writes := s.writes + 1 })
  else (.ok (), { s with states := s.states.save state, writes := s.writes + 1 })

def store {σ : Type} (view : σ → FaultyMemory) (update : FaultyMemory → σ → σ) :
    Store (StateM σ) where
  save state := do
    let system ← get
    let (result, memory) := (view system).save state
    set (update memory system)
    return result
  load runId := do return .ok ((view (← get)).states.get? runId)
  list := do return .ok (view (← get)).states.keys

end FaultyMemory

end BudgetedRun
