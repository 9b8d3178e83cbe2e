import BudgetedRun.File.Tree
import BudgetedRun.Run.Budget

/-!
# Hosts

What the program needs from the machine that it runs on: files and clocks. `FileSystem` and `Clock`
say so for any monad. `Machine` is a host whose state is a value: its files are a tree, and its
clocks show given readings, one after another, so that all that depends on the host can be computed
and reasoned about.
-/

namespace BudgetedRun

/-- What keeps apart the temporary files of all writers: the number of the process and a count of
the files it has written. -/
structure TemporaryTag where
  process : Nat
  count : Nat
deriving DecidableEq

/-- The operations on files. -/
class FileSystem (m : Type → Type) where
  readFile : String → m (Except FileError ByteArray)
  writeFile : String → ByteArray → m (Except FileError Unit)
  makeDirectories : String → m (Except FileError Unit)
  rename : String → String → m (Except FileError Unit)
  remove : String → m (Except FileError Unit)
  isPresent : String → m Bool
  list : String → m (Except FileError (List String))
  /-- A tag that has not been given out before. -/
  freshTag : m TemporaryTag

/-- The operations on time. -/
class Clock (m : Type → Type) where
  /-- The time of day. -/
  now : m Timestamp
  /-- The reading of a clock that only moves forward. -/
  steady : m Duration
  /-- Wait. -/
  sleep : Duration → m Unit

namespace FileSystem

variable {m : Type → Type} [Monad m] [FileSystem m]

def readText (path : String) : m (Except FileError String) := do
  match ← readFile path with
  | .error e => pure (.error e)
  | .ok bytes =>
    match String.fromUTF8? bytes with
    | some text => pure (.ok text)
    | none => pure (.error .notText)

/-- Write a text to a file. -/
def writeText (path text : String) : m (Except FileError Unit) := writeFile path text.toUTF8

end FileSystem

/-- A host whose state is a value. -/
structure Machine where
  disk : Disk
  /-- The number of the process. -/
  process : Nat
  /-- How many tags have been given out. -/
  tags : Nat
  /-- What the clock of the day shows at each reading. -/
  dayClock : Nat → Timestamp
  /-- How far the steady clock is at each reading, apart from the time spent waiting. -/
  steadyClock : Nat → Nat
  /-- How many readings there were, of either clock. -/
  readings : Nat
  /-- The time spent waiting, in nanoseconds. -/
  waited : Nat

namespace Machine

/-- An operation that looks at the files only. -/
def look (f : Disk → α) : StateM Machine α := do return f (← get).disk

/-- An operation that changes the files if it succeeds. -/
def change (f : Disk → Except FileError Disk) : StateM Machine (Except FileError Unit) := do
  let machine ← get
  match f machine.disk with
  | .ok disk =>
    set { machine with disk := disk }
    return .ok ()
  | .error e => return .error e

instance : FileSystem (StateM Machine) where
  readFile path := look (·.read path)
  writeFile path content := change (·.write path content)
  makeDirectories path := do
    let machine ← get
    let (result, disk) := machine.disk.makeDirectories path
    set { machine with disk := disk }
    return result
  rename source target := change (·.rename source target)
  remove path := change (·.remove path)
  isPresent path := look (·.isPresent path)
  list path := look (·.list path)
  freshTag := do
    let machine ← get
    set { machine with tags := machine.tags + 1 }
    return ⟨machine.process, machine.tags⟩

instance : Clock (StateM Machine) where
  now := do
    let machine ← get
    set { machine with readings := machine.readings + 1 }
    return machine.dayClock machine.readings
  steady := do
    let machine ← get
    set { machine with readings := machine.readings + 1 }
    return ⟨machine.steadyClock machine.readings + machine.waited⟩
  sleep time := modify fun machine =>
    { machine with waited := machine.waited + time.nanoseconds }

end Machine

end BudgetedRun
