import BudgetedRun.Command.Perform
import Std.Time.DateTime.Timestamp

/-!
# The program

Commands on the machine that the program runs on: its files, its clocks, and its output streams.
-/

namespace BudgetedRun

namespace Program

/-- The number of a failure, which may be given by its negative. -/
def positive (code : UInt32) : Nat :=
  if code.toNat < 0x80000000 then code.toNat else 0x100000000 - code.toNat

/-- The number that the operating system gives a failure. -/
def failureCode : IO.Error → Nat
  | .alreadyExists _ code _ => positive code
  | .otherError code _ => positive code
  | .resourceBusy code _ => positive code
  | .resourceVanished code _ => positive code
  | .unsupportedOperation code _ => positive code
  | .hardwareFault code _ => positive code
  | .unsatisfiedConstraints code _ => positive code
  | .illegalOperation code _ => positive code
  | .protocolError code _ => positive code
  | .timeExpired code _ => positive code
  | .interrupted _ code _ => positive code
  | .noFileOrDirectory _ code _ => positive code
  | .invalidArgument _ code _ => positive code
  | .permissionDenied _ code _ => positive code
  | .resourceExhausted _ code _ => positive code
  | .inappropriateType _ code _ => positive code
  | .noSuchThing _ code _ => positive code
  | .unexpectedEof => 0
  | .userError _ => 0

/-- Do something that may fail. A path must not have a NUL character in it. -/
def attempt {α : Type} (path : String) (action : IO α) : IO (Except FileError α) := do
  if '\x00' ∈ path.toList then return .error .badPath
  try
    return .ok (← action)
  catch e =>
    return .error (.ofCode (failureCode e))

def namesIn (path : String) : IO (Except FileError (List String)) :=
  attempt path do
    let here ← IO.FS.realPath "."
    let entries ← (here / path).readDir
    return entries.toList.map (·.fileName)

/-- There is a directory at a path. -/
def isDirectory (path : String) : IO Bool := do
  match ← namesIn path with
  | .ok _ => return true
  | .error _ => return false

def makeDirectory (path : String) : IO (Except FileError Unit) := do
  match ← attempt path (IO.FS.createDir path) with
  | .ok () => return .ok ()
  | .error e => if ← isDirectory path then return .ok () else return .error e

/-- Make a directory and those above it, as far as they are missing. The number bounds how many are
above it. -/
def makeDirectories : Nat → String → IO (Except FileError Unit)
  | 0, path => makeDirectory path
  | n + 1, path => do
    if path = "" then return .ok ()
    match ← makeDirectory path with
    | .error .notFound =>
      match ← makeDirectories n ((Path.parent? path).getD "") with
      | .ok () => makeDirectory path
      | .error e => return .error e
    | result => return result

instance : FileSystem IO where
  readFile path := attempt path (IO.FS.readBinFile path)
  writeFile path content := attempt path (IO.FS.writeBinFile path content)
  makeDirectories path := makeDirectories path.length path
  rename source target := attempt (source ++ target) (IO.FS.rename source target)
  remove path := attempt path (IO.FS.removeFile path)
  isPresent path := do
    match ← attempt path (IO.FS.realPath path) with
    | .ok _ => return true
    | .error _ => return false
  list := namesIn
  freshTag := return ⟨← IO.monoNanosNow, 0⟩

/-- The day that is some days after the first of January 1970. -/
def dayNumber (n : Nat) : Date :=
  let n := n + 719468
  let era := n / 146097
  let dayOfEra := n % 146097
  let yearOfEra := (dayOfEra - dayOfEra / 1460 + dayOfEra / 36524 - dayOfEra / 146096) / 365
  let dayOfYear := dayOfEra - (365 * yearOfEra + yearOfEra / 4 - yearOfEra / 100)
  let monthFromMarch := (5 * dayOfYear + 2) / 153
  let day := dayOfYear - (153 * monthFromMarch + 2) / 5 + 1
  let month := if monthFromMarch < 10 then monthFromMarch + 3 else monthFromMarch - 9
  let year := yearOfEra + era * 400 + (if month ≤ 2 then 1 else 0)
  ⟨year, month, day⟩

/-- The first moment of 1970. -/
def epoch : Timestamp := ⟨⟨1970, 1, 1⟩, ⟨0, 0, 0, 0⟩, by decide, by decide⟩

/-- The time that is some nanoseconds after the first moment of 1970. -/
def timeAt (nanos : Nat) : Timestamp :=
  let seconds := nanos / 1000000000
  let ofDay := seconds % 86400
  let time : TimeOfDay := ⟨ofDay / 3600, ofDay / 60 % 60, ofDay % 60, nanos % 1000000000⟩
  (Timestamp.of? (dayNumber (seconds / 86400)) time).getD epoch

/-- Wait for some milliseconds, as many at a time as fit. The first number bounds the times. -/
def wait : Nat → Nat → IO Unit
  | 0, _ => return ()
  | n + 1, millis => do
    let now := min millis 0x7FFFFFFF
    IO.sleep now.toUInt32
    if now < millis then wait n (millis - now)

instance : Clock IO where
  now := do
    let now ← Std.Time.Timestamp.now
    return timeAt now.toNanosecondsSinceUnixEpoch.val.toNat
  steady := return ⟨← IO.monoNanosNow⟩
  sleep time := wait (time.millis / 0x7FFFFFFF + 1) time.millis

/-- How the program is called. -/
def usage : String :=
  "usage: plan-engine [-v] run --plan PATH [--repo PATH] [--run-id ID] [--config PATH] " ++
    "[--store memory|file]\n" ++
  "       plan-engine [-v] show --run-id ID [--config PATH]\n" ++
  "       plan-engine [-v] runs [--config PATH]\n" ++
  "       plan-engine [-v] validate --plan PATH"

end Program

end BudgetedRun

open BudgetedRun in
def main (args : List String) : IO UInt32 := do
  match Command.ofArguments? args with
  | none =>
    IO.eprintln Program.usage
    return 2
  | some command =>
    let output ← (command.perform : IO Output)
    IO.print output.out
    for line in output.err do
      IO.eprintln line
    return output.code
