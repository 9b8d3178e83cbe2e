/-!
# Command lines

The four commands and how they are called. An option is given once at most, as `--name value` or
`--name=value`, and names are never shortened. A value of its own must not look like an option.
-/

namespace BudgetedRun

/-- Where a command keeps the states of a run. -/
inductive StoreKind where
  /-- For as long as the command takes. -/
  | memory
  /-- In files. -/
  | file
deriving DecidableEq

/-- What the program is asked to do. -/
inductive Command where
  /-- Run a plan and print the final state. -/
  | run (plan repository : String) (runId : Option String) (config : String) (store : StoreKind)
  /-- Print the stored state of a run. -/
  | showRun (runId config : String)
  /-- List the runs with a stored state. -/
  | listRuns (config : String)
  /-- Check a plan file. -/
  | validate (plan : String)
deriving DecidableEq

namespace Command

/-- The configuration file of a command that names none. -/
def standardConfig : String := "plan-engine.toml"

/-- The options of a command with their values. -/
abbrev Options := List (String × String)

/-- An argument that looks like an option, so that it is no value. -/
def looksLikeOption (arg : String) : Bool := arg.toList.head? == some '-' && arg != "-"

/-- The switch for more output. -/
def isVerbose (arg : String) : Bool := arg == "-v" || arg == "--verbose"

/-- An option's name, and its value if it follows a `=`. -/
def splitOption (arg : String) : String × Option String :=
  let cs := arg.toList
  let name := String.ofList (cs.takeWhile (· ≠ '='))
  match cs.dropWhile (· ≠ '=') with
  | [] => (name, none)
  | _ :: value => (name, some (String.ofList value))

/-- Read the options of a command among the given names. `verbose` tells that the switch was there
before. -/
def readOptions (names : List String) (verbose : Bool) (found : Options) :
    List String → Option Options
  | [] => some found
  | arg :: rest =>
    if isVerbose arg then (if verbose then none else readOptions names true found rest)
    else if arg = "--" then (if rest = [] then some found else none)
    else
      let (name, value) := splitOption arg
      if name ∉ names ∨ (found.lookup name).isSome then none
      else
        match value, rest with
        | some value, rest => readOptions names verbose ((name, value) :: found) rest
        | none, value :: rest =>
          if looksLikeOption value then none
          else readOptions names verbose ((name, value) :: found) rest
        | none, [] => none

/-- The value of an option that is a path, or a standard value. A path must not be empty. -/
def path? (options : Options) (name : String) (standard : Option String) : Option String :=
  match options.lookup name with
  | none => standard
  | some value => if value = "" then none else some value

def storeKind? (options : Options) : Option StoreKind :=
  match options.lookup "--store" with
  | none => some .file
  | some "file" => some .file
  | some "memory" => some .memory
  | some _ => none

/-- The command of a given name with its options. -/
def ofName? (name : String) (args : List String) : Option Command :=
  match name with
  | "run" => do
    let options ←
      readOptions ["--plan", "--repo", "--run-id", "--config", "--store"] false [] args
    let plan ← path? options "--plan" none
    let repository ← path? options "--repo" (some ".")
    let config ← path? options "--config" (some standardConfig)
    let store ← storeKind? options
    some (.run plan repository (options.lookup "--run-id") config store)
  | "show" => do
    let options ← readOptions ["--run-id", "--config"] false [] args
    let runId ← options.lookup "--run-id"
    let config ← path? options "--config" (some standardConfig)
    some (.showRun runId config)
  | "runs" => do
    let options ← readOptions ["--config"] false [] args
    let config ← path? options "--config" (some standardConfig)
    some (.listRuns config)
  | "validate" => do
    let options ← readOptions ["--plan"] false [] args
    let plan ← path? options "--plan" none
    some (.validate plan)
  | _ => none

/-- The command that some arguments ask for. The switch for more output may come once before the
name of the command. -/
def ofArguments? : List String → Option Command
  | [] => none
  | arg :: args =>
    if isVerbose arg then
      match args with
      | [] => none
      | name :: args => ofName? name args
    else ofName? arg args

end Command

end BudgetedRun
