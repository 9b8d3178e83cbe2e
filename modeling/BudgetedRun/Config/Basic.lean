import BudgetedRun.Json.Printer
import BudgetedRun.Json.Record
import BudgetedRun.Provider
import BudgetedRun.Run.Budget

/-!
# Configuration

The settings of the program: the limits of a run, where runs are stored, and how the local provider
answers. Whatever is not set has a standard value.
-/

namespace BudgetedRun

open Json

/-- The settings of the program. -/
structure Config where
  limits : Limits
  /-- The directory under which runs are stored. -/
  storePath : String
  mock : MockSettings
deriving DecidableEq

/-- Why settings are refused. -/
inductive ConfigError where
  | limits (e : LimitError)
  | emptyStorePath
deriving DecidableEq

def ConfigError.message : ConfigError → String
  | limits e => e.message
  | emptyStorePath => "store.base_path must not be empty"

namespace Config

def standardLimits : Limits := ⟨50, 200000, none⟩

/-- The settings for local use. -/
def standard : Config := ⟨standardLimits, ".plan-engine", .standard⟩

/-- The budgets of runs with these settings, if the settings can be used. -/
def budgets (c : Config) : Except ConfigError Budgets :=
  match Budgets.ofLimits c.limits with
  | .error e => .error (.limits e)
  | .ok b => if c.storePath = "" then .error .emptyStorePath else .ok b

/-- Whether settings can be used, and the first reason why not. -/
def validate (c : Config) : Except ConfigError Unit := c.budgets.map fun _ => ()

/-- Settings as a value. A time limit that is not set is left out. -/
def toJson (c : Config) : Value :=
  let time : List (String × Value) := match c.limits.maxExecutionMillis with
    | some n => [("max_execution_time_ms", .ofNat64 n)]
    | none => []
  .object
    ([("max_iterations", .ofNat32 c.limits.maxIterations),
        ("max_tokens", .ofNat64 c.limits.maxTokens)] ++ time ++
      [("store", .object [("base_path", .string c.storePath)]),
        ("mock", .object
          [("content", .string c.mock.content), ("input_tokens", .ofNat64 c.mock.inputTokens),
            ("output_tokens", .ofNat64 c.mock.outputTokens),
            ("latency_ms", .ofNat64 c.mock.latencyMillis)])])

def storePathOfDocument? (d : Document) : Option String := do
  let fields ← d.partialRecord? ["base_path"]
  fields.withDefault "base_path" standard.storePath Document.string?

def mockOfDocument? (d : Document) : Option MockSettings := do
  let fields ← d.partialRecord? ["content", "input_tokens", "output_tokens", "latency_ms"]
  let content ← fields.withDefault "content" MockSettings.standard.content Document.string?
  let inputTokens ←
    fields.withDefault "input_tokens" MockSettings.standard.inputTokens Document.word64?
  let outputTokens ←
    fields.withDefault "output_tokens" MockSettings.standard.outputTokens Document.word64?
  let latencyMillis ←
    fields.withDefault "latency_ms" MockSettings.standard.latencyMillis Document.word64?
  some { content, inputTokens, outputTokens, latencyMillis }

def ofDocument? (d : Document) : Option Config := do
  let fields ← d.partialRecord?
    ["max_iterations", "max_tokens", "max_execution_time_ms", "store", "mock"]
  let maxIterations ←
    fields.withDefault "max_iterations" standardLimits.maxIterations Document.word32?
  let maxTokens ← fields.withDefault "max_tokens" standardLimits.maxTokens Document.word64?
  let maxExecutionMillis ← fields.optional "max_execution_time_ms" Document.word64?
  let storePath ← fields.withDefault "store" standard.storePath storePathOfDocument?
  let mock ← fields.withDefault "mock" .standard mockOfDocument?
  some ⟨⟨maxIterations, maxTokens, maxExecutionMillis⟩, storePath, mock⟩

end Config

end BudgetedRun
