import BudgetedRun.Config.Basic
import BudgetedRun.Toml.Reader

/-!
# Configuration texts

Settings in TOML. A setting that is missing has its standard value. Other keys are passed over, if
the numbers in them have values. The groups `store` and `mock` are tables, or arrays of the values
of their settings in order, and nobody looks at what an array has beyond them. A point in time
stands for a group without settings.
-/

namespace BudgetedRun

namespace Config

/-- What is under other keys than some can be passed over. -/
def areOthersUsable (names : List String) (contents : Toml.Contents) : Bool :=
  contents.all fun (key, v) => key ∈ names || v.isUsable

/-- The setting of a group under a key, or at its place in an array. -/
def setting? (v : Toml.Value) (names : List String) (name : String) :
    Option (Option Toml.Value) :=
  match v with
  | .table _ contents =>
    if areOthersUsable names contents then some (Entries.find? name contents) else none
  | .array items => some (Entries.find? name (names.zip items))
  | .tables all => some (Entries.find? name (names.zip (all.map (.table .header))))
  | .time => some none
  | _ => none

/-- A whole number below a bound. -/
def whole? (bound : Nat) : Toml.Value → Option Nat
  | .integer n => if 0 ≤ n ∧ n.toNat < bound then some n.toNat else none
  | _ => none

/-- A whole number of 64 bits. -/
def word64? (v : Toml.Value) : Option UInt64 := (whole? UInt64.size v).map UInt64.ofNat

/-- A whole number of 32 bits. -/
def word32? (v : Toml.Value) : Option UInt32 := (whole? UInt32.size v).map UInt32.ofNat

/-- A text. -/
def text? : Toml.Value → Option String
  | .string s => some s
  | _ => none

def orStandard (standard : α) (read : Toml.Value → Option α) : Option Toml.Value → Option α
  | none => some standard
  | some v => read v

def storePathOfToml? (v : Toml.Value) : Option String :=
  (setting? v ["base_path"] "base_path").bind (orStandard standard.storePath text?)

def mockOfToml? (v : Toml.Value) : Option MockSettings := do
  let setting := setting? v ["content", "input_tokens", "output_tokens", "latency_ms"]
  let content ← orStandard MockSettings.standard.content text? (← setting "content")
  let inputTokens ←
    orStandard MockSettings.standard.inputTokens word64? (← setting "input_tokens")
  let outputTokens ←
    orStandard MockSettings.standard.outputTokens word64? (← setting "output_tokens")
  let latencyMillis ←
    orStandard MockSettings.standard.latencyMillis word64? (← setting "latency_ms")
  some { content, inputTokens, outputTokens, latencyMillis }

/-- The keys of all settings and groups. -/
def keys : List String := ["max_iterations", "max_tokens", "max_execution_time_ms", "store", "mock"]

def ofToml? (contents : Toml.Contents) : Option Config := do
  if !areOthersUsable keys contents then none
  let find (name : String) := Entries.find? name contents
  let maxIterations ← orStandard standardLimits.maxIterations word32? (find "max_iterations")
  let maxTokens ← orStandard standardLimits.maxTokens word64? (find "max_tokens")
  let maxExecutionMillis ←
    orStandard none (fun v => (word64? v).map some) (find "max_execution_time_ms")
  let storePath ← orStandard standard.storePath storePathOfToml? (find "store")
  let mock ← orStandard .standard mockOfToml? (find "mock")
  some ⟨⟨maxIterations, maxTokens, maxExecutionMillis⟩, storePath, mock⟩

def parse? (text : String) : Option Config := (Toml.Contents.parse? text).bind ofToml?

def numberLine (name : String) (n : Nat) : String := s!"{name} = {n}\n"

def textLine (name text : String) : String := s!"{name} = {Toml.Quoted.render text}\n"

/-- The text of settings: the limits, then each group under its header, with blank lines between
them and at the end. -/
def render (c : Config) : String :=
  numberLine "max_iterations" c.limits.maxIterations.toNat ++
  numberLine "max_tokens" c.limits.maxTokens.toNat ++
  (match c.limits.maxExecutionMillis with
    | some n => numberLine "max_execution_time_ms" n.toNat
    | none => "") ++
  "\n[store]\n" ++
  textLine "base_path" c.storePath ++
  "\n[mock]\n" ++
  textLine "content" c.mock.content ++
  numberLine "input_tokens" c.mock.inputTokens.toNat ++
  numberLine "output_tokens" c.mock.outputTokens.toNat ++
  numberLine "latency_ms" c.mock.latencyMillis.toNat ++
  "\n"

end Config

end BudgetedRun
