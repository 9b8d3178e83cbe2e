import BudgetedRun.Json.Printer
import BudgetedRun.Json.Record
import BudgetedRun.Run.State
import BudgetedRun.Time.Text

/-!
# Snapshots

The written form of a run's state: a JSON record with a field for everything, `null` where there is
nothing. `RunState.snapshot` is the text that a store keeps and a command prints.
-/

namespace BudgetedRun

open Json

def named? (name : α → String) (all : List α) (text : String) : Option α :=
  all.find? fun a => name a = text

namespace Timestamp

def toJson (t : Timestamp) : Value := .string t.render

def ofDocument? (d : Document) : Option Timestamp := d.string?.bind parse?

end Timestamp

namespace RunStatus

def toJson (s : RunStatus) : Value := .string s.name

def ofDocument? (d : Document) : Option RunStatus := d.name?.bind (named? name all)

end RunStatus

namespace StopReason

def toJson (r : StopReason) : Value := .string r.name

def ofDocument? (d : Document) : Option StopReason := d.name?.bind (named? name all)

end StopReason

namespace TokenUsage

def toJson (u : TokenUsage) : Value :=
  .object [("input", .ofNat64 u.input), ("output", .ofNat64 u.output), ("total", .ofNat64 u.total)]

def ofDocument? (d : Document) : Option TokenUsage := do
  let fields ← d.record? ["input", "output", "total"]
  let input ← fields.required "input" Document.word64?
  let output ← fields.required "output" Document.word64?
  let total ← fields.required "total" Document.word64?
  some ⟨input, output, total⟩

end TokenUsage

namespace Incident

def toJson (e : Incident) : Value :=
  .object
    [("stepId", .ofOption .string e.stepId), ("message", .string e.message),
      ("timestamp", e.timestamp.toJson), ("recoverable", .bool e.recoverable)]

def ofDocument? (d : Document) : Option Incident := do
  let fields ← d.record? ["stepId", "message", "timestamp", "recoverable"]
  let stepId ← fields.optional "stepId" Document.string?
  let message ← fields.required "message" Document.string?
  let timestamp ← fields.required "timestamp" Timestamp.ofDocument?
  let recoverable ← fields.required "recoverable" Document.bool?
  some ⟨stepId, message, timestamp, recoverable⟩

end Incident

namespace RunState

def toJson (s : RunState) : Value :=
  .object
    [("runId", .string s.runId), ("planId", .string s.planId), ("status", s.status.toJson),
      ("stopReason", .ofOption StopReason.toJson s.stopReason),
      ("currentStepIndex", .ofNat64 s.currentStepIndex),
      ("iterationCount", .ofNat32 s.iterationCount), ("tokenUsage", s.tokenUsage.toJson),
      ("errors", .array (s.errors.map Incident.toJson)), ("startTime", s.startTime.toJson),
      ("endTime", .ofOption Timestamp.toJson s.endTime)]

def ofDocument? (d : Document) : Option RunState := do
  let fields ← d.record?
    ["runId", "planId", "status", "stopReason", "currentStepIndex", "iterationCount", "tokenUsage",
      "errors", "startTime", "endTime"]
  let runId ← fields.required "runId" Document.string?
  let planId ← fields.required "planId" Document.string?
  let status ← fields.required "status" RunStatus.ofDocument?
  let stopReason ← fields.optional "stopReason" StopReason.ofDocument?
  let currentStepIndex ← fields.required "currentStepIndex" Document.word64?
  let iterationCount ← fields.required "iterationCount" Document.word32?
  let tokenUsage ← fields.required "tokenUsage" TokenUsage.ofDocument?
  let errors ← fields.required "errors" (Document.list? Incident.ofDocument?)
  let startTime ← fields.required "startTime" Timestamp.ofDocument?
  let endTime ← fields.optional "endTime" Timestamp.ofDocument?
  some
    { runId, planId, status, stopReason, currentStepIndex, iterationCount, tokenUsage, errors,
      startTime, endTime }

def compactText (s : RunState) : String := s.toJson.compact

/-- A state with each field on its own line, and a line break at the end. -/
def snapshot (s : RunState) : String := s.toJson.indented ++ "\n"

def parse? (text : String) : Option RunState := (Document.parse? text).bind ofDocument?

end RunState

end BudgetedRun
