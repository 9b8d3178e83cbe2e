import BudgetedRun.Run.Snapshot

/-!
# Run logs

What a run did, one entry after another. A log is written with one JSON record on each line.
-/

namespace BudgetedRun

open Json

/-- How serious an entry is. -/
inductive LogLevel where
  | info
  | warn
  | error
deriving DecidableEq, Repr

namespace LogLevel

def name : LogLevel → String
  | info => "info"
  | warn => "warn"
  | error => "error"

def all : List LogLevel := [info, warn, error]

def toJson (l : LogLevel) : Value := .string l.name

def ofDocument? (d : Document) : Option LogLevel := d.name?.bind (named? name all)

end LogLevel

/-- One thing that a run did. -/
structure LogEntry where
  runId : String
  level : LogLevel
  /-- The part of the program that speaks. -/
  domain : String
  operation : String
  message : String
  timestamp : Timestamp
deriving DecidableEq

namespace LogEntry

def toJson (e : LogEntry) : Value :=
  .object
    [("runId", .string e.runId), ("level", e.level.toJson), ("domain", .string e.domain),
      ("operation", .string e.operation), ("message", .string e.message),
      ("timestamp", e.timestamp.toJson)]

def ofDocument? (d : Document) : Option LogEntry := do
  let fields ← d.record? ["runId", "level", "domain", "operation", "message", "timestamp"]
  let runId ← fields.required "runId" Document.string?
  let level ← fields.required "level" LogLevel.ofDocument?
  let domain ← fields.required "domain" Document.string?
  let operation ← fields.required "operation" Document.string?
  let message ← fields.required "message" Document.string?
  let timestamp ← fields.required "timestamp" Timestamp.ofDocument?
  some { runId, level, domain, operation, message, timestamp }

def compactText (e : LogEntry) : String := e.toJson.compact

def parse? (text : String) : Option LogEntry := (Document.parse? text).bind ofDocument?

def logText (entries : List LogEntry) : String :=
  String.join (entries.map fun e => e.compactText ++ "\n")

end LogEntry

end BudgetedRun
