import BudgetedRun.Json.Printer
import BudgetedRun.Json.Record
import BudgetedRun.Plan.Basic

/-!
# Providers

A provider works on one step at a time: it is handed a `Request` and answers with what it produced
and the tokens that this took, or fails with a message. `MockProvider` answers every step alike,
`Script` replays a list of answers.
-/

namespace BudgetedRun

open Json

/-- All that a provider gets to see of a step. -/
structure Request where
  runId : String
  planId : String
  stepId : String
  kind : StepKind
  prompt : String
  repository : String
deriving DecidableEq

/-- What a provider produced. -/
structure Response where
  content : String
  inputTokens : UInt64
  outputTokens : UInt64
deriving DecidableEq

namespace Response

def toJson (r : Response) : Value :=
  .object
    [("content", .string r.content), ("inputTokens", .ofNat64 r.inputTokens),
      ("outputTokens", .ofNat64 r.outputTokens)]

def ofDocument? (d : Document) : Option Response := do
  let fields ← d.record? ["content", "inputTokens", "outputTokens"]
  let content ← fields.required "content" Document.string?
  let inputTokens ← fields.required "inputTokens" Document.word64?
  let outputTokens ← fields.required "outputTokens" Document.word64?
  some ⟨content, inputTokens, outputTokens⟩

end Response

/-- The answer to a request: a response, or the message of a failure. -/
abbrev Answer := Except String Response

/-- Settings of a provider that answers every step alike. -/
structure MockSettings where
  content : String
  inputTokens : UInt64
  outputTokens : UInt64
  latencyMillis : UInt64
deriving DecidableEq

namespace MockSettings

/-- One hundred tokens read and fifty written, at once. -/
def standard : MockSettings := ⟨"ok", 100, 50, 0⟩

end MockSettings

/-- A provider that answers every step alike, except for some that always fail. -/
structure MockProvider where
  settings : MockSettings
  failingSteps : List String

namespace MockProvider

def answer (p : MockProvider) (r : Request) : Answer :=
  if r.stepId ∈ p.failingSteps then .error s!"mock provider failure for step '{r.stepId}'"
  else
    .ok
      { content := s!"{p.settings.content} [{r.planId}:{r.stepId}]"
        inputTokens := p.settings.inputTokens
        outputTokens := p.settings.outputTokens }

end MockProvider

/-- One answer of a script: the tokens of a response, or the message of a failure. -/
abbrev Line := Except String (UInt64 × UInt64)

/-- Answers that are given one after another, whatever is asked. -/
abbrev Script := List Line

namespace Script

/-- The answer of the next line to a request, and the lines after it. -/
def next (script : Script) (r : Request) : Answer × Script :=
  match script with
  | .ok (input, output) :: rest =>
    (.ok ⟨s!"scripted output for {r.stepId}", input, output⟩, rest)
  | .error message :: rest => (.error message, rest)
  | [] => (.error "scripted provider exhausted", [])

end Script

end BudgetedRun
