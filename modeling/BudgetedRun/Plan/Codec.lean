import BudgetedRun.Json.Printer
import BudgetedRun.Json.Record
import BudgetedRun.Plan.Basic
import BudgetedRun.Run.Snapshot

/-!
# Plans in JSON

The written form of a plan and its parts. A description that is missing is empty, and a context
without entries is not written. All members of a step's input besides its prompt and its context
are kept, in key order.
-/

namespace BudgetedRun

open Json

namespace StepKind

def toJson (k : StepKind) : Value := .string k.name

def ofDocument? (d : Document) : Option StepKind := d.name?.bind (named? name all)

end StepKind

namespace StepInput

def toJson (i : StepInput) : Value :=
  let context : List (String × Value) :=
    if i.context.entries.isEmpty then []
    else [("context", .object (i.context.entries.map fun (k, s) => (k, .string s)))]
  .object (("prompt", .string i.prompt) :: context ++ i.extra.entries)

/-- The names of the members that are not extra. -/
def fieldNames : List String := ["prompt", "context"]

/-- The members that are extra, as values with at most `levels` arrays and objects within each
other. -/
def extra? (levels : Nat) (members : List (Option String × Document)) :
    Option (List (String × Value)) :=
  (Document.toMembers? levels (members.filter fun m => m.1.all (· ∉ fieldNames)))

/-- Read an input in which at most `levels` arrays and objects lie within each other. -/
def ofDocument? (levels : Nat) : Document → Option StepInput
  | .object members => do
    let fields ← Document.known? fieldNames members
    let extra ← extra? (levels - 1) members
    let prompt ← fields.required "prompt" Document.string?
    let context ← fields.withDefault "context" Table.empty Document.strings?
    some ⟨prompt, context, Table.ofList extra⟩
  | _ => none

end StepInput

namespace Step

def toJson (s : Step) : Value :=
  .object
    [("id", .string s.id), ("type", s.kind.toJson), ("title", .string s.title),
      ("description", .string s.description), ("input", s.input.toJson)]

/-- Read a step in which at most `levels` arrays and objects lie within each other. -/
def ofDocument? (levels : Nat) (d : Document) : Option Step := do
  let fields ← d.record? ["id", "type", "title", "description", "input"]
  let id ← fields.required "id" Document.string?
  let kind ← fields.required "type" StepKind.ofDocument?
  let title ← fields.required "title" Document.string?
  let description ← fields.withDefault "description" "" Document.string?
  let input ← fields.required "input" (StepInput.ofDocument? (levels - 1))
  some ⟨id, kind, title, description, input⟩

end Step

namespace Plan

def toJson (p : Plan) : Value :=
  .object
    [("id", .string p.id), ("goal", .string p.goal), ("description", .string p.description),
      ("steps", .array (p.steps.map Step.toJson))]

/-- Read a plan in which at most `levels` arrays and objects lie within each other. -/
def ofDocument? (levels : Nat) (d : Document) : Option Plan := do
  let fields ← d.record? ["id", "goal", "description", "steps"]
  let id ← fields.required "id" Document.string?
  let goal ← fields.required "goal" Document.string?
  let description ← fields.withDefault "description" "" Document.string?
  let steps ← fields.required "steps" (Document.list? (Step.ofDocument? (levels - 2)))
  some ⟨id, goal, description, steps⟩

/-- The plan that a value is, however deep it is. -/
def ofValue? (v : Value) : Option Plan := ofDocument? v.levels (.ofValue v)

def compactText (p : Plan) : String := p.toJson.compact

end Plan

end BudgetedRun
