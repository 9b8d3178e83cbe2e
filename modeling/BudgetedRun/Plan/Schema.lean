import BudgetedRun.Json.Printer
import BudgetedRun.Plan.Basic

/-!
# The shape of a plan text

Which JSON values are plans, apart from the rules on ids. `Schema.plan` gives all that is wrong with
a value, in the order in which it is reported: an object reports the faults of its members in key
order, then the members that it must not have, then those that it lacks.
-/

namespace BudgetedRun

open Json

/-- A fault in the shape of a value. -/
inductive ShapeError where
  | wrongType (v : Value) (expected : String)
  | emptyText
  | emptyList
  | unknownKind (v : Value)
  | unexpected (names : List String)
  | missing (name : String)

namespace ShapeError

def message : ShapeError → String
  | wrongType v expected => s!"{v.compact} is not of type \"{expected}\""
  | emptyText => "\"\" is shorter than 1 character"
  | emptyList => "[] has less than 1 item"
  | unknownKind v =>
    s!"{v.compact} is not one of \"analysis\", \"code_change\" or 3 other candidates"
  | unexpected names =>
    let list := ", ".intercalate (names.map fun name => s!"'{name}'")
    let verb := if names.length = 1 then "was" else "were"
    s!"Additional properties are not allowed ({list} {verb} unexpected)"
  | missing name => s!"\"{name}\" is a required property"

end ShapeError

namespace Schema

/-- What is wrong with a value. -/
abbrev Check := Value → List ShapeError

def text : Check
  | .string _ => []
  | v => [.wrongType v "string"]

/-- A text that is not empty. -/
def nonEmptyText : Check
  | .string s => if s = "" then [.emptyText] else []
  | v => [.wrongType v "string"]

def kind : Check
  | .string s => if s ∈ StepKind.all.map StepKind.name then [] else [.unknownKind (.string s)]
  | v => [.unknownKind v]

/-- A list of at least one item. -/
def nonEmptyList (item : Check) : Check
  | .array [] => [.emptyList]
  | .array vs => vs.flatMap item
  | v => [.wrongType v "array"]

/-- An object whose members are all of one shape. -/
def mapOf (value : Check) : Check
  | .object members => members.flatMap fun m => value m.2
  | v => [.wrongType v "object"]

/-- The names of the members that have no check of their own. -/
def others (fields : List (String × Check)) (members : List (String × Value)) : List String :=
  (members.filter fun m => (Entries.find? m.1 fields).isNone).map (·.1)

/-- The names that no member has. -/
def lacking (required : List String) (members : List (String × Value)) : List String :=
  required.filter fun name => (Entries.find? name members).isNone

/-- The faults of the members that have a check. -/
def memberErrors (fields : List (String × Check)) (members : List (String × Value)) :
    List ShapeError :=
  members.flatMap fun m => ((Entries.find? m.1 fields).map fun check => check m.2).getD []

/-- An object with some checked members, of which some are required, and with any others. -/
def openRecord (fields : List (String × Check)) (required : List String) : Check
  | .object members => memberErrors fields members ++ (lacking required members).map .missing
  | v => [.wrongType v "object"]

/-- An object with some checked members, of which some are required, and with no others. -/
def closedRecord (fields : List (String × Check)) (required : List String) : Check
  | .object members =>
    memberErrors fields members ++
      (match others fields members with
        | [] => []
        | names => [.unexpected names]) ++
      (lacking required members).map .missing
  | v => [.wrongType v "object"]

/-- The input of a step. -/
def input : Check := openRecord [("prompt", text), ("context", mapOf text)] ["prompt"]

def step : Check :=
  closedRecord
    [("id", nonEmptyText), ("type", kind), ("title", text), ("description", text),
      ("input", input)]
    ["id", "type", "title", "input"]

def plan : Check :=
  closedRecord
    [("id", nonEmptyText), ("goal", text), ("description", text), ("steps", nonEmptyList step)]
    ["id", "goal", "steps"]

end Schema

end BudgetedRun
