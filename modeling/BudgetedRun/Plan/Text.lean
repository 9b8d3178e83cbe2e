import BudgetedRun.Json.Reader
import BudgetedRun.Plan.Codec
import BudgetedRun.Plan.Schema

/-!
# Reading plans

A text is a plan that can be run if it is JSON, has the shape of a plan and keeps the rules on ids.
The first of these that fails is reported.
-/

namespace BudgetedRun

open Json

/-- Why a text is not a plan that can be run. -/
inductive PlanTextError where
  | notJson
  | badShape (errors : List ShapeError)
  | unreadable
  | invalid (e : PlanError)

def PlanTextError.message : PlanTextError → String
  | notJson => "parse plan json"
  | badShape errors =>
    "plan schema validation failed: " ++ "; ".intercalate (errors.map ShapeError.message)
  | unreadable => "deserialize plan"
  | invalid e => e.message

namespace Plan

/-- The plan that a value is, if it can be run. -/
def check (v : Value) : Except PlanTextError Plan :=
  match Schema.plan v with
  | [] =>
    match ofValue? v with
    | some p =>
      match p.validate with
      | .ok () => .ok p
      | .error e => .error (.invalid e)
    | none => .error .unreadable
  | errors => .error (.badShape errors)

/-- The plan that a text holds, if it can be run. -/
def parse (text : String) : Except PlanTextError Plan :=
  match Value.ofText? text with
  | some v => check v
  | none => .error .notJson

end Plan

end BudgetedRun
