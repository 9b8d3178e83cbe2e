import BudgetedRun.Json.Value
import BudgetedRun.Text.Blank
import Std.Data.TreeSet

/-!
# Plans

A plan is an ordered list of steps towards a goal. It can be run if it and all its steps have ids,
no two steps have the same one, and there is at least one step.
-/

namespace BudgetedRun

/-- What a step is about. -/
inductive StepKind where
  | analysis
  | codeChange
  | review
  | test
  | documentation
deriving DecidableEq, Repr

namespace StepKind

def name : StepKind → String
  | analysis => "analysis"
  | codeChange => "code_change"
  | review => "review"
  | test => "test"
  | documentation => "documentation"

def all : List StepKind := [analysis, codeChange, review, test, documentation]

end StepKind

/-- What a step hands to the provider. -/
structure StepInput where
  prompt : String
  /-- Hints, which the prompt lists in key order. -/
  context : Table String
  /-- All other members, kept as they are. -/
  extra : Table Json.Value

/-- One step of a plan. -/
structure Step where
  id : String
  kind : StepKind
  title : String
  description : String
  input : StepInput

/-- An ordered list of steps towards a goal. -/
structure Plan where
  id : String
  goal : String
  description : String
  steps : List Step

/-- Why a plan cannot be run. -/
inductive PlanError where
  | missingId
  | noSteps (planId : String)
  | emptyStepId (planId : String)
  | duplicateStepId (planId stepId : String)
deriving DecidableEq

def PlanError.message : PlanError → String
  | missingId => "plan id must not be empty"
  | noSteps planId => s!"plan '{planId}' has no steps"
  | emptyStepId planId => s!"plan '{planId}' has a step with an empty id"
  | duplicateStepId planId stepId => s!"plan '{planId}' has duplicate step id '{stepId}'"

namespace Plan

/-- Go through step ids for the first that is blank or among the earlier ones. -/
def checkIds (planId : String) (earlier : Std.TreeSet String) : List String → Except PlanError Unit
  | [] => .ok ()
  | id :: rest =>
    if Text.isAllBlank id then .error (.emptyStepId planId)
    else if id ∈ earlier then .error (.duplicateStepId planId id)
    else checkIds planId (earlier.insert id) rest

/-- Whether a plan can be run, and the first reason why not. -/
def validate (p : Plan) : Except PlanError Unit :=
  if Text.isAllBlank p.id then .error .missingId
  else if p.steps.isEmpty then .error (.noSteps p.id)
  else checkIds p.id ∅ (p.steps.map (·.id))

end Plan

end BudgetedRun
