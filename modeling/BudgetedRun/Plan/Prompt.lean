import BudgetedRun.Plan.Basic

/-!
# Prompts

The text that is handed to a provider for one step: the step's title and place, the goal and
description of the plan, the repository, and the step's own description, task and context. Optional
parts are left out with the blank line before them. Every value stands as it is; goal, descriptions
and task are trimmed.
-/

namespace BudgetedRun

/-- There is no step at some index of a plan. -/
structure PromptError where
  index : Nat
  planId : String
deriving DecidableEq

def PromptError.message (e : PromptError) : String :=
  s!"step index {e.index} out of range for plan '{e.planId}'"

namespace Prompt

/-- A paragraph after a blank line, unless it is empty. -/
def paragraph (text : String) : String :=
  if text = "" then "" else "\n\n" ++ text

/-- The list of hints under its heading, unless there are none. -/
def contextSection (context : Table String) : String :=
  if context.entries = [] then ""
  else "\n\n## Context\n" ++ String.join (context.entries.map fun (k, v) => s!"\n- {k}: {v}")

/-- The prompt for a step with the given place in its plan. -/
def ofStep (plan : Plan) (position : Nat) (step : Step) (repository : String) : String :=
  s!"# Step {position} of {plan.steps.length}: {step.title}\n\n" ++
    s!"Plan goal: {Text.trim plan.goal}" ++
    paragraph (Text.trim plan.description) ++
    s!"\n\nRepository: {repository}\nStep type: {step.kind.name}" ++
    paragraph (Text.trim step.description) ++
    s!"\n\n## Task\n\n{Text.trim step.input.prompt}" ++
    contextSection step.input.context

end Prompt

def Plan.prompt (plan : Plan) (index : Nat) (repository : String) : Except PromptError String :=
  match plan.steps[index]? with
  | some step => .ok (Prompt.ofStep plan (index + 1) step repository)
  | none => .error ⟨index, plan.id⟩

end BudgetedRun
