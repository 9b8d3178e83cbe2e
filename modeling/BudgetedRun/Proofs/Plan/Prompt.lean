import BudgetedRun.Plan.Prompt
import BudgetedRun.Proofs.Table
import BudgetedRun.Proofs.Text.Blank

/-!
# The lines of a prompt

The parts of a prompt are the place and the values of a step, the goal and description of its plan,
and the repository (`Prompt.Parts.Of`). They are laid out in lines, some of them only if there is
something to say (`Prompt.Parts.lines`). The prompt of every step is the text with these lines, so
the values stand in it as they are, and nothing else of the plan shows (`Plan.prompt_eq_text`).
-/

namespace BudgetedRun

namespace Text

/-- What lines add to the text that they follow. -/
def continued (lines : List String) : String := String.join (lines.map ("\n" ++ ·))

variable {value text line : String} {lines others : List String}

@[simp] theorem continued_nil : continued [] = "" := rfl

@[simp] theorem continued_cons :
    continued (line :: lines) = "\n" ++ line ++ continued lines := by
  rw [continued, List.map_cons, String.join_cons, continued]

/-- Lines after other lines continue a text one after another. -/
theorem continued_append : continued (lines ++ others) = continued lines ++ continued others := by
  rw [continued, List.map_append, String.join_append, continued, continued]

/-- Lines with line breaks between them are the first one and what the others add to it. -/
theorem intercalate_newline (line : String) (lines : List String) :
    "\n".intercalate (line :: lines) = line ++ continued lines := by
  induction lines generalizing line with
  | nil => rw [String.intercalate_singleton, continued_nil, String.append_empty]
  | cons next lines ih =>
      rw [String.intercalate_cons_cons, ih, continued_cons, String.append_assoc,
        String.append_assoc]

/-- A text stands in another as it is. -/
def Occurs (value text : String) : Prop := ∃ before after, text = before ++ value ++ after

namespace Occurs

theorem empty (text : String) : Occurs "" text := ⟨"", text, rfl⟩

/-- A text occurs where it is the end. -/
theorem suffix (start value : String) : Occurs value (start ++ value) :=
  ⟨start, "", String.append_empty.symm⟩

theorem trans (inner : Occurs value line) (outer : Occurs line text) : Occurs value text := by
  obtain ⟨first, last, rfl⟩ := inner
  obtain ⟨before, after, rfl⟩ := outer
  exact ⟨before ++ first, last ++ after, by simp only [String.append_assoc]⟩

/-- Each line occurs in the text that lines continue. -/
theorem continued (member : line ∈ lines) : Occurs line (continued lines) := by
  obtain ⟨before, after, rfl⟩ := List.append_of_mem member
  refine ⟨Text.continued before ++ "\n", Text.continued after, ?_⟩
  rw [continued_append, continued_cons]
  simp only [String.append_assoc]

/-- Each line of a text stands in it. -/
theorem intercalate (member : line ∈ lines) : Occurs line ("\n".intercalate lines) := by
  cases lines with
  | nil => cases member
  | cons first lines =>
      rw [intercalate_newline]
      rcases List.mem_cons.mp member with rfl | later
      · exact ⟨"", _, by rw [String.empty_append]⟩
      · exact (continued later).trans (suffix first _)

end Occurs

end Text

namespace Prompt

/-- What a prompt is made of. The purpose is the description of the plan. -/
structure Parts where
  position : Nat
  total : Nat
  title : String
  goal : String
  purpose : String
  repository : String
  kind : String
  description : String
  task : String
  hints : List (String × String)

namespace Parts

/-- These are the parts of the prompt for the step at some index of a plan. The title and the hints
are those of the step, while goal, descriptions and task go without the blanks around them. There is
one hint for each entry of the context, in ascending order of the keys. -/
structure Of (parts : Parts) (plan : Plan) (index : Nat) (step : Step) (repository : String) :
    Prop where
  here : plan.steps[index]? = some step
  position : parts.position = index + 1
  total : parts.total = plan.steps.length
  title : parts.title = step.title
  goal : Text.Trims plan.goal parts.goal
  purpose : Text.Trims plan.description parts.purpose
  repository : parts.repository = repository
  kind : parts.kind = step.kind.name
  description : Text.Trims step.description parts.description
  task : Text.Trims step.input.prompt parts.task
  hints : ∀ key value, (key, value) ∈ parts.hints ↔ step.input.context.get? key = some value
  ascending : parts.hints.Pairwise fun hint later => hint.1 < later.1

/-- The lines of a prompt. A part may have several lines itself. -/
def lines (p : Parts) : List String :=
  [s!"# Step {p.position} of {p.total}: {p.title}", "", s!"Plan goal: {p.goal}"] ++
    (if p.purpose = "" then [] else ["", p.purpose]) ++
    ["", s!"Repository: {p.repository}", s!"Step type: {p.kind}"] ++
    (if p.description = "" then [] else ["", p.description]) ++
    ["", "## Task", "", p.task] ++
    (if p.hints = [] then []
      else ["", "## Context", ""] ++ p.hints.map fun hint => s!"- {hint.1}: {hint.2}")

/-- The text with these lines, without a line break after the last one. -/
def text (p : Parts) : String := "\n".intercalate p.lines

/-- The texts that a prompt takes over. -/
def values (p : Parts) : List String :=
  [p.title, p.goal, p.purpose, p.repository, p.kind, p.description, p.task] ++
    p.hints.flatMap fun hint => [hint.1, hint.2]

/-- Every value stands in the text as it is. -/
theorem occurs (p : Parts) : ∀ value ∈ p.values, Text.Occurs value p.text := by
  have whole {line : String} (member : line ∈ p.lines) : Text.Occurs line p.text :=
    .intercalate member
  have optional {value : String} (member : value ≠ "" → value ∈ p.lines) :
      Text.Occurs value p.text := by
    by_cases empty : value = ""
    · rw [empty]
      exact .empty _
    · exact whole (member empty)
  intro value member
  rw [values] at member
  rcases List.mem_append.mp member with part | part
  · simp only [List.mem_cons, List.not_mem_nil, or_false] at part
    rcases part with rfl | rfl | rfl | rfl | rfl | rfl | rfl
    · have ends : Text.Occurs p.title s!"# Step {p.position} of {p.total}: {p.title}" := .suffix _ _
      exact ends.trans (whole (by simp [lines]))
    · have ends : Text.Occurs p.goal s!"Plan goal: {p.goal}" := .suffix _ _
      exact ends.trans (whole (by simp [lines]))
    · exact optional fun given => by simp [lines, given]
    · have ends : Text.Occurs p.repository s!"Repository: {p.repository}" := .suffix _ _
      exact ends.trans (whole (by simp [lines]))
    · have ends : Text.Occurs p.kind s!"Step type: {p.kind}" := .suffix _ _
      exact ends.trans (whole (by simp [lines]))
    · exact optional fun given => by simp [lines, given]
    · exact whole (by simp [lines])
  · obtain ⟨⟨key, text⟩, member, among⟩ := List.mem_flatMap.mp part
    have item : s!"- {key}: {text}" ∈ p.lines := by
      rw [lines, if_neg (List.ne_nil_of_mem member)]
      exact List.mem_append_right _ (List.mem_append_right _ (List.mem_map.mpr ⟨_, member, rfl⟩))
    simp only [List.mem_cons, List.not_mem_nil, or_false] at among
    rcases among with rfl | rfl
    · have within : Text.Occurs value s!"- {value}: {text}" := by
        refine ⟨"- ", ": " ++ text, ?_⟩
        change "- " ++ value ++ ": " ++ text = "- " ++ value ++ (": " ++ text)
        rw [String.append_assoc]
      exact within.trans (whole item)
    · have ends : Text.Occurs value s!"- {key}: {value}" := .suffix _ _
      exact ends.trans (whole item)

end Parts

/-- The parts of the prompt for a step. -/
def partsOf (plan : Plan) (index : Nat) (step : Step) (repository : String) : Parts where
  position := index + 1
  total := plan.steps.length
  title := step.title
  goal := Text.trim plan.goal
  purpose := Text.trim plan.description
  repository := repository
  kind := step.kind.name
  description := Text.trim step.description
  task := Text.trim step.input.prompt
  hints := step.input.context.entries

variable {plan : Plan} {index : Nat} {step : Step} {repository : String} {parts : Parts}

/-- The parts of a prompt are those of its step. -/
theorem of_partsOf (here : plan.steps[index]? = some step) :
    (partsOf plan index step repository).Of plan index step repository where
  here := here
  position := rfl
  total := rfl
  title := rfl
  goal := Text.trims_trim _
  purpose := Text.trims_trim _
  repository := rfl
  kind := rfl
  description := Text.trims_trim _
  task := Text.trims_trim _
  hints := fun _ _ => step.input.context.ascending.find?_eq_some_iff.symm
  ascending := step.input.context.ascending

/-- A step has no other parts. -/
theorem Parts.Of.eq_partsOf (of : parts.Of plan index step repository) :
    parts = partsOf plan index step repository := by
  have hints : parts.hints = step.input.context.entries := by
    have ascending : Entries.Ascending parts.hints := of.ascending
    refine ascending.ext step.input.context.ascending fun key => Option.ext fun value => ?_
    rw [ascending.find?_eq_some_iff]
    exact of.hints key value
  cases parts
  obtain ⟨-, rfl, rfl, rfl, goal, purpose, rfl, rfl, description, task, -, -⟩ := of
  cases hints
  rw [partsOf, goal.trim_eq, purpose.trim_eq, description.trim_eq, task.trim_eq]

/-! The text of the parts is put together by paragraphs: each optional one is what its lines add. -/

/-- A paragraph is an empty line and its text, or nothing. -/
theorem paragraph_eq (text : String) :
    paragraph text = Text.continued (if text = "" then [] else ["", text]) := by
  unfold paragraph
  split
  · rfl
  · have gap : "\n\n" = "\n" ++ "" ++ "\n" := rfl
    simp only [gap, Text.continued_cons, Text.continued_nil, String.append_empty,
      String.append_assoc]

/-- The section of a context is a heading and a line for each hint, or nothing. -/
theorem contextSection_eq (context : Table String) :
    contextSection context =
      Text.continued (if context.entries = [] then []
        else ["", "## Context", ""] ++
          context.entries.map fun hint => s!"- {hint.1}: {hint.2}") := by
  unfold contextSection
  split
  · rfl
  · have item (key value : String) :
        "\n- " ++ key ++ ": " ++ value = "\n" ++ ("- " ++ key ++ ": " ++ value) := by
      have mark : "\n- " = "\n" ++ "- " := rfl
      simp only [mark, String.append_assoc]
    have items : context.entries.map (fun hint => s!"\n- {hint.1}: {hint.2}") =
        (context.entries.map fun hint => s!"- {hint.1}: {hint.2}").map ("\n" ++ ·) := by
      rw [List.map_map]
      exact List.map_congr_left fun hint _ => item hint.1 hint.2
    change "\n\n## Context\n" ++
      String.join (context.entries.map fun hint => s!"\n- {hint.1}: {hint.2}") = _
    rw [items, Text.continued_append]
    rfl

/-- The lines of the parts of a prompt make the prompt. -/
theorem text_partsOf (plan : Plan) (index : Nat) (step : Step) (repository : String) :
    (partsOf plan index step repository).text = ofStep plan (index + 1) step repository := by
  have plain (s : String) : toString s = s := rfl
  -- the line breaks within the fixed texts
  have goal : "\n\n" = "\n" ++ "\n" := rfl
  have place : "\n\nRepository: " = "\n" ++ ("\n" ++ "Repository: ") := rfl
  have kind : "\nStep type: " = "\n" ++ "Step type: " := rfl
  have task : "\n\n## Task\n\n" = "\n" ++ ("\n" ++ ("## Task" ++ ("\n" ++ "\n"))) := rfl
  unfold ofStep
  rw [paragraph_eq, paragraph_eq, contextSection_eq, Parts.text, Parts.lines]
  simp only [List.cons_append, List.nil_append]
  rw [Text.intercalate_newline]
  simp only [Text.continued_append, Text.continued_cons, Text.continued_nil, partsOf, plain, goal,
    place, kind, task, String.append_assoc, String.empty_append]
  rfl

end Prompt

namespace Plan

variable {plan : Plan} {index : Nat} {step : Step} {repository : String}

/-- There is a prompt for every step. -/
theorem prompt_of_getElem? (here : plan.steps[index]? = some step) (repository : String) :
    plan.prompt index repository = .ok (Prompt.partsOf plan index step repository).text := by
  rw [prompt, here, Prompt.text_partsOf]

/-- There is no prompt only where there is no step. -/
theorem exists_prompt_eq_error_iff :
    (∃ e, plan.prompt index repository = .error e) ↔ plan.steps.length ≤ index := by
  rw [← List.getElem?_eq_none_iff]
  cases here : plan.steps[index]? with
  | none => exact iff_of_true ⟨⟨index, plan.id⟩, by rw [prompt, here]⟩ rfl
  | some step =>
      refine iff_of_false ?_ (Option.some_ne_none step)
      rintro ⟨e, refused⟩
      cases (prompt_of_getElem? here repository).symm.trans refused

/-- **A prompt is the text with the lines of its parts.** There is one for every index of a step and
for no other, the values stand in it as they are, and plans with the same parts have the same
prompt. -/
theorem prompt_eq_text (plan : Plan) (index : Nat) (repository : String) :
    ((∃ e, plan.prompt index repository = .error e) ↔ plan.steps.length ≤ index) ∧
      (index < plan.steps.length → ∃ (step : Step) (parts : Prompt.Parts),
        parts.Of plan index step repository ∧ plan.prompt index repository = .ok parts.text ∧
          ∀ value ∈ parts.values, Text.Occurs value parts.text) ∧
      ∀ (other : Plan) (step otherStep : Step) (parts : Prompt.Parts),
        parts.Of plan index step repository → parts.Of other index otherStep repository →
          other.prompt index repository = plan.prompt index repository := by
  refine ⟨exists_prompt_eq_error_iff, fun inside => ?_, ?_⟩
  · have here : plan.steps[index]? = some plan.steps[index] := List.getElem?_eq_getElem inside
    exact ⟨_, _, Prompt.of_partsOf here, prompt_of_getElem? here repository,
      Prompt.Parts.occurs _⟩
  · intro other step otherStep parts mine theirs
    rw [prompt_of_getElem? mine.here, prompt_of_getElem? theirs.here, ← mine.eq_partsOf,
      ← theirs.eq_partsOf]

/-- Marks of a template, blanks and line breaks in the values, and hints that were put in against
the order of their keys. A plan with other blanks around the goal, another first step, and another
id and other input of this step has the same prompt. -/
theorem prompt_eq_text_of_marks :
    let input : StepInput :=
      ⟨"  Run \x7b% if x %\x7d\nand stop\t",
        .ofList [("zeta", "last"), ("alpha", "\x7b\x7b value \x7d\x7d")], .empty⟩
    let step : Step := ⟨"s", .codeChange, "Fill \x7b\x7b title \x7d\x7d ", " \n", input⟩
    let first (id : String) : Step := ⟨id, .review, "Look", "", ⟨"Look", .empty, .empty⟩⟩
    let plan : Plan := ⟨"plan", " Check\n", "\t", [first "a", step]⟩
    let alike : Step :=
      { step with id := "t", input := { input with extra := .ofList [("depth", .null)] } }
    let other : Plan := ⟨"other", "Check", "", [first "b", alike]⟩
    let text :=
      "# Step 2 of 2: Fill \x7b\x7b title \x7d\x7d \n\nPlan goal: Check\n\nRepository: .\n" ++
        "Step type: code_change\n\n## Task\n\nRun \x7b% if x %\x7d\nand stop\n\n" ++
        "## Context\n\n- alpha: \x7b\x7b value \x7d\x7d\n- zeta: last"
    1 < plan.steps.length ∧ plan.prompt 1 "." = .ok text ∧
      (∃ (step : Step) (parts : Prompt.Parts),
        parts.Of plan 1 step "." ∧ plan.prompt 1 "." = .ok parts.text ∧
          ∀ value ∈ parts.values, Text.Occurs value parts.text) ∧
      other.prompt 1 "." = plan.prompt 1 "." := by
  intro input step first plan alike other text
  obtain ⟨-, rendered, same⟩ := prompt_eq_text plan 1 "."
  have inside : 1 < plan.steps.length := by decide
  have mine : (Prompt.partsOf plan 1 step ".").Of plan 1 step "." := Prompt.of_partsOf rfl
  have goal : Text.trim other.goal = Text.trim plan.goal := by decide
  have purpose : Text.trim other.description = Text.trim plan.description := by decide
  have agree : Prompt.partsOf other 1 alike "." = Prompt.partsOf plan 1 step "." := by
    rw [Prompt.partsOf, Prompt.partsOf, goal, purpose]
    rfl
  have theirs : (Prompt.partsOf plan 1 step ".").Of other 1 alike "." := by
    rw [← agree]
    exact Prompt.of_partsOf rfl
  have filled : Prompt.ofStep plan 2 step "." = text := by decide +kernel
  have shown : plan.prompt 1 "." = .ok text := by
    rw [prompt_of_getElem? mine.here, Prompt.text_partsOf, filled]
  exact ⟨inside, shown, rendered inside, same other step alike _ mine theirs⟩

end Plan

end BudgetedRun
