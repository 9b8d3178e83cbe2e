import Mathlib.Data.List.Forall2
import BudgetedRun.Plan.Codec
import BudgetedRun.Plan.Schema
import BudgetedRun.Proofs.Json.Order

/-!
# Values that show plans

`Plan.IsShownBy` says member by member what a value holds that shows a plan. The check of shapes
finds nothing wrong with a value exactly if it shows some plan (`Schema.plan_eq_nil_iff`).
-/

namespace BudgetedRun

open Json

/-- The value has the text as a member, or the text is empty and the member is missing. -/
def ShowsText (v : Value) (name text : String) : Prop :=
  v.member? name = none ∧ text = "" ∨ v.member? name = some (.string text)

/-- The value has the prompt, strings as the context or none, and all other members as the extra
ones. -/
structure StepInput.IsShownBy (i : StepInput) (v : Value) : Prop where
  prompt : v.member? "prompt" = some (.string i.prompt)
  context :
    v.member? "context" = none ∧ i.context = Table.empty ∨
      v.member? "context" = some (.object (i.context.entries.map fun e => (e.1, .string e.2)))
  extra : ∀ name, i.extra.get? name = if name ∈ fieldNames then none else v.member? name

/-- The members of an input that are extra. -/
def StepInput.extraOf (members : List (String × Value)) : List (String × Value) :=
  members.filter fun m => m.1 ∉ fieldNames

/-- The extra members of an input are all but those of its fields. -/
theorem StepInput.find?_extraOf {name : String} {members : List (String × Value)} :
    Entries.find? name (extraOf members) =
      if name ∈ fieldNames then none else Entries.find? name members := by
  rw [extraOf, Entries.find?_filter (· ∉ fieldNames)]
  by_cases known : name ∈ fieldNames
  · rw [if_pos known, if_neg (mt of_decide_eq_true (not_not_intro known))]
  · rw [if_neg known, if_pos (decide_eq_true known)]

/-- The value has the parts of the step and no other members. -/
structure Step.IsShownBy (s : Step) (v : Value) : Prop where
  id : v.member? "id" = some (.string s.id)
  id_nonempty : s.id ≠ ""
  kind : v.member? "type" = some (.string s.kind.name)
  title : v.member? "title" = some (.string s.title)
  description : ShowsText v "description" s.description
  input : ∃ i, v.member? "input" = some i ∧ s.input.IsShownBy i
  only : ∀ name, v.member? name ≠ none →
    name ∈ ["id", "type", "title", "description", "input"]

/-- The value has the parts of the plan, with at least one step, and no other members. -/
structure Plan.IsShownBy (p : Plan) (v : Value) : Prop where
  id : v.member? "id" = some (.string p.id)
  id_nonempty : p.id ≠ ""
  goal : v.member? "goal" = some (.string p.goal)
  description : ShowsText v "description" p.description
  steps : ∃ steps, v.member? "steps" = some (.array steps) ∧
    List.Forall₂ Step.IsShownBy p.steps steps
  nonempty : p.steps ≠ []
  only : ∀ name, v.member? name ≠ none → name ∈ ["id", "goal", "description", "steps"]

namespace Schema

variable {v : Value} {item value : Check} {fields : List (String × Check)} {required : List String}

/-- Exactly the texts satisfy the schema of a text. -/
theorem text_eq_nil_iff : text v = [] ↔ ∃ s, v = .string s := by
  constructor
  · intro fine
    cases v with
    | string s => exact ⟨s, rfl⟩
    | _ => cases fine
  · rintro ⟨s, rfl⟩
    rfl

/-- Exactly the texts that are not empty satisfy the schema of such a text. -/
theorem nonEmptyText_eq_nil_iff : nonEmptyText v = [] ↔ ∃ s, v = .string s ∧ s ≠ "" := by
  constructor
  · intro fine
    cases v with
    | string s =>
        refine ⟨s, rfl, fun empty => ?_⟩
        rw [nonEmptyText, if_pos empty] at fine
        cases fine
    | _ => cases fine
  · rintro ⟨s, rfl, nonempty⟩
    exact if_neg nonempty

/-- Exactly the names of the kinds of steps satisfy the schema of a kind. -/
theorem kind_eq_nil_iff : kind v = [] ↔ ∃ k : StepKind, v = .string k.name := by
  constructor
  · intro fine
    cases v with
    | string s =>
        rw [kind] at fine
        split at fine
        · rename_i known
          obtain ⟨k, _, rfl⟩ := List.mem_map.mp known
          exact ⟨k, rfl⟩
        · cases fine
    | _ => cases fine
  · rintro ⟨k, rfl⟩
    cases k <;> rfl

/-- A list satisfies its schema exactly if it is not empty and all its items satisfy theirs. -/
theorem nonEmptyList_eq_nil_iff :
    nonEmptyList item v = [] ↔ ∃ vs, v = .array vs ∧ vs ≠ [] ∧ ∀ u ∈ vs, item u = [] := by
  constructor
  · intro fine
    cases v with
    | array vs =>
        cases vs with
        | nil => cases fine
        | cons u us =>
            exact ⟨u :: us, rfl, List.cons_ne_nil u us, List.flatMap_eq_nil_iff.mp fine⟩
    | _ => cases fine
  · rintro ⟨vs, rfl, nonempty, each⟩
    cases vs with
    | nil => exact absurd rfl nonempty
    | cons u us => exact List.flatMap_eq_nil_iff.mpr each

/-- A map satisfies its schema exactly if all its values satisfy theirs. -/
theorem mapOf_eq_nil_iff :
    mapOf value v = [] ↔ ∃ ms, v = .object ms ∧ ∀ m ∈ ms, value m.2 = [] := by
  constructor
  · intro fine
    cases v with
    | object ms => exact ⟨ms, rfl, List.flatMap_eq_nil_iff.mp fine⟩
    | _ => cases fine
  · rintro ⟨ms, rfl, each⟩
    exact List.flatMap_eq_nil_iff.mpr each

/-- Nothing is wrong with the members that have a check if nothing is wrong with each of them. -/
theorem memberErrors_eq_nil_iff {members : List (String × Value)}
    (ascending : Entries.Ascending members) (distinct : (fields.map (·.1)).Nodup) :
    memberErrors fields members = [] ↔
      ∀ f ∈ fields, ∀ u, Entries.find? f.1 members = some u → f.2 u = [] := by
  rw [memberErrors, List.flatMap_eq_nil_iff]
  constructor
  · intro fine f declared u found
    have fine := fine _ (Entries.mem_of_find? found)
    rwa [Entries.find?_of_mem distinct declared] at fine
  · intro fine m member
    cases checked : Entries.find? m.1 fields with
    | none => rfl
    | some check =>
        exact fine _ (Entries.mem_of_find? checked) m.2
          (Entries.find?_of_mem ascending.nodup member)

/-- Nothing is lacking exactly if every member that is required is there. -/
theorem lacking_eq_nil_iff {members : List (String × Value)} :
    lacking required members = [] ↔ ∀ name ∈ required, Entries.find? name members ≠ none := by
  simp only [lacking, List.filter_eq_nil_iff, Option.isNone_iff_eq_none, ne_eq]

/-- Nothing is wrong with an open record if nothing is wrong with its checked members and none of
the required ones is missing. -/
theorem openRecord_eq_nil_iff (ordered : v.Ordered) (distinct : (fields.map (·.1)).Nodup)
    (needed : required ≠ []) :
    openRecord fields required v = [] ↔
      (∀ f ∈ fields, ∀ u, v.member? f.1 = some u → f.2 u = []) ∧
        ∀ name ∈ required, v.member? name ≠ none := by
  cases v with
  | object members =>
      rw [openRecord, List.append_eq_nil_iff, List.map_eq_nil_iff, lacking_eq_nil_iff,
        memberErrors_eq_nil_iff ordered.1 distinct]
      rfl
  | _ =>
      obtain ⟨name, member⟩ := List.exists_mem_of_ne_nil _ needed
      refine ⟨fun fine => ?_, fun fine => absurd rfl (fine.2 name member)⟩
      cases fine

/-- Nothing is wrong with a closed record if it is fine as an open one and has no other members. -/
theorem closedRecord_eq_nil_iff (ordered : v.Ordered) (distinct : (fields.map (·.1)).Nodup)
    (needed : required ≠ []) :
    closedRecord fields required v = [] ↔
      ((∀ f ∈ fields, ∀ u, v.member? f.1 = some u → f.2 u = []) ∧
        ∀ name ∈ required, v.member? name ≠ none) ∧
        ∀ name, v.member? name ≠ none → name ∈ fields.map (·.1) := by
  rw [← openRecord_eq_nil_iff ordered distinct needed]
  cases v with
  | object members =>
      have known : others fields members = [] ↔
          ∀ name, (Value.object members).member? name ≠ none → name ∈ fields.map (·.1) := by
        rw [others, List.map_eq_nil_iff, List.filter_eq_nil_iff]
        simp only [Option.isNone_iff_eq_none, ← ne_eq, ← Entries.mem_map_key, Value.member?]
        exact (List.forall_mem_map (P := fun name => name ∈ fields.map (·.1))).symm
      rw [← known, closedRecord, openRecord]
      cases others fields members with
      | nil => simp only [List.append_nil, and_true]
      | cons name names => simp only [List.append_eq_nil_iff, reduceCtorEq, and_false, false_and]
  | _ =>
      refine ⟨fun fine => ?_, fun fine => ?_⟩
      · cases fine
      · cases fine.1

/-- Members that are all strings are strings under names. -/
theorem exists_eq_map_string {members : List (String × Value)}
    (each : ∀ m ∈ members, text m.2 = []) :
    ∃ entries : Entries String, members = entries.map fun e => (e.1, .string e.2) := by
  induction members with
  | nil => exact ⟨[], rfl⟩
  | cons m ms ih =>
      obtain ⟨name, u⟩ := m
      obtain ⟨first, others⟩ := List.forall_mem_cons.mp each
      obtain ⟨s, rfl⟩ := text_eq_nil_iff.mp first
      obtain ⟨entries, rfl⟩ := ih others
      exact ⟨(name, s) :: entries, rfl⟩

/-- A member that is a text, or absent, shows a text. -/
theorem exists_showsText {name : String} (fine : ∀ u, v.member? name = some u → text u = []) :
    ∃ s, ShowsText v name s := by
  cases found : v.member? name with
  | none => exact ⟨"", .inl ⟨found, rfl⟩⟩
  | some u =>
      obtain ⟨s, rfl⟩ := text_eq_nil_iff.mp (fine u found)
      exact ⟨s, .inr found⟩

/-- A member that shows a text is a text. -/
theorem text_of_showsText {name s : String} {u : Value} (shown : ShowsText v name s)
    (found : v.member? name = some u) : text u = [] := by
  rcases shown with ⟨missing, _⟩ | present
  · rw [missing] at found
    cases found
  · rw [present] at found
    cases found
    rfl

/-- A required member is there and nothing is wrong with it. -/
theorem exists_member {name : String} {check : Check} (present : v.member? name ≠ none)
    (fine : ∀ u, v.member? name = some u → check u = []) :
    ∃ u, v.member? name = some u ∧ check u = [] := by
  obtain ⟨u, found⟩ := Option.ne_none_iff_exists'.mp present
  exact ⟨u, found, fine u found⟩

/-- What is wrong with a member that is known is what is wrong with its value. -/
theorem fine_of_found {name : String} {check : Check} {u w : Value}
    (known : v.member? name = some w) (fine : check w = []) (found : v.member? name = some u) :
    check u = [] := by
  rw [known] at found
  cases found
  exact fine

/-- A value that is fine as an input shows one. -/
theorem input_eq_nil_iff (ordered : v.Ordered) : input v = [] ↔ ∃ i : StepInput, i.IsShownBy v := by
  rw [input, openRecord_eq_nil_iff ordered (by simp) (by simp)]
  simp only [List.forall_mem_cons, List.not_mem_nil, false_imp_iff, implies_true, and_true]
  constructor
  · rintro ⟨⟨promptFine, contextFine⟩, present⟩
    obtain ⟨u, found, fine⟩ := exists_member present promptFine
    obtain ⟨members, rfl, _⟩ := Value.exists_eq_object found
    obtain ⟨prompt, rfl⟩ := text_eq_nil_iff.mp fine
    let extra : Table Value := ⟨StepInput.extraOf members, ordered.1.filter _⟩
    have kept : ∀ name, extra.get? name = if name ∈ StepInput.fieldNames then none
        else (Value.object members).member? name := fun _ => StepInput.find?_extraOf
    cases hints : (Value.object members).member? "context" with
    | none => exact ⟨⟨prompt, Table.empty, extra⟩, found, .inl ⟨hints, rfl⟩, kept⟩
    | some u =>
        obtain ⟨ms, rfl, each⟩ := mapOf_eq_nil_iff.mp (contextFine u hints)
        obtain ⟨entries, rfl⟩ := exists_eq_map_string each
        have ascending : entries.Ascending := Entries.ascending_map_iff.mp (ordered.member hints).1
        exact ⟨⟨prompt, ⟨entries, ascending⟩, extra⟩, found, .inr hints, kept⟩
  · rintro ⟨i, shown⟩
    refine ⟨⟨fun _ => fine_of_found shown.prompt rfl, ?_⟩, ?_⟩
    · intro u found
      rcases shown.context with ⟨missing, _⟩ | present
      · rw [missing] at found
        cases found
      · refine fine_of_found present (mapOf_eq_nil_iff.mpr ⟨_, rfl, ?_⟩) found
        exact List.forall_mem_map.mpr fun _ _ => rfl
    · rw [shown.prompt]
      exact Option.some_ne_none _

/-- A value that is fine as a step shows one. -/
theorem step_eq_nil_iff (ordered : v.Ordered) : step v = [] ↔ ∃ s : Step, s.IsShownBy v := by
  rw [step, closedRecord_eq_nil_iff ordered (by simp) (by simp)]
  simp only [List.forall_mem_cons, List.not_mem_nil, false_imp_iff, implies_true, and_true]
  constructor
  · rintro ⟨⟨⟨idFine, kindFine, titleFine, descriptionFine, inputFine⟩, idPresent, kindPresent,
      titlePresent, inputPresent⟩, only⟩
    obtain ⟨u, idFound, fine⟩ := exists_member idPresent idFine
    obtain ⟨id, rfl, nonempty⟩ := nonEmptyText_eq_nil_iff.mp fine
    obtain ⟨u, kindFound, fine⟩ := exists_member kindPresent kindFine
    obtain ⟨kind, rfl⟩ := kind_eq_nil_iff.mp fine
    obtain ⟨u, titleFound, fine⟩ := exists_member titlePresent titleFine
    obtain ⟨title, rfl⟩ := text_eq_nil_iff.mp fine
    obtain ⟨description, shown⟩ := exists_showsText descriptionFine
    obtain ⟨u, inputFound, fine⟩ := exists_member inputPresent inputFine
    obtain ⟨input, inputShown⟩ := (input_eq_nil_iff (ordered.member inputFound)).mp fine
    exact ⟨⟨id, kind, title, description, input⟩,
      { id := idFound, id_nonempty := nonempty, kind := kindFound, title := titleFound,
        description := shown, input := ⟨u, inputFound, inputShown⟩, only := only }⟩
  · rintro ⟨s, shown⟩
    obtain ⟨i, inputFound, inputShown⟩ := shown.input
    have inputFine := (input_eq_nil_iff (ordered.member inputFound)).mpr ⟨_, inputShown⟩
    refine ⟨⟨⟨?_, ?_, ?_, ?_, ?_⟩, ?_, ?_, ?_, ?_⟩, shown.only⟩
    · exact fun _ =>
        fine_of_found shown.id (nonEmptyText_eq_nil_iff.mpr ⟨_, rfl, shown.id_nonempty⟩)
    · exact fun _ => fine_of_found shown.kind (kind_eq_nil_iff.mpr ⟨_, rfl⟩)
    · exact fun _ => fine_of_found shown.title rfl
    · exact fun _ => text_of_showsText shown.description
    · exact fun _ => fine_of_found inputFound inputFine
    · exact shown.id ▸ Option.some_ne_none _
    · exact shown.kind ▸ Option.some_ne_none _
    · exact shown.title ▸ Option.some_ne_none _
    · exact inputFound ▸ Option.some_ne_none _

/-- Values that are fine as steps show steps. -/
theorem forall_step_eq_nil_iff {vs : List Value} (ordered : ∀ v ∈ vs, v.Ordered) :
    (∀ v ∈ vs, step v = []) ↔ ∃ steps : List Step, List.Forall₂ Step.IsShownBy steps vs := by
  induction vs with
  | nil => exact ⟨fun _ => ⟨[], .nil⟩, fun _ => List.forall_mem_nil _⟩
  | cons v vs ih =>
      obtain ⟨first, others⟩ := List.forall_mem_cons.mp ordered
      rw [List.forall_mem_cons, step_eq_nil_iff first, ih others]
      constructor
      · rintro ⟨⟨s, shown⟩, steps, othersShown⟩
        exact ⟨s :: steps, .cons shown othersShown⟩
      · rintro ⟨_, _ | ⟨shown, othersShown⟩⟩
        exact ⟨⟨_, shown⟩, _, othersShown⟩

/-- A value that is fine as a plan shows one. -/
theorem plan_eq_nil_iff (ordered : v.Ordered) : plan v = [] ↔ ∃ p : Plan, p.IsShownBy v := by
  rw [plan, closedRecord_eq_nil_iff ordered (by simp) (by simp)]
  simp only [List.forall_mem_cons, List.not_mem_nil, false_imp_iff, implies_true, and_true]
  constructor
  · rintro ⟨⟨⟨idFine, goalFine, descriptionFine, stepsFine⟩, idPresent, goalPresent,
      stepsPresent⟩, only⟩
    obtain ⟨u, idFound, fine⟩ := exists_member idPresent idFine
    obtain ⟨id, rfl, id_nonempty⟩ := nonEmptyText_eq_nil_iff.mp fine
    obtain ⟨u, goalFound, fine⟩ := exists_member goalPresent goalFine
    obtain ⟨goal, rfl⟩ := text_eq_nil_iff.mp fine
    obtain ⟨description, shown⟩ := exists_showsText descriptionFine
    obtain ⟨u, stepsFound, fine⟩ := exists_member stepsPresent stepsFine
    obtain ⟨vs, rfl, nonempty, each⟩ := nonEmptyList_eq_nil_iff.mp fine
    have itemsOrdered := Value.orderedItems_iff.mp (ordered.member stepsFound)
    obtain ⟨steps, stepsShown⟩ := (forall_step_eq_nil_iff itemsOrdered).mp each
    have steps_nonempty : steps ≠ [] := by
      rintro rfl
      exact nonempty (List.forall₂_nil_left_iff.mp stepsShown)
    exact ⟨⟨id, goal, description, steps⟩,
      { id := idFound, id_nonempty, goal := goalFound, description := shown,
        steps := ⟨vs, stepsFound, stepsShown⟩, nonempty := steps_nonempty, only := only }⟩
  · rintro ⟨p, shown⟩
    obtain ⟨vs, stepsFound, stepsShown⟩ := shown.steps
    have itemsOrdered := Value.orderedItems_iff.mp (ordered.member stepsFound)
    have nonempty : vs ≠ [] := by
      rintro rfl
      exact shown.nonempty (List.forall₂_nil_right_iff.mp stepsShown)
    have stepsFine := nonEmptyList_eq_nil_iff.mpr
      ⟨vs, rfl, nonempty, (forall_step_eq_nil_iff itemsOrdered).mpr ⟨_, stepsShown⟩⟩
    refine ⟨⟨⟨?_, ?_, ?_, ?_⟩, ?_, ?_, ?_⟩, shown.only⟩
    · exact fun _ =>
        fine_of_found shown.id (nonEmptyText_eq_nil_iff.mpr ⟨_, rfl, shown.id_nonempty⟩)
    · exact fun _ => fine_of_found shown.goal rfl
    · exact fun _ => text_of_showsText shown.description
    · exact fun _ => fine_of_found stepsFound stepsFine
    · exact shown.id ▸ Option.some_ne_none _
    · exact shown.goal ▸ Option.some_ne_none _
    · exact stepsFound ▸ Option.some_ne_none _

end Schema

end BudgetedRun
