import BudgetedRun.Plan.Text
import BudgetedRun.Proofs.Plan.Codec
import BudgetedRun.Proofs.Plan.Validity

/-!
# Which texts are plans

A text is a plan that can be run exactly if it holds a value that shows the plan and the ids keep
the rules (`Plan.parse_eq_ok_iff`). The check of shapes leaves nothing for the reading to refuse
(`Plan.shape_agrees_with_reading`). A plan is read back from what it is written as, unless it has
numbers that are not whole (`Plan.parse_compactText`).
-/

namespace BudgetedRun

open Json

namespace Plan

variable {p q : Plan} {v : Value} {raw : String}

/-- A plan is read from a value in order that shows it. -/
theorem IsShownBy.ofValue? (shown : p.IsShownBy v) (ordered : v.Ordered) : ofValue? v = some p :=
  shown.ofDocument?_ofValue ordered (Nat.le_refl _)

/-- A value shows one plan only. -/
theorem IsShownBy.unique (first : p.IsShownBy v) (second : q.IsShownBy v) (ordered : v.Ordered) :
    p = q :=
  Option.some.inj ((first.ofValue? ordered).symm.trans (second.ofValue? ordered))

/-- What becomes of a value: its shape is wrong, or it shows a plan and the rules on ids decide. -/
theorem check_cases (ordered : v.Ordered) :
    Schema.plan v ≠ [] ∧ check v = .error (.badShape (Schema.plan v)) ∨
      ∃ p : Plan, p.IsShownBy v ∧
        (p.validate = .ok () ∧ check v = .ok p ∨
          ∃ e, p.validate = .error e ∧ check v = .error (.invalid e)) := by
  rw [check]
  cases fine : Schema.plan v with
  | cons e errors => exact .inl ⟨List.cons_ne_nil e errors, rfl⟩
  | nil =>
      obtain ⟨p, shown⟩ := (Schema.plan_eq_nil_iff ordered).mp fine
      refine .inr ⟨p, shown, ?_⟩
      simp only [shown.ofValue? ordered]
      cases p.validate with
      | ok _ => exact .inl ⟨rfl, rfl⟩
      | error e => exact .inr ⟨e, rfl, rfl⟩

/-- A value is a plan that can be run if it shows one that keeps the rules on ids. -/
theorem check_eq_ok_iff (ordered : v.Ordered) :
    check v = .ok p ↔ p.IsShownBy v ∧ p.validate = .ok () := by
  rcases check_cases ordered with ⟨wrong, refused⟩ | ⟨q, shown, outcome⟩
  · rw [refused]
    refine ⟨fun accepted => ?_, fun accepted => ?_⟩
    · cases accepted
    · exact absurd ((Schema.plan_eq_nil_iff ordered).mpr ⟨p, accepted.1⟩) wrong
  · constructor
    · intro accepted
      rcases outcome with ⟨valid, read⟩ | ⟨e, _, refused⟩
      · rw [read] at accepted
        cases accepted
        exact ⟨shown, valid⟩
      · rw [refused] at accepted
        cases accepted
    · rintro ⟨other, valid⟩
      cases other.unique shown ordered
      rcases outcome with ⟨_, read⟩ | ⟨e, invalid, _⟩
      · exact read
      · rw [invalid] at valid
        cases valid

/-- A value whose shape is right is never refused by the reading. -/
theorem check_ne_unreadable (ordered : v.Ordered) : check v ≠ .error .unreadable := by
  rcases check_cases ordered with ⟨_, refused⟩ | ⟨p, _, ⟨_, read⟩ | ⟨e, _, refused⟩⟩
  · rw [refused]
    simp
  · rw [read]
    simp
  · rw [refused]
    simp

/-- What satisfies the schema of a plan can be read as a plan. -/
theorem parse_ne_unreadable : parse raw ≠ .error .unreadable := by
  rw [parse]
  cases read : Value.ofText? raw with
  | none => simp
  | some v => exact check_ne_unreadable (Value.ordered_of_ofText? read).1

/-- A text is accepted as a plan exactly if a value that shows the plan is read from it and the plan
is valid. -/
theorem parse_eq_ok_iff :
    parse raw = .ok p ↔
      ∃ v, Value.ofText? raw = some v ∧ p.IsShownBy v ∧ p.validate = .ok () := by
  rw [parse]
  cases read : Value.ofText? raw with
  | none =>
      refine ⟨fun accepted => ?_, fun accepted => ?_⟩
      · cases accepted
      · obtain ⟨v, read, _⟩ := accepted
        cases read
  | some v =>
      rw [check_eq_ok_iff (Value.ordered_of_ofText? read).1]
      simp only [Option.some.injEq, exists_eq_left']

/-- The shape and the reading of plans agree: a value that has the shape is read, so that no text is
refused for want of it, and a text is a plan that can be run exactly if it holds a value that shows
the plan, its ids are not blank and no two of its steps have the same one. That a text holds a value
is what `Value.ofText?` says: it reads JSON of at most 127 arrays and objects within each other,
with numbers that are in the range of binary64, and nothing else. -/
theorem shape_agrees_with_reading :
    (∀ v : Value, v.Ordered → Schema.plan v = [] → (Plan.ofValue? v).isSome = true) ∧
      (∀ raw, parse raw ≠ .error .unreadable) ∧
      ∀ (raw : String) (p : Plan), parse raw = .ok p ↔
        ∃ v, Value.ofText? raw = some v ∧ p.IsShownBy v ∧ Text.isAllBlank p.id = false ∧
          (∀ s ∈ p.steps, Text.isAllBlank s.id = false) ∧ (p.steps.map (·.id)).Nodup := by
  refine ⟨fun v ordered fine => ?_, fun raw => parse_ne_unreadable, fun raw p => ?_⟩
  · obtain ⟨p, shown⟩ := (Schema.plan_eq_nil_iff ordered).mp fine
    rw [shown.ofValue? ordered, Option.isSome_some]
  · rw [parse_eq_ok_iff]
    refine exists_congr fun v => and_congr_right fun _ => and_congr_right fun shown => ?_
    rw [validate_eq_ok_iff]
    exact and_congr_right fun _ => and_iff_right shown.nonempty

/-- A value that shows a plan of one step. -/
def single : Value :=
  .object
    [("goal", .string "Check"), ("id", .string "plan-1"),
      ("steps", .array
        [.object
          [("id", .string "step-1"),
            ("input", .object
              [("context", .object [("file", .string "a.txt")]), ("depth", .number (.natural 3)),
                ("prompt", .string "Look")]),
            ("title", .string "First"), ("type", .string "review")]])]

/-- A text of a plan in another order than that of its written form, with a member twice. -/
def unsorted : String :=
  "\x7b\"steps\": [\x7b\"type\": \"review\", \"title\": \"First\", \"input\": " ++
    "\x7b\"prompt\": \"Look\", \"more\": [\x7b\"b\": -1, \"a\": [3]\x7d], " ++
    "\"context\": \x7b\x7d\x7d, " ++
    "\"id\": \"s\"\x7d], \"id\": \"other\", \"goal\": \"Check\", \"id\": \"plan-1\"\x7d"

/-- A value that has the shape is read, and a text that is accepted holds a value that shows its
plan, whose steps have different ids. -/
theorem shape_agrees_with_reading_single :
    single.Ordered ∧ Schema.plan single = [] ∧ (Plan.ofValue? single).isSome = true ∧
      ∃ p v, parse unsorted = .ok p ∧ Value.ofText? unsorted = some v ∧ p.IsShownBy v ∧
        (p.steps.map (·.id)).Nodup := by
  have ordered : single.Ordered := by
    simp only [single, Value.Ordered, Value.OrderedItems, Value.OrderedMembers, Entries.Ascending]
    decide +kernel
  have fine : Schema.plan single = [] := rfl
  have accepts : (parse unsorted).toOption.isSome = true := by decide +kernel
  obtain ⟨complete, -, exact⟩ := shape_agrees_with_reading
  refine ⟨ordered, fine, complete single ordered fine, ?_⟩
  cases accepted : parse unsorted with
  | error e =>
      rw [accepted] at accepts
      cases accepts
  | ok p =>
      obtain ⟨v, read, shown, -, -, nodup⟩ := (exact unsorted p).mp accepted
      exact ⟨p, v, rfl, read, shown, nodup⟩

/-- A plan that was read is read back from what it is written as, if the numbers among its extra
members are whole ones. -/
theorem parse_compactText (accepted : parse raw = .ok p)
    (whole : ∀ s ∈ p.steps, ∀ m ∈ s.input.extra.entries, m.2.Whole) :
    parse p.compactText = .ok p := by
  obtain ⟨v, read, shown, valid⟩ := parse_eq_ok_iff.mp accepted
  obtain ⟨ordered, room⟩ := Value.ordered_of_ofText? read
  have levels := shown.levels_toJson_le room (by decide)
  refine parse_eq_ok_iff.mpr ⟨p.toJson.inOrder, ?_, shown.inOrder_toJson ordered, valid⟩
  rw [Value.ofText?, compactText, Document.parse?_compact (whole_toJson whole), Option.bind_some,
    Document.toValue?_ofValue _ _ levels]

/-- The plan of such a text, which is not its written form, is read back from that. -/
theorem parse_compactText_unsorted :
    ∃ p : Plan, parse unsorted = .ok p ∧
      (∀ s ∈ p.steps, ∀ m ∈ s.input.extra.entries, m.2.Whole) ∧ parse p.compactText = .ok p := by
  have whole : (parse unsorted).toOption.any fun p =>
      decide (∀ s ∈ p.steps, ∀ m ∈ s.input.extra.entries, m.2.Whole) := by
    decide +kernel
  cases accepted : parse unsorted with
  | error e =>
      rw [accepted] at whole
      cases whole
  | ok p =>
      rw [accepted] at whole
      have whole := of_decide_eq_true whole
      exact ⟨p, rfl, whole, parse_compactText accepted whole⟩

end Plan

end BudgetedRun
