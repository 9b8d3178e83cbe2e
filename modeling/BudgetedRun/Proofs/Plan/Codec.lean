import BudgetedRun.Proofs.Json.Record
import BudgetedRun.Proofs.Plan.Schema
import BudgetedRun.Proofs.Run.Snapshot

/-!
# Reading plans from values

A plan is read from every value that shows it (`Plan.ofDocument?_ofValue`), and what it is written
as shows it again once it is in order (`Plan.isShownBy_inOrder_toJson`).
-/

namespace BudgetedRun

open Json

variable {n : Nat} {v : Value}

/-- Text that may be missing is read from a value that shows it. -/
theorem ShowsText.read {members : List (String × Value)} {names : List String} {name text : String}
    (known : name ∈ names) (shown : ShowsText (.object members) name text) :
    (Document.fieldsOf (Document.among names members)).withDefault name "" Document.string? =
      some text := by
  rw [Document.withDefault_among "" known]
  rcases shown with ⟨missing, rfl⟩ | present
  · rw [missing]
  · rw [present]
    rfl

namespace StepKind

/-- A kind of step is read back from its name. -/
theorem ofDocument?_name (k : StepKind) :
    ofDocument? (Document.ofValue (.string k.name)) = some k := by
  apply named?_name
  · cases k <;> decide
  · intro a b same
    cases a <;> cases b <;> first | rfl | exact absurd same (by decide)

end StepKind

namespace StepInput

variable {i : StepInput}

/-- A table of texts is read back from its members. -/
theorem strings?_ofValue (t : Table String) :
    Document.strings? (Document.ofValue (.object (t.entries.map fun e => (e.1, .string e.2)))) =
      some t := by
  have each (entries : Entries String) :
      (Document.ofMembers (entries.map fun e => (e.1, .string e.2))).mapM Document.stringMember? =
        some entries := by
    induction entries with
    | nil => rfl
    | cons e entries ih =>
        rw [List.map_cons, Document.ofMembers, List.mapM_cons, ih]
        rfl
  rw [Document.ofValue, Document.strings?, each, Option.map_some, Table.ofList_eq t.ascending]

/-- The members that have no field are the extra ones. -/
theorem filter_ofMembers (members : List (String × Value)) :
    ((Document.ofMembers members).filter fun m => m.1.all (· ∉ fieldNames)) =
      Document.ofMembers (extraOf members) := by
  induction members with
  | nil => rfl
  | cons m ms ih =>
      obtain ⟨name, v⟩ := m
      rw [Document.ofMembers, List.filter_cons, ih, extraOf, extraOf, List.filter_cons]
      simp only [Option.all_some]
      split <;> rfl

/-- The extra members are those of a value in order. -/
theorem extra?_ofMembers {members : List (String × Value)}
    (ordered : (Value.object members).Ordered) (room : (Value.object members).levels ≤ n) :
    extra? (n - 1) (Document.ofMembers members) = some (extraOf members) := by
  have among : ∀ m ∈ extraOf members, m ∈ members := fun _ => List.mem_of_mem_filter
  have extraOrdered : Value.OrderedMembers (extraOf members) :=
    Value.orderedMembers_iff.mpr fun m member =>
      Value.orderedMembers_iff.mp ordered.2 m (among m member)
  have extraRoom : Value.memberLevels (extraOf members) ≤ n - 1 :=
    Value.memberLevels_le_iff.mpr fun m member =>
      Value.memberLevels_le_iff.mp (Nat.le_sub_one_of_lt room) m (among m member)
  rw [extra?, filter_ofMembers, Document.toMembers?_ofMembers _ _ extraRoom,
    Value.inOrderMembers_eq _ extraOrdered]

/-- An input is read from a value that shows it. -/
theorem IsShownBy.ofDocument?_ofValue (shown : i.IsShownBy v) (ordered : v.Ordered)
    (room : v.levels ≤ n) :
    ofDocument? n (Document.ofValue v) = some i := by
  obtain ⟨members, rfl, _⟩ := Value.exists_eq_object shown.prompt
  have context : (Document.fieldsOf (Document.among fieldNames members)).withDefault "context"
      Table.empty Document.strings? = some i.context := by
    rw [Document.withDefault_among _ (by decide)]
    rcases shown.context with ⟨missing, empty⟩ | present
    · rw [missing, empty]
    · rw [present]
      exact strings?_ofValue i.context
  have extra : Table.ofList (extraOf members) = i.extra := by
    have ascending : Entries.Ascending (extraOf members) := ordered.1.filter _
    rw [Table.ofList_eq ascending]
    exact Table.ext_get? fun name => find?_extraOf.trans (shown.extra name).symm
  rw [Document.ofValue, ofDocument?, Document.known?_ofMembers ordered.1.nodup,
    extra?_ofMembers ordered room]
  simp only [Option.bind_eq_bind, Option.bind_some]
  rw [Document.required_among (by decide), shown.prompt, context, extra]
  rfl

/-- The written context: nothing if it has no entries. -/
def hints (i : StepInput) : List (String × Value) :=
  if i.context.entries.isEmpty then []
  else [("context", .object (i.context.entries.map fun e => (e.1, .string e.2)))]

/-- The members of an input are its prompt, its context and the extra ones. -/
theorem toJson_eq (i : StepInput) :
    i.toJson = .object (("prompt", .string i.prompt) :: (i.hints ++ i.extra.entries)) := rfl

/-- An input without context has no member for it. -/
theorem hints_cases (i : StepInput) :
    i.hints = [] ∧ i.context = Table.empty ∨
      i.hints = [("context", .object (i.context.entries.map fun e => (e.1, .string e.2)))] := by
  rw [hints]
  split
  · rename_i empty
    exact .inl ⟨rfl, Table.ext (List.isEmpty_iff.mp empty)⟩
  · exact .inr rfl

/-- No extra member of an input has the name of a field. -/
theorem IsShownBy.extra_eq_none {name : String} (shown : i.IsShownBy v)
    (known : name ∈ fieldNames) :
    Entries.find? name i.extra.entries = none :=
  (shown.extra name).trans (if_pos known)

/-- The extra members of an input are members of the value that shows it. -/
theorem IsShownBy.member_of_extra {m : String × Value} (shown : i.IsShownBy v)
    (member : m ∈ i.extra.entries) : v.member? m.1 = some m.2 := by
  have found := shown.extra m.1
  rw [Table.get?, i.extra.ascending.find?_eq_some_iff.mpr member] at found
  split at found
  · cases found
  · exact found.symm

/-- The members of an input have different names. -/
theorem IsShownBy.distinct (shown : i.IsShownBy v) :
    ((("prompt", Value.string i.prompt) :: (i.hints ++ i.extra.entries)).map (·.1)).Nodup := by
  have prompt : "prompt" ∉ i.extra.entries.map (·.1) :=
    Entries.find?_eq_none_iff.mp (shown.extra_eq_none (by decide))
  have context : "context" ∉ i.extra.entries.map (·.1) :=
    Entries.find?_eq_none_iff.mp (shown.extra_eq_none (by decide))
  have extra := i.extra.ascending.nodup
  rcases i.hints_cases with ⟨hints, _⟩ | hints
  · rw [hints]
    exact List.nodup_cons.mpr ⟨prompt, extra⟩
  · rw [hints]
    refine List.nodup_cons.mpr ⟨?_, List.nodup_cons.mpr ⟨context, extra⟩⟩
    intro member
    have different : "prompt" ≠ "context" := by decide
    exact (List.mem_cons.mp member).elim different prompt

/-- The members of a context are in order. -/
theorem ordered_context (t : Table String) :
    (Value.object (t.entries.map fun e => (e.1, .string e.2))).Ordered := by
  refine ⟨Entries.ascending_map_iff.mpr t.ascending, Value.orderedMembers_iff.mpr ?_⟩
  exact List.forall_mem_map.mpr fun _ _ => trivial

/-- What an input is written as shows it again. -/
theorem IsShownBy.inOrder_toJson (shown : i.IsShownBy v) (ordered : v.Ordered) :
    i.IsShownBy i.toJson.inOrder := by
  have extra : ∀ name, (i.extra.get? name).map Value.inOrder = i.extra.get? name := by
    intro name
    cases found : i.extra.get? name with
    | none => rfl
    | some u =>
        have member := shown.member_of_extra (Entries.mem_of_find? found)
        rw [Option.map_some, Value.inOrder_eq u (ordered.member member)]
  have member (name : String) : i.toJson.inOrder.member? name =
      (Entries.find? name (("prompt", .string i.prompt) :: (i.hints ++ i.extra.entries))).map
        Value.inOrder := by
    rw [toJson_eq, Value.member?_inOrder shown.distinct, Value.member?]
  constructor
  · rw [member]
    rfl
  · rw [member, Entries.find?, if_neg (by decide), Entries.find?_append,
      shown.extra_eq_none (by decide), Option.or_none]
    rcases i.hints_cases with ⟨hints, empty⟩ | hints
    · rw [hints]
      exact .inl ⟨rfl, empty⟩
    · rw [hints]
      exact .inr (congrArg some (Value.inOrder_eq _ (ordered_context i.context)))
  · intro name
    rw [member]
    by_cases known : name ∈ fieldNames
    · rw [if_pos known]
      exact shown.extra_eq_none known
    · obtain ⟨prompt, context⟩ : name ≠ "prompt" ∧ name ≠ "context" := by
        rwa [fieldNames, List.mem_cons, List.mem_singleton, not_or] at known
      have hints : Entries.find? name i.hints = none := by
        rcases i.hints_cases with ⟨hints, _⟩ | hints
        · rw [hints, Entries.find?]
        · rw [hints, Entries.find?, if_neg context, Entries.find?]
      rw [if_neg known, Entries.find?, if_neg prompt, Entries.find?_append, hints, Option.none_or]
      exact (extra name).symm

/-- An input is written with no more levels than those of a value that shows it, or with two. -/
theorem IsShownBy.levels_toJson_le (shown : i.IsShownBy v) (room : v.levels ≤ n) (two : 2 ≤ n) :
    i.toJson.levels ≤ n := by
  have below : Value.memberLevels (("prompt", .string i.prompt) :: (i.hints ++ i.extra.entries)) ≤
      n - 1 := by
    refine Value.memberLevels_le_iff.mpr (List.forall_mem_cons.mpr ⟨Nat.zero_le _, ?_⟩)
    refine List.forall_mem_append.mpr ⟨?_, ?_⟩
    · have flat : Value.memberLevels (i.context.entries.map fun e => (e.1, .string e.2)) ≤ 0 :=
        Value.memberLevels_le_iff.mpr (List.forall_mem_map.mpr fun _ _ => Nat.le_refl 0)
      rcases i.hints_cases with ⟨hints, _⟩ | hints
      · rw [hints]
        exact List.forall_mem_nil _
      · rw [hints]
        refine List.forall_mem_singleton.mpr ?_
        exact Nat.le_trans (Nat.succ_le_succ flat) (Nat.le_sub_one_of_lt two)
    · intro m member
      have deeper := Value.levels_lt_of_member? (shown.member_of_extra member)
      exact Nat.le_sub_one_of_lt (Nat.lt_of_lt_of_le deeper room)
  rw [toJson_eq, Value.levels]
  omega

/-- An input is written without fractions if its extra members are. -/
theorem whole_toJson (whole : ∀ m ∈ i.extra.entries, m.2.Whole) : i.toJson.Whole := by
  rw [toJson_eq]
  refine ⟨trivial, Value.wholeMembers_of_forall (List.forall_mem_append.mpr ⟨?_, whole⟩)⟩
  rcases i.hints_cases with ⟨hints, _⟩ | hints
  · rw [hints]
    exact List.forall_mem_nil _
  · rw [hints]
    refine List.forall_mem_singleton.mpr (Value.wholeMembers_of_forall ?_)
    exact List.forall_mem_map.mpr fun _ _ => trivial

end StepInput

namespace Step

variable {s : Step}

/-- A step is read from a value that shows it. -/
theorem IsShownBy.ofDocument?_ofValue (shown : s.IsShownBy v) (ordered : v.Ordered)
    (room : v.levels ≤ n) :
    ofDocument? n (Document.ofValue v) = some s := by
  obtain ⟨members, rfl, _⟩ := Value.exists_eq_object shown.id
  obtain ⟨i, found, inputShown⟩ := shown.input
  have below : i.levels ≤ n - 1 :=
    Nat.le_sub_one_of_lt (Nat.lt_of_lt_of_le (Value.levels_lt_of_member? found) room)
  have input := inputShown.ofDocument?_ofValue (ordered.member found) below
  rw [ofDocument?, Document.record?_ofValue ordered.1.nodup]
  simp only [Option.bind_eq_bind, Option.bind_some]
  rw [Document.required_among (by decide), Document.required_among (by decide),
    Document.required_among (by decide), Document.required_among (by decide),
    shown.id, shown.kind, shown.title, found, shown.description.read (by decide)]
  simp only [Option.bind_some, Document.string?_string, s.kind.ofDocument?_name, input]

/-- The members of a step as it is written. -/
def written (s : Step) : List (String × Value) :=
  [("id", .string s.id), ("type", s.kind.toJson), ("title", .string s.title),
    ("description", .string s.description), ("input", s.input.toJson)]

theorem toJson_eq (s : Step) : s.toJson = .object s.written := rfl

/-- A member of a step is written under its name. -/
theorem member?_inOrder_toJson (s : Step) (name : String) :
    s.toJson.inOrder.member? name = (Entries.find? name s.written).map Value.inOrder := by
  have distinct : (s.written.map (·.1)).Nodup := by simp [written]
  rw [toJson_eq, Value.member?_inOrder distinct, Value.member?]

/-- What a step is written as shows it again. -/
theorem IsShownBy.inOrder_toJson (shown : s.IsShownBy v) (ordered : v.Ordered) :
    s.IsShownBy s.toJson.inOrder := by
  obtain ⟨i, found, inputShown⟩ := shown.input
  refine
    { id := s.member?_inOrder_toJson "id", id_nonempty := shown.id_nonempty,
      kind := s.member?_inOrder_toJson "type", title := s.member?_inOrder_toJson "title",
      description := .inr (s.member?_inOrder_toJson "description"),
      input := ⟨_, s.member?_inOrder_toJson "input",
        inputShown.inOrder_toJson (ordered.member found)⟩,
      only := ?_ }
  intro name present
  rw [member?_inOrder_toJson, ne_eq, Option.map_eq_none_iff] at present
  exact Entries.mem_map_key.mpr present

/-- A step is not nested deeper than the value that shows it. -/
theorem IsShownBy.levels_toJson_le (shown : s.IsShownBy v) (room : v.levels ≤ n) (three : 3 ≤ n) :
    s.toJson.levels ≤ n := by
  obtain ⟨i, found, inputShown⟩ := shown.input
  have deeper := Value.levels_lt_of_member? found
  have input := inputShown.levels_toJson_le (n := n - 1) (by omega) (by omega)
  have below : Value.memberLevels s.written ≤ n - 1 :=
    Value.memberLevels_le_iff.mpr (by simp [written, Value.levels, StepKind.toJson, input])
  rw [toJson_eq, Value.levels]
  omega

theorem whole_toJson (whole : ∀ m ∈ s.input.extra.entries, m.2.Whole) : s.toJson.Whole :=
  ⟨trivial, trivial, trivial, trivial, StepInput.whole_toJson whole, trivial⟩

end Step

namespace Plan

variable {p : Plan}

/-- A plan is read from a value that shows it. -/
theorem IsShownBy.ofDocument?_ofValue (shown : p.IsShownBy v) (ordered : v.Ordered)
    (room : v.levels ≤ n) : ofDocument? n (Document.ofValue v) = some p := by
  obtain ⟨members, rfl, _⟩ := Value.exists_eq_object shown.id
  obtain ⟨vs, found, stepsShown⟩ := shown.steps
  have below : Value.itemLevels vs ≤ n - 2 := by
    have deeper := Value.levels_lt_of_member? found
    rw [Value.levels] at deeper
    omega
  have itemsOrdered := Value.orderedItems_iff.mp (ordered.member found)
  have steps : Document.list? (Step.ofDocument? (n - 2)) (Document.ofValue (.array vs)) =
      some p.steps := by
    refine Document.list?_of_forall₂ (List.forall₂_iff_zip.mpr ⟨stepsShown.length_eq, ?_⟩)
    intro s v paired
    have member := (List.of_mem_zip paired).2
    exact (List.forall₂_zip stepsShown paired).ofDocument?_ofValue (itemsOrdered v member)
      (Value.itemLevels_le_iff.mp below v member)
  rw [ofDocument?, Document.record?_ofValue ordered.1.nodup]
  simp only [Option.bind_eq_bind, Option.bind_some]
  rw [Document.required_among (by decide), Document.required_among (by decide),
    Document.required_among (by decide), shown.id, shown.goal, found,
    shown.description.read (by decide)]
  simp only [Option.bind_some, Document.string?_string, steps]

/-- The members of a plan as it is written. -/
def written (p : Plan) : List (String × Value) :=
  [("id", .string p.id), ("goal", .string p.goal), ("description", .string p.description),
    ("steps", .array (p.steps.map Step.toJson))]

theorem toJson_eq (p : Plan) : p.toJson = .object p.written := rfl

/-- A member of a plan is written under its name. -/
theorem member?_inOrder_toJson (p : Plan) (name : String) :
    p.toJson.inOrder.member? name = (Entries.find? name p.written).map Value.inOrder := by
  have distinct : (p.written.map (·.1)).Nodup := by simp [written]
  rw [toJson_eq, Value.member?_inOrder distinct, Value.member?]

/-- What holds of every step that a value in a list shows holds of all steps that the list shows. -/
theorem forall_steps {Q : Step → Prop} {steps : List Step} {vs : List Value}
    (shown : List.Forall₂ Step.IsShownBy steps vs)
    (each : ∀ s v, s.IsShownBy v → v ∈ vs → Q s) : ∀ s ∈ steps, Q s := by
  induction shown with
  | nil => exact List.forall_mem_nil _
  | cons first _ ih =>
      refine List.forall_mem_cons.mpr ⟨each _ _ first List.mem_cons_self, ih ?_⟩
      exact fun s v shown member => each s v shown (List.mem_cons_of_mem _ member)

/-- What a plan is written as shows it again. -/
theorem IsShownBy.inOrder_toJson (shown : p.IsShownBy v) (ordered : v.Ordered) :
    p.IsShownBy p.toJson.inOrder := by
  obtain ⟨vs, found, stepsShown⟩ := shown.steps
  have itemsOrdered := Value.orderedItems_iff.mp (ordered.member found)
  have steps : List.Forall₂ Step.IsShownBy p.steps
      ((p.steps.map Step.toJson).map Value.inOrder) := by
    rw [List.map_map, List.forall₂_map_right_iff, List.forall₂_same]
    exact forall_steps stepsShown fun s v shown member =>
      shown.inOrder_toJson (itemsOrdered v member)
  refine
    { id := p.member?_inOrder_toJson "id", id_nonempty := shown.id_nonempty,
      goal := p.member?_inOrder_toJson "goal",
      description := .inr (p.member?_inOrder_toJson "description"),
      steps := ⟨_, ?_, steps⟩, nonempty := shown.nonempty, only := ?_ }
  · rw [← Value.inOrderItems_eq_map]
    exact p.member?_inOrder_toJson "steps"
  · intro name present
    rw [member?_inOrder_toJson, ne_eq, Option.map_eq_none_iff] at present
    exact Entries.mem_map_key.mpr present

/-- A plan is not nested deeper than the value that shows it. -/
theorem IsShownBy.levels_toJson_le (shown : p.IsShownBy v) (room : v.levels ≤ n) (five : 5 ≤ n) :
    p.toJson.levels ≤ n := by
  obtain ⟨vs, found, stepsShown⟩ := shown.steps
  have deeper := Value.levels_lt_of_member? found
  have items : Value.itemLevels vs ≤ n - 2 := by
    rw [Value.levels] at deeper
    omega
  have steps : Value.itemLevels (p.steps.map Step.toJson) ≤ n - 2 := by
    rw [Value.itemLevels_le_iff, List.forall_mem_map]
    exact forall_steps stepsShown fun s v shown member =>
      shown.levels_toJson_le (Value.itemLevels_le_iff.mp items v member) (by omega)
  have below : Value.memberLevels p.written ≤ n - 1 :=
    Value.memberLevels_le_iff.mpr (by simp [written, Value.levels]; omega)
  rw [toJson_eq, Value.levels]
  omega

theorem whole_toJson (whole : ∀ s ∈ p.steps, ∀ m ∈ s.input.extra.entries, m.2.Whole) :
    p.toJson.Whole := by
  refine ⟨trivial, trivial, trivial, Value.wholeItems_of_forall ?_, trivial⟩
  exact List.forall_mem_map.mpr fun s member => Step.whole_toJson (whole s member)

end Plan

end BudgetedRun
