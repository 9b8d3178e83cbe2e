import BudgetedRun.Proofs.Json.Record
import BudgetedRun.Proofs.Json.RoundTrip
import BudgetedRun.Proofs.Time.Text
import BudgetedRun.Run.Snapshot

/-!
# Reading snapshots back

Every state is read back from its text, on one line or as a snapshot (`RunState.parse?_compactText`,
`RunState.parse?_snapshot`), so two states never have the same text
(`RunState.text_determines_state`).
-/

namespace BudgetedRun

open Json

theorem Timestamp.ofDocument?_toJson (t : Timestamp) :
    ofDocument? (Document.ofValue t.toJson) = some t := by
  rw [toJson, Document.ofValue, ofDocument?, Document.string?, Option.bind_some, t.parse?_render]

/-- If no two things have one name, each is found by its name. -/
theorem named?_name {α : Type} {name : α → String} {all : List α} {a : α} (member : a ∈ all)
    (distinct : ∀ a b, name a = name b → a = b) : named? name all (name a) = some a := by
  have found : (all.find? fun b => decide (name b = name a)).isSome = true :=
    List.find?_isSome.mpr ⟨a, member, decide_eq_true rfl⟩
  obtain ⟨b, found⟩ := Option.isSome_iff_exists.mp found
  have same : name b = name a := by
    have holds := List.find?_some found
    exact of_decide_eq_true holds
  rw [named?, found, distinct b a same]

theorem RunStatus.ofDocument?_toJson (status : RunStatus) :
    ofDocument? (Document.ofValue status.toJson) = some status := by
  apply named?_name
  · cases status <;> decide
  · intro a b same
    cases a <;> cases b <;> first | rfl | exact absurd same (by decide)

theorem StopReason.ofDocument?_toJson (reason : StopReason) :
    ofDocument? (Document.ofValue reason.toJson) = some reason := by
  apply named?_name
  · cases reason <;> decide
  · intro a b same
    cases a <;> cases b <;> first | rfl | exact absurd same (by decide)

theorem TokenUsage.ofDocument?_toJson (usage : TokenUsage) :
    ofDocument? (Document.ofValue usage.toJson) = some usage := by
  rw [toJson, ofDocument?, Document.record?_of_forall (by simp) (by simp)]
  simp [Document.fieldsOf, Fields.required, Entries.find?, Document.word64?_ofNat64]

theorem Incident.ofDocument?_toJson (e : Incident) :
    ofDocument? (Document.ofValue e.toJson) = some e := by
  rw [toJson, ofDocument?, Document.record?_of_forall (by simp) (by simp)]
  simp only [Option.bind_eq_bind, Option.bind_some]
  rw [Document.optional_ofOption rfl Document.string?_string Document.ofValue_string_ne_null]
  simp [Document.fieldsOf, Fields.required, Entries.find?, Document.string?_string,
    Document.bool?_bool, Timestamp.ofDocument?_toJson]

/-- An incident is written without fractions. -/
theorem Incident.whole_toJson (e : Incident) : e.toJson.Whole :=
  ⟨Value.whole_ofOption Value.string (fun _ => trivial) e.stepId, trivial, trivial, trivial,
    trivial⟩

namespace RunState

/-- A state is read back from its members. -/
theorem ofDocument?_toJson (s : RunState) : ofDocument? (Document.ofValue s.toJson) = some s := by
  rw [toJson, ofDocument?, Document.record?_of_forall (by simp) (by simp)]
  simp only [Option.bind_eq_bind, Option.bind_some]
  rw [Document.optional_ofOption rfl StopReason.ofDocument?_toJson fun reason =>
      Document.ofValue_string_ne_null reason.name,
    Document.optional_ofOption rfl Timestamp.ofDocument?_toJson fun t =>
      Document.ofValue_string_ne_null t.render]
  simp [Document.fieldsOf, Fields.required, Entries.find?, Document.string?_string,
    RunStatus.ofDocument?_toJson, Document.word64?_ofNat64, Document.word32?_ofNat32,
    TokenUsage.ofDocument?_toJson, Document.list?_map Incident.ofDocument?_toJson,
    Timestamp.ofDocument?_toJson]

/-- A state is written without fractions. -/
theorem whole_toJson (s : RunState) : s.toJson.Whole := by
  have errors : Value.WholeItems (s.errors.map Incident.toJson) := by
    apply Value.wholeItems_of_forall
    rw [List.forall_mem_map]
    exact fun e _ => e.whole_toJson
  have stopReason := Value.whole_ofOption StopReason.toJson (fun _ => trivial) s.stopReason
  have endTime := Value.whole_ofOption Timestamp.toJson (fun _ => trivial) s.endTime
  exact ⟨trivial, trivial, trivial, stopReason, trivial, trivial,
    ⟨trivial, trivial, trivial, trivial⟩, errors, trivial, endTime, trivial⟩

/-- A state is read back from its text on one line. -/
theorem parse?_compactText (s : RunState) : parse? s.compactText = some s := by
  rw [parse?, compactText, Document.parse?_compact s.whole_toJson, Option.bind_some,
    s.ofDocument?_toJson]

/-- A state is read back from its snapshot. -/
theorem parse?_snapshot (s : RunState) : parse? s.snapshot = some s := by
  rw [parse?, snapshot, Document.parse?_indented s.whole_toJson, Option.bind_some,
    s.ofDocument?_toJson]

/-- Different states have different compact texts. -/
theorem compactText_injective : Function.Injective compactText := by
  intro s t same
  have back := s.parse?_compactText
  rw [same, t.parse?_compactText] at back
  exact (Option.some.inj back).symm

/-- Different states have different snapshots. -/
theorem snapshot_injective : Function.Injective snapshot := by
  intro s t same
  have back := s.parse?_snapshot
  rw [same, t.parse?_snapshot] at back
  exact (Option.some.inj back).symm

/-- A state is read back from either of its texts, which no other state has. -/
theorem text_determines_state (s : RunState) :
    parse? s.compactText = some s ∧ parse? s.snapshot = some s ∧
      ∀ t : RunState,
        (t.compactText = s.compactText ↔ t = s) ∧ (t.snapshot = s.snapshot ↔ t = s) :=
  ⟨s.parse?_compactText, s.parse?_snapshot, fun _ =>
    ⟨compactText_injective.eq_iff, snapshot_injective.eq_iff⟩⟩

end RunState

end BudgetedRun
