import BudgetedRun.Plan.Basic
import BudgetedRun.Proofs.Text.Blank

/-!
# Plans that can be run

`Plan.validate` looks for the first thing that is wrong. It finds nothing exactly for the plans that
have an id, at least one step, and an id for every step that no other step has. Where only the ids
of the steps are wrong, it reports the first step that breaks the rules on them
(`Plan.FirstOffence`).
-/

namespace BudgetedRun

namespace Plan

/-- Nothing is wrong with step ids exactly if none is blank and each is new. -/
theorem checkIds_eq_ok_iff {planId : String} {earlier : Std.TreeSet String} {ids : List String} :
    checkIds planId earlier ids = .ok () ↔
      (∀ id ∈ ids, Text.isAllBlank id = false) ∧ (∀ id ∈ ids, id ∉ earlier) ∧ ids.Nodup := by
  induction ids generalizing earlier with
  | nil => simp [checkIds]
  | cons id rest ih =>
      rw [checkIds]
      by_cases blank : Text.isAllBlank id = true
      · simp [blank]
      · by_cases used : id ∈ earlier
        · simp [blank, used]
        · rw [if_neg blank, if_neg used, ih]
          simp only [Std.TreeSet.mem_insert, List.forall_mem_cons, List.nodup_cons, blank, used,
            Std.LawfulEqCmp.compare_eq_iff_eq, not_or, forall_and]
          grind

/-- A plan can be run exactly if it has an id, steps, and ids for all of them that differ. -/
theorem validate_eq_ok_iff {p : Plan} :
    p.validate = .ok () ↔
      Text.isAllBlank p.id = false ∧ p.steps ≠ [] ∧
        (∀ step ∈ p.steps, Text.isAllBlank step.id = false) ∧ (p.steps.map (·.id)).Nodup := by
  rw [validate]
  by_cases blank : Text.isAllBlank p.id = true
  · simp [blank]
  · by_cases empty : p.steps = []
    · simp [blank, empty]
    · rw [if_neg blank, if_neg (mt List.isEmpty_iff.mp empty), checkIds_eq_ok_iff]
      simp [blank, empty]

/-- A scan that stops got past the ids before: it stops at one that is blank, or among the earlier
ones, or among those that it has passed. -/
theorem checkIds_eq_error {planId : String} {earlier : Std.TreeSet String} {ids : List String}
    {e : PlanError} (stopped : checkIds planId earlier ids = .error e) :
    ∃ before id after, ids = before ++ id :: after ∧ checkIds planId earlier before = .ok () ∧
      (Text.isAllBlank id = true ∨ id ∈ earlier ∨ id ∈ before) ∧
      e = if Text.isAllBlank id then .emptyStepId planId else .duplicateStepId planId id := by
  induction ids generalizing earlier with
  | nil => cases stopped
  | cons id rest ih =>
      rw [checkIds] at stopped
      by_cases blank : Text.isAllBlank id = true
      · rw [if_pos blank] at stopped
        cases stopped
        exact ⟨[], id, rest, rfl, rfl, .inl blank, (if_pos blank).symm⟩
      by_cases used : id ∈ earlier
      · rw [if_neg blank, if_pos used] at stopped
        cases stopped
        exact ⟨[], id, rest, rfl, rfl, .inr (.inl used), (if_neg blank).symm⟩
      rw [if_neg blank, if_neg used] at stopped
      obtain ⟨before, other, after, rfl, passed, offends, reported⟩ := ih stopped
      refine ⟨id :: before, other, after, rfl, ?_, ?_, reported⟩
      · rw [checkIds, if_neg blank, if_neg used, passed]
      · refine offends.imp_right fun met => ?_
        -- the id that was passed moves from the earlier ones to those before
        rcases met with inserted | later
        · rcases Std.TreeSet.mem_insert.mp inserted with same | used
          · exact .inr (Std.LawfulEqCmp.compare_eq_iff_eq.mp same ▸ List.mem_cons_self)
          · exact .inl used
        · exact .inr (List.mem_cons_of_mem _ later)

/-- The step at some position has a blank id, or the id of an earlier step. -/
def OffendsAt (p : Plan) (k : Nat) : Prop :=
  ∃ step, p.steps[k]? = some step ∧
    (Text.trim step.id = "" ∨
      ∃ j earlier, j < k ∧ p.steps[j]? = some earlier ∧ earlier.id = step.id)

/-- The first step that breaks the rules on ids: at its position they are broken, at no earlier one
they are, and so the ids before it are neither blank nor repeated. -/
structure FirstOffence (p : Plan) (k : Nat) (step : Step) : Prop where
  here : p.steps[k]? = some step
  offends : p.OffendsAt k
  least : ∀ j, j < k → ¬p.OffendsAt j
  named : ∀ earlier ∈ p.steps.take k, Text.trim earlier.id ≠ ""
  distinct : ((p.steps.take k).map (·.id)).Nodup

/-- Among steps whose ids are neither blank nor repeated, none breaks the rules. -/
theorem not_offendsAt {p : Plan} {k j : Nat}
    (named : ∀ step ∈ p.steps.take k, Text.trim step.id ≠ "")
    (distinct : ((p.steps.take k).map (·.id)).Nodup) (before : j < k) : ¬p.OffendsAt j := by
  have taken {n : Nat} {s : Step} (inside : n < k) (there : p.steps[n]? = some s) :
      (p.steps.take k)[n]? = some s := (List.getElem?_take_of_lt inside).trans there
  have idAt {n : Nat} {s : Step} (inside : n < k) (there : p.steps[n]? = some s) :
      ((p.steps.take k).map (·.id))[n]? = some s.id := by
    rw [List.getElem?_map, taken inside there, Option.map_some]
  rintro ⟨step, here, blank | ⟨i, earlier, below, there, same⟩⟩
  · exact named step (List.mem_of_getElem? (taken before here)) blank
  · have first := idAt (Nat.lt_trans below before) there
    obtain ⟨inside, _⟩ := List.getElem?_eq_some_iff.mp first
    have alike := first.trans ((congrArg some same).trans (idAt before here).symm)
    exact Nat.ne_of_lt below ((List.getElem?_inj inside distinct).mp alike)

/-- A step that breaks the rules after others that keep them is the first that does. -/
theorem firstOffence_of_split {p : Plan} {before after : List Step} {step : Step}
    (split : p.steps = before ++ step :: after)
    (named : ∀ earlier ∈ before, Text.trim earlier.id ≠ "")
    (distinct : (before.map (·.id)).Nodup)
    (offends : Text.trim step.id = "" ∨ step.id ∈ before.map (·.id)) :
    p.FirstOffence before.length step := by
  have taken : p.steps.take before.length = before := by rw [split, List.take_left]
  have here : p.steps[before.length]? = some step := by
    rw [split, List.getElem?_append_right (Nat.le_refl _), Nat.sub_self, List.getElem?_cons_zero]
  have named : ∀ earlier ∈ p.steps.take before.length, Text.trim earlier.id ≠ "" := by rwa [taken]
  have distinct : ((p.steps.take before.length).map (·.id)).Nodup := by rwa [taken]
  refine ⟨here, ⟨step, here, ?_⟩, fun j below => not_offendsAt named distinct below, named,
    distinct⟩
  refine offends.imp_right fun repeated => ?_
  obtain ⟨earlier, member, same⟩ := List.mem_map.mp repeated
  obtain ⟨j, there⟩ := List.mem_iff_getElem?.mp member
  obtain ⟨below, -⟩ := List.getElem?_eq_some_iff.mp there
  exact ⟨j, earlier, below, by rw [split, List.getElem?_append_left below, there], same⟩

/-- Where only ids of steps are wrong, the first offence is what is reported. -/
theorem exists_firstOffence {p : Plan} {e : PlanError} (identified : Text.isAllBlank p.id = false)
    (stepped : p.steps ≠ []) (refused : p.validate = .error e) :
    ∃ k step, p.FirstOffence k step ∧
      e = if Text.isAllBlank step.id then .emptyStepId p.id else .duplicateStepId p.id step.id := by
  rw [validate, identified, if_neg Bool.false_ne_true,
    if_neg (mt List.isEmpty_iff.mp stepped)] at refused
  obtain ⟨ids, id, others, parted, passed, offends, reported⟩ := checkIds_eq_error refused
  obtain ⟨before, rest, split, rfl, later⟩ := List.map_eq_append_iff.mp parted
  obtain ⟨step, after, rfl, rfl, -⟩ := List.map_eq_cons_iff.mp later
  obtain ⟨unblank, -, distinct⟩ := checkIds_eq_ok_iff.mp passed
  have named (earlier : Step) (member : earlier ∈ before) : Text.trim earlier.id ≠ "" :=
    Text.isAllBlank_eq_false_iff.mp (unblank earlier.id (List.mem_map_of_mem member))
  refine ⟨before.length, step, firstOffence_of_split split named distinct ?_, reported⟩
  rcases offends with blank | used | repeated
  · exact .inl (Text.trim_eq_empty_iff.mpr blank)
  · exact absurd used Std.TreeSet.not_mem_emptyc
  · exact .inr repeated

/-- **Validation is sound, complete and reports the first offence.** A plan with an id and steps can
be run exactly if no id of a step is blank and no two are the same. Otherwise there is a least
position at which an id is blank or repeats an earlier one, and this is what is reported: the id is
missing if it is blank, and else it is there twice. -/
theorem validate_reports_first_offence {p : Plan} (identified : Text.trim p.id ≠ "")
    (stepped : p.steps ≠ []) :
    let Sound := (∀ step ∈ p.steps, Text.trim step.id ≠ "") ∧ (p.steps.map (·.id)).Nodup
    (p.validate = .ok () ↔ Sound) ∧
      (¬Sound → ∃ k step, p.FirstOffence k step ∧
        p.validate = .error
          (if Text.trim step.id = "" then .emptyStepId p.id
            else .duplicateStepId p.id step.id)) := by
  intro Sound
  have accepted : p.validate = .ok () ↔ Sound := by
    rw [validate_eq_ok_iff, Text.isAllBlank_eq_false_iff, and_iff_right identified,
      and_iff_right stepped]
    simp only [Text.isAllBlank_eq_false_iff, Sound]
  refine ⟨accepted, fun unsound => ?_⟩
  cases refused : p.validate with
  | ok done => exact absurd (accepted.mp refused) unsound
  | error e =>
      obtain ⟨k, step, offence, rfl⟩ :=
        exists_firstOffence (Text.isAllBlank_eq_false_iff.mpr identified) stepped refused
      simp only [← Text.trim_eq_empty_iff] at refused ⊢
      exact ⟨k, step, offence, rfl⟩

/-- Ids that differ in blanks only are not the same, so the third step is the first to repeat one;
that the fourth has a blank id is not reported. -/
theorem spaced_ids_first_offence :
    let step (id : String) : Step := ⟨id, .review, "Look", "", ⟨"Look", .empty, .empty⟩⟩
    let p : Plan := ⟨"plan", "Check", "", [step "a", step " a", step "a", step " "]⟩
    Text.trim p.id ≠ "" ∧ p.steps ≠ [] ∧ ¬(p.steps.map (·.id)).Nodup ∧
      p.FirstOffence 2 (step "a") ∧ p.validate = .error (.duplicateStepId "plan" "a") := by
  intro step p
  have identified : Text.trim p.id ≠ "" := by decide
  have stepped : p.steps ≠ [] := List.cons_ne_nil _ _
  have repeated : ¬(p.steps.map (·.id)).Nodup := by decide
  obtain ⟨-, reports⟩ := validate_reports_first_offence identified stepped
  obtain ⟨k, found, offence, reported⟩ := reports fun sound => repeated sound.2
  have there : p.OffendsAt 2 := ⟨step "a", rfl, .inr ⟨0, step "a", by decide, rfl, rfl⟩⟩
  have third : k = 2 := by
    refine Nat.le_antisymm (Nat.not_lt.mp fun later => offence.least 2 later there)
      (Nat.not_lt.mp fun sooner => ?_)
    exact not_offendsAt (by decide) (by decide) sooner offence.offends
  subst third
  cases offence.here
  have named : Text.trim (step "a").id ≠ "" := by decide
  rw [if_neg named] at reported
  exact ⟨identified, stepped, repeated, offence, reported⟩

/-- A valid plan has an id. -/
theorem id_ne_empty {p : Plan} (valid : p.validate = .ok ()) : p.id ≠ "" := by
  intro empty
  have named := (validate_eq_ok_iff.mp valid).1
  rw [empty] at named
  exact absurd named (by decide)

end Plan

end BudgetedRun
