import BudgetedRun.Proofs.Store.Layout

/-!
# Runs apart

Every run has a directory of its own, right below the directory of all runs, and its files are right
in there (`RunPaths.components_file`). So no run reaches what belongs to another one or lies
elsewhere (`RunPaths.confined_and_apart`).
-/

namespace BudgetedRun

open BudgetedRun.Path

namespace RunPaths

variable {base runId path : String}

/-- The files of a run. -/
inductive IsFile (base runId : String) : String → Prop
  | snapshot : IsFile base runId (of base runId).snapshot
  | log : IsFile base runId (of base runId).log
  | temporary (tag : TemporaryTag) : IsFile base runId (temporary (of base runId).snapshot tag)

/-- The paths of a run: its directory and its files. -/
inductive IsPath (base runId : String) : String → Prop
  | directory : IsPath base runId (of base runId).directory
  | file {path : String} (isFile : IsFile base runId path) : IsPath base runId path

/-- The components of the directory of a run are those of the directory of runs and its id. -/
theorem components_directory (isName : IsName runId) (base : String) :
    components (of base runId).directory = components (runs base) ++ [.name runId] :=
  components_join isName _

/-- The components of a file of a run are those of the directory of runs, the id and the name. -/
theorem components_within {name : String} (isName : IsName runId) (isName' : IsName name)
    (base : String) :
    components (Path.join (of base runId).directory name) =
      components (runs base) ++ [.name runId, .name name] := by
  rw [components_join isName', components_directory isName, List.append_assoc]
  rfl

/-- A file of a run is right in the directory of the run. -/
theorem components_file (isName : IsName runId) (isFile : IsFile base runId path) :
    ∃ name, components path = components (runs base) ++ [.name runId, .name name] := by
  cases isFile with
  | snapshot => exact ⟨"snapshot.json", components_within isName isName_snapshot base⟩
  | log => exact ⟨"log.jsonl", components_within isName isName_log base⟩
  | temporary tag =>
      rw [temporary_eq isName]
      exact ⟨temporaryName tag, components_within isName (isName_temporaryName tag) base⟩

/-- A path of a run starts with those of all runs and the id of the run. -/
theorem components_path (isName : IsName runId) (isPath : IsPath base runId path) :
    components (runs base) ++ [.name runId] <+: components path := by
  cases isPath with
  | directory => exact ⟨[], by rw [components_directory isName, List.append_nil]⟩
  | file isFile =>
      obtain ⟨name, components⟩ := components_file isName isFile
      rw [components]
      exact ⟨[.name name], List.append_assoc _ _ _⟩

/-- Behind the front of a path there comes one name only, so paths that go on with different names
are not below one another. -/
theorem name_unique {front path : List Component} {first second : String}
    (one : front ++ [.name first] <+: path) (other : front ++ [.name second] <+: path) :
    first = second := by
  have same := List.prefix_of_prefix_length_le one other (by simp)
  have same := same.eq_of_length (by simp)
  exact Component.name.inj (List.cons.inj (List.append_cancel_left same)).1

/-- An accepted run id is one more component below the directory of the runs, and the files of the
run are right below that. No file of a run is a path of another run or lies below one. Joining a
text to the directory of the runs adds just this text as a component exactly if it can be the name
of a file, and what does not is no run id. -/
theorem confined_and_apart (base : String) :
    (∀ id, RunId.check id = .ok () →
      components (of base id).directory = components (runs base) ++ [.name id] ∧
      components (of base id).snapshot =
        components (runs base) ++ [.name id, .name "snapshot.json"] ∧
      components (of base id).log = components (runs base) ++ [.name id, .name "log.jsonl"]) ∧
    (∀ id other file path, RunId.check id = .ok () → RunId.check other = .ok () → id ≠ other →
      IsFile base id file → IsPath base other path → ¬components path <+: components file) ∧
    ∀ id,
      (components (Path.join (runs base) id) = components (runs base) ++ [.name id] ↔ IsName id) ∧
      (components (Path.join (runs base) id) ≠ components (runs base) ++ [.name id] →
        ∃ fault, RunId.check id = .error ⟨id, fault⟩) := by
  refine ⟨fun id accepted => ?_,
    fun id other file path accepted accepted' another isFile isPath => ?_,
    fun id => ⟨components_join_iff, fun elsewhere => ?_⟩⟩
  · have isName := RunId.isName (RunId.fault?_of_check accepted)
    exact ⟨components_directory isName base, components_within isName isName_snapshot base,
      components_within isName isName_log base⟩
  · intro within
    have isName := RunId.isName (RunId.fault?_of_check accepted)
    have isName' := RunId.isName (RunId.fault?_of_check accepted')
    exact another (name_unique (components_path isName (.file isFile))
      ((components_path isName' isPath).trans within))
  · cases fault : RunId.fault? id with
    | none => exact absurd (components_join (RunId.isName fault) _) elsewhere
    | some fault' => exact ⟨fault', by rw [RunId.check, fault]⟩

/-- A run whose id starts with that of another one is not below it. What climbs out of the directory
of the runs is refused. -/
theorem longer_id_apart :
    RunId.check "run" = .ok () ∧ RunId.check "run.1" = .ok () ∧ "run.1" ≠ "run" ∧
      components (of "../data" "run").snapshot =
        components (runs "../data") ++ [.name "run", .name "snapshot.json"] ∧
      ¬components (of "../data" "run").directory <+:
        components (temporary (of "../data" "run.1").snapshot ⟨7, 0⟩) ∧
      components (Path.join (runs "../data") "../run") ≠
        components (runs "../data") ++ [.name "../run"] ∧
      ∃ fault, RunId.check "../run" = .error ⟨"../run", fault⟩ := by
  have accepted : RunId.check "run" = .ok () := rfl
  have accepted' : RunId.check "run.1" = .ok () := rfl
  have another : "run.1" ≠ "run" := by decide
  have elsewhere : components (Path.join (runs "../data") "../run") ≠
      components (runs "../data") ++ [.name "../run"] := by decide
  obtain ⟨confined, apart, refused⟩ := confined_and_apart "../data"
  exact ⟨accepted, accepted', another, (confined "run" accepted).2.1,
    apart "run.1" "run" _ _ accepted' accepted another (.temporary ⟨7, 0⟩) .directory,
    elsewhere, (refused "../run").2 elsewhere⟩

end RunPaths

end BudgetedRun
