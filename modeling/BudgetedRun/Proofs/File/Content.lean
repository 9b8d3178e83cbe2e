import BudgetedRun.Proofs.File.MadeDirectories

/-!
# The files of a tree

What a tree has for a file at each place (`Disk.file?`). Directories that are made change no file,
and a file that is written is the only one that changes, whatever the path is
(`Disk.sameOrMade_makeDirectories`, `Disk.file?_put`). A file that was written is there
(`Disk.file?_put_self`).
-/

namespace BudgetedRun

namespace Node

variable {n child : Node} {x : String} {xs path : List String} {es : List (String × Node)}

/-- Putting something where there is no directory keeps all directories. -/
theorem KeepsDirectories.modify_put (vacant : ∀ es, n.get? (xs ++ [x]) ≠ some (.directory es))
    (child : Node) : n.KeepsDirectories (n.modify (Node.put x child) xs) := by
  intro path es there
  have outside : ¬xs ++ [x] <+: path := by
    rintro ⟨rest, rfl⟩
    obtain ⟨es', other⟩ := exists_directory_of_get?_append there
    exact vacant es' other
  have same : (n.modify (Node.put x child) xs).seen? path = n.seen? path :=
    seen?_modify (fun _ => content?_put) (fun _ _ ys another => get?_put_of_ne another ys) outside
  rw [seen?, seen?, there] at same
  obtain ⟨m, found, kind⟩ := Option.map_eq_some_iff.mp same
  cases m with
  | file content => cases kind
  | directory es' => exact ⟨es', found⟩

/-- Nothing is below what is no directory. -/
theorem get?_below {y : String} {ys : List String}
    (vacant : ∀ es, n.get? xs ≠ some (.directory es)) : n.get? (xs ++ y :: ys) = none := by
  rw [get?_append]
  cases found : n.get? xs with
  | none => rfl
  | some m =>
      cases m with
      | file content => rfl
      | directory es => exact absurd found (vacant es)

end Node

namespace Disk

open BudgetedRun.Path

variable {d d' : Disk} {path name : String} {dir here ns place : List String} {content : ByteArray}

/-- What the file at a place holds, if there is one. -/
def file? (d : Disk) (place : List String) : Option ByteArray := (d.root.seen? place).join

/-- The same file, if any, is at a place that is the same or was made a directory. -/
theorem SameOrMade.file?_eq (same : SameOrMade d d' place) : d'.file? place = d.file? place := by
  rcases same with same | ⟨missing, made⟩
  · rw [file?, file?, same]
  · rw [file?, file?, missing, made]
    rfl

/-- A place that is the same or was made a directory twice is so once. -/
theorem SameOrMade.trans {d'' : Disk} (first : SameOrMade d d' place)
    (second : SameOrMade d' d'' place) : SameOrMade d d'' place := by
  rcases first with same | ⟨missing, made⟩
  · rwa [SameOrMade, same] at second
  · rcases second with same | ⟨missing', _⟩
    · exact .inr ⟨missing, same.trans made⟩
    · cases made.symm.trans missing'

/-- On a walk that makes directories, nothing else is new. -/
theorem sameOrMade_makeWalk (missed : Bool) (d : Disk) (place : List String) :
    SameOrMade d (makeWalk missed here ns d).2 place := by
  induction ns generalizing here missed d with
  | nil => exact .inl rfl
  | cons name ns ih =>
      rw [makeWalk]
      split
      · exact ih missed d
      split
      · exact ih missed d
      split
      · exact .inl rfl
      split
      · rename_i missing
        split
        · refine SameOrMade.trans ?_ (ih true (d.put here name (.directory [])))
          exact (seen?_make missing place).imp_right fun new => new.2
        · exact .inl rfl
      · exact ih missed d
      · exact .inl rfl

/-- Where directories are made, nothing else is new, whatever the path is. -/
theorem sameOrMade_makeDirectories (path : String) (d : Disk) (place : List String) :
    SameOrMade d (d.makeDirectories path).2 place := by
  rw [makeDirectories]
  split
  · exact .inl rfl
  · exact sameOrMade_makeWalk false d place

/-- A file that is written is the only one that changes. -/
theorem file?_put (vacant : ∀ es, d.root.get? (dir ++ [name]) ≠ some (.directory es))
    (another : place ≠ dir ++ [name]) :
    (d.put dir name (.file content)).file? place = d.file? place := by
  by_cases inside : dir ++ [name] <+: place
  · -- Below that place there is nothing, before and afterwards.
    obtain ⟨_ | ⟨z, zs⟩, rfl⟩ := inside
    · exact absurd (List.append_nil _) another
    have vacant' (es : List (String × Node)) :
        (d.put dir name (.file content)).root.get? (dir ++ [name]) ≠ some (.directory es) := by
      intro found
      cases Node.eq_of_get?_modify_put found
    rw [file?, file?, Node.seen?, Node.seen?, Node.get?_below vacant, Node.get?_below vacant']
  · rw [file?, file?, root_put, Node.seen?_modify (fun _ => Node.content?_put)
      (fun _ _ ys another => Node.get?_put_of_ne another ys) inside]

/-- A file that is put into a directory that is there is there. -/
theorem file?_put_self (there : ∃ es, d.root.get? dir = some (.directory es)) :
    (d.put dir name (.file content)).file? (dir ++ [name]) = some content := by
  obtain ⟨es, found⟩ := there
  rw [file?, Node.seen?, root_put, Node.get?_modify_put found, if_pos rfl]
  rfl

end Disk

end BudgetedRun
