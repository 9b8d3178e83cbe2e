/-!
# Run ids

A run id names a directory, so it must be a plain name: letters, digits, `-`, `_` and `.` only, and
neither empty nor one of the two names that stand for a directory and its parent.
-/

namespace BudgetedRun

/-- What keeps a text from being a run id. -/
inductive RunIdFault where
  | empty
  | relative
  | badCharacter
deriving DecidableEq, Repr

/-- The rule that is broken, in words. -/
def RunIdFault.reason : RunIdFault → String
  | empty => "must not be empty"
  | relative => "must not be a relative directory name"
  | badCharacter => "allowed characters are [A-Za-z0-9._-]"

/-- A text that is no run id. -/
structure RunIdError where
  runId : String
  fault : RunIdFault
deriving DecidableEq

def RunIdError.message (e : RunIdError) : String :=
  s!"invalid run id '{e.runId}': {e.fault.reason}"

namespace RunId

/-- A character that may stand in a run id. -/
def isPlain (c : Char) : Bool :=
  c.isAlphanum || c == '-' || c == '_' || c == '.'

/-- What keeps a text from being a run id, if anything does. -/
def fault? (id : String) : Option RunIdFault :=
  if id = "" then some .empty
  else if id = "." ∨ id = ".." then some .relative
  else if id.toList.all isPlain then none
  else some .badCharacter

/-- Whether a text is a run id. -/
def check (id : String) : Except RunIdError Unit :=
  match fault? id with
  | none => .ok ()
  | some fault => .error ⟨id, fault⟩

end RunId

end BudgetedRun
