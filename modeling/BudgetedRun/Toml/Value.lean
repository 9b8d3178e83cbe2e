import BudgetedRun.Table

/-!
# TOML values

The contents of a TOML text. Numbers with a fraction and points in time are kept by their kind only,
as nothing asks for more. A number may be well formed and yet have no value; it is a fault only
where its value is needed, so it is kept too. A table remembers how it came to be, which decides
whether a later line of the text may add to it.
-/

namespace BudgetedRun

namespace Toml

/-- How a table came to be. -/
inductive Origin where
  /-- In braces; nothing is added to it. -/
  | inline
  /-- By a header of its own. -/
  | header
  /-- By the header of a table within it. -/
  | implied
  /-- By a key with dots. -/
  | dotted
deriving DecidableEq, Repr

/-- A TOML value. -/
inductive Value where
  | string (s : String)
  | integer (n : Int)
  | float
  | boolean (b : Bool)
  | time
  /-- A number without a value: it is too large, has no digits, or has ones that its base lacks. -/
  | unusable
  | array (items : List Value)
  /-- An array of tables with headers of their own. -/
  | tables (all : List (List (String × Value)))
  | table (origin : Origin) (entries : List (String × Value))

instance : Inhabited Value := ⟨.boolean false⟩

/-- The entries of a table. -/
abbrev Contents := List (String × Value)

namespace Value

mutual

def isUsable : Value → Bool
  | .string _ | .integer _ | .float | .boolean _ | .time => true
  | .unusable => false
  | .array items => areItemsUsable items
  | .tables all => areTablesUsable all
  | .table _ entries => areEntriesUsable entries

/-- Every number in the items of an array has a value. -/
def areItemsUsable : List Value → Bool
  | [] => true
  | v :: rest => isUsable v && areItemsUsable rest

def areTablesUsable : List (List (String × Value)) → Bool
  | [] => true
  | entries :: rest => areEntriesUsable entries && areTablesUsable rest

/-- Every number in the entries of a table has a value. -/
def areEntriesUsable : List (String × Value) → Bool
  | [] => true
  | (_, v) :: rest => isUsable v && areEntriesUsable rest

end

end Value

end Toml

end BudgetedRun
