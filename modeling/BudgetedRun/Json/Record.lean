import BudgetedRun.Json.Reader

/-!
# Records in JSON

How values of known types are taken from a JSON text. A record is an object, whose fields may stand
in any order among other members, or an array of the values of its fields in their order. A field
must not be repeated. Whole numbers are read from whole numbers only, and a name from a list of
names is a string, or an object that gives the name the value `null`.
-/

namespace BudgetedRun

namespace Json

/-- The values of the fields that a text has. -/
abbrev Fields := List (String × Document)

namespace Fields

def required (fields : Fields) (name : String) (read : Document → Option α) : Option α :=
  (Entries.find? name fields).bind read

/-- The value of a field that may be missing, and then has the given value. -/
def withDefault (fields : Fields) (name : String) (absent : α) (read : Document → Option α) :
    Option α :=
  match Entries.find? name fields with
  | none => some absent
  | some d => read d

/-- The value of a field that may be missing or `null`. -/
def optional (fields : Fields) (name : String) (read : Document → Option α) : Option (Option α) :=
  match Entries.find? name fields with
  | none => some none
  | some .null => some none
  | some d => (read d).map some

end Fields

namespace Document

/-- The members with one of the given names. All names of members must be readable, and none of the
given ones may come twice. -/
def known? (names : List String) : List (Option String × Document) → Option Fields
  | [] => some []
  | (none, _) :: _ => none
  | (some name, d) :: rest => do
    let fields ← known? names rest
    if name ∈ names then
      if (Entries.find? name fields).isSome then none else some ((name, d) :: fields)
    else some fields

/-- The fields of a record with the given field names. -/
def record? (names : List String) : Document → Option Fields
  | .object members => known? names members
  | .array items => if items.length = names.length then some (names.zip items) else none
  | _ => none

/-- The fields of a record in which every field may be missing, also at the end of an array. -/
def partialRecord? (names : List String) : Document → Option Fields
  | .object members => known? names members
  | .array items => if items.length ≤ names.length then some (names.zip items) else none
  | _ => none

/-- A string. -/
def string? : Document → Option String
  | .string s => s
  | _ => none

/-- A truth value. -/
def bool? : Document → Option Bool
  | .bool b => some b
  | _ => none

/-- A whole number of 64 bits. -/
def word64? : Document → Option UInt64
  | .number (some (.natural n)) => some n
  | _ => none

/-- A whole number of 32 bits. -/
def word32? : Document → Option UInt32
  | .number (some (.natural n)) =>
    if h : n.toNat < UInt32.size then some (UInt32.ofNatLT n.toNat h) else none
  | _ => none

/-- A name from a list of names. -/
def name? : Document → Option String
  | .string s => s
  | .object [(some s, .null)] => some s
  | _ => none

def list? (read : Document → Option α) : Document → Option (List α)
  | .array items => items.mapM read
  | _ => none

/-- A member with a readable name and a string for a value. -/
def stringMember? (m : Option String × Document) : Option (String × String) := do
  let name ← m.1
  let s ← m.2.string?
  some (name, s)

/-- The strings under the names of an object, of a repeated name the last one. -/
def strings? : Document → Option (Table String)
  | .object members =>
    (members.mapM stringMember?).map Table.ofList
  | _ => none

end Document

def Value.ofNat64 (n : UInt64) : Value := .number (.natural n)

def Value.ofNat32 (n : UInt32) : Value := .number (.natural n.toUInt64)

/-- A value that may be missing, which is written as `null`. -/
def Value.ofOption (write : α → Value) : Option α → Value
  | none => .null
  | some a => write a

end Json

end BudgetedRun
