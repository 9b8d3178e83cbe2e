import BudgetedRun.Json.Number
import BudgetedRun.Table

/-!
# JSON values and documents

`Value` is a JSON value as programs hold it: the members of an object that was read are in key
order, and those of a record that is written are in the order of its fields.

`Document` is a JSON text as it stands, before anyone asks for its contents. Members keep their
order and their repetitions. A string whose escapes do not form characters and a number beyond the
range of binary64 are parts of a well-formed text too; they are faults only where their value is
needed, so both are kept as `none`.
-/

namespace BudgetedRun

namespace Json

/-- A JSON value. -/
inductive Value where
  | null
  | bool (b : Bool)
  | number (n : Number)
  | string (s : String)
  | array (items : List Value)
  | object (members : List (String × Value))

instance : Inhabited Value := ⟨.null⟩

mutual

/-- How many arrays and objects lie within each other. -/
def Value.levels : Value → Nat
  | .array items => itemLevels items + 1
  | .object members => memberLevels members + 1
  | _ => 0

def Value.itemLevels : List Value → Nat
  | [] => 0
  | v :: vs => max v.levels (itemLevels vs)

def Value.memberLevels : List (String × Value) → Nat
  | [] => 0
  | (_, v) :: ms => max v.levels (memberLevels ms)

end

/-- A JSON text by its structure. -/
inductive Document where
  | null
  | bool (b : Bool)
  | number (n : Option Number)
  | string (s : Option String)
  | array (items : List Document)
  | object (members : List (Option String × Document))

instance : Inhabited Document := ⟨.null⟩

/-- The member of an object. -/
def Value.member? (key : String) : Value → Option Value
  | .object members => Entries.find? key members
  | _ => none

namespace Document

mutual

/-- A value as the text that shows it. -/
def ofValue : Value → Document
  | .null => .null
  | .bool b => .bool b
  | .number n => .number (some n)
  | .string s => .string (some s)
  | .array items => .array (ofItems items)
  | .object members => .object (ofMembers members)

def ofItems : List Value → List Document
  | [] => []
  | v :: rest => ofValue v :: ofItems rest

def ofMembers : List (String × Value) → List (Option String × Document)
  | [] => []
  | (k, v) :: rest => (some k, ofValue v) :: ofMembers rest

end

mutual

/-- The value of a text in which at most `levels` arrays and objects lie within each other. The
members of an object come out in key order, of a repeated key the last one. -/
def toValue? (levels : Nat) : Document → Option Value
  | .null => some .null
  | .bool b => some (.bool b)
  | .number n => n.map .number
  | .string s => s.map .string
  | .array items =>
    match levels with
    | 0 => none
    | levels + 1 => (toItems? levels items).map .array
  | .object members =>
    match levels with
    | 0 => none
    | levels + 1 => (toMembers? levels members).map fun ms => .object (Entries.sorted ms)

def toItems? (levels : Nat) : List Document → Option (List Value)
  | [] => some []
  | d :: rest => do
    let v ← toValue? levels d
    let vs ← toItems? levels rest
    some (v :: vs)

/-- The members of an object, in the order of the text. -/
def toMembers? (levels : Nat) : List (Option String × Document) → Option (List (String × Value))
  | [] => some []
  | (k, d) :: rest => do
    let k ← k
    let v ← toValue? levels d
    let vs ← toMembers? levels rest
    some ((k, v) :: vs)

end

end Document

end Json

end BudgetedRun
