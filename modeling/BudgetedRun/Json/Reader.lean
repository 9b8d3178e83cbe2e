import BudgetedRun.Json.Token
import BudgetedRun.Json.Value

/-!
# Reading JSON

`Document.parse?` reads a text that holds one document and nothing else. `Value.ofText?` gives its
value, for texts in which at most `Value.maxLevels` arrays and objects lie within each other.
-/

namespace BudgetedRun

namespace Json

namespace Document

mutual

/-- Read a document from the front of some tokens. The number bounds the calls within each
other. -/
def read? : Nat → List Token → Option (Document × List Token)
  | 0, _ => none
  | fuel + 1, ts =>
    match ts with
    | .null :: rest => some (.null, rest)
    | .bool b :: rest => some (.bool b, rest)
    | .number n :: rest => some (.number n, rest)
    | .string s :: rest => some (.string s, rest)
    | .openArray :: .closeArray :: rest => some (.array [], rest)
    | .openArray :: rest => (readItems? fuel rest).map fun (items, rest) => (.array items, rest)
    | .openObject :: .closeObject :: rest => some (.object [], rest)
    | .openObject :: rest =>
      (readMembers? fuel rest).map fun (members, rest) => (.object members, rest)
    | _ => none

/-- Read the items of an array that is not empty, up to its end. -/
def readItems? : Nat → List Token → Option (List Document × List Token)
  | 0, _ => none
  | fuel + 1, ts =>
    match read? fuel ts with
    | some (d, .closeArray :: rest) => some ([d], rest)
    | some (d, .comma :: rest) => (readItems? fuel rest).map fun (ds, rest) => (d :: ds, rest)
    | _ => none

/-- Read the members of an object that is not empty, up to its end. -/
def readMembers? : Nat → List Token → Option (List (Option String × Document) × List Token)
  | 0, _ => none
  | fuel + 1, ts =>
    match ts with
    | .string key :: .colon :: ts =>
      match read? fuel ts with
      | some (d, .closeObject :: rest) => some ([(key, d)], rest)
      | some (d, .comma :: rest) =>
        (readMembers? fuel rest).map fun (ms, rest) => ((key, d) :: ms, rest)
      | _ => none
    | _ => none

end

/-- The document that a sequence of tokens is, from end to end. -/
def ofTokens? (ts : List Token) : Option Document :=
  match read? (2 * ts.length + 1) ts with
  | some (d, []) => some d
  | _ => none

/-- The document that a text holds, with nothing but blanks around it. -/
def ofChars? (cs : List Char) : Option Document := (Token.scan? cs).bind ofTokens?

/-- The document that a text holds. -/
def parse? (text : String) : Option Document := ofChars? text.toList

end Document

/-- How many arrays and objects may lie within each other where their values are needed. -/
def Value.maxLevels : Nat := 127

/-- The value that a text holds: nothing but JSON, not nested deeper than that and without a number
that is too great for binary64. -/
def Value.ofText? (text : String) : Option Value :=
  (Document.parse? text).bind (Document.toValue? maxLevels)

end Json

end BudgetedRun
