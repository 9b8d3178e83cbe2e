import BudgetedRun.Toml.Value

/-!
# Putting a TOML text together

The lines of a TOML text are headers and keys with values. `assemble` makes one table of them. No
key may be given twice, a table has one header at most, and nothing is added to a table in braces or
to a value that is no table. A key with dots makes the tables on its way, which no other kind of
line may then extend, apart from headers of tables within them.
-/

namespace BudgetedRun

namespace Toml

/-- A line of a TOML text. -/
inductive Line where
  | pair (key : List String) (v : Value)
  | header (key : List String)
  /-- The header of one more table in an array. -/
  | arrayHeader (key : List String)

namespace Contents

/-- Change the table that a path leads to, and make the tables on the way. With `dotted` the path is
that of a key with dots, and the change is told how the last table came to be. -/
def descend (dotted : Bool) (change : Origin → Contents → Option Contents) :
    List String → Origin → Contents → Option Contents
  | [], origin, contents => change origin contents
  | key :: rest, _, contents =>
    let made := if dotted then Origin.dotted else .implied
    match Entries.find? key contents with
    | none =>
      (descend dotted change rest made []).map fun inner =>
        Entries.insert key (.table made inner) contents
    | some (.table origin inner) =>
      if origin = .inline ∨ (dotted = true ∧ origin = .header) then none
      else
        (descend dotted change rest origin inner).map fun inner =>
          Entries.insert key (.table origin inner) contents
    | some (.tables all) =>
      match all.getLast? with
      | none => none
      | some inner =>
        (descend dotted change rest .header inner).map fun inner =>
          Entries.insert key (.tables (all.dropLast ++ [inner])) contents
    | some _ => none

/-- Put a value under a new key. -/
def add (key : String) (v : Value) (contents : Contents) : Option Contents :=
  if (Entries.find? key contents).isSome then none else some (Entries.insert key v contents)

/-- Put a value under a key with or without dots. -/
def assign (key : List String) (v : Value) (contents : Contents) : Option Contents :=
  match key.getLast? with
  | none => none
  | some last =>
    if key.length = 1 then add last v contents
    else
      descend true (fun origin inner => if origin = .dotted then add last v inner else none)
        key.dropLast .header contents

/-- Put the values under keys, one after another. -/
def assignAll (pairs : List (List String × Value)) (contents : Contents) : Option Contents :=
  pairs.foldlM (fun contents pair => assign pair.1 pair.2 contents) contents

/-- Give the table with some header its keys. -/
def addTable (key : List String) (pairs : List (List String × Value)) (contents : Contents) :
    Option Contents :=
  match key.getLast? with
  | none => none
  | some last =>
    descend false (fun _ parent =>
      match Entries.find? last parent with
      | none =>
        (assignAll pairs []).map fun inner => Entries.insert last (.table .header inner) parent
      | some (.table .implied inner) =>
        (assignAll pairs inner).map fun inner => Entries.insert last (.table .header inner) parent
      | some _ => none) key.dropLast .header contents

/-- Add a table with some keys to an array of tables. -/
def addToArray (key : List String) (pairs : List (List String × Value)) (contents : Contents) :
    Option Contents :=
  match key.getLast? with
  | none => none
  | some last =>
    descend false (fun _ parent =>
      (assignAll pairs []).bind fun inner =>
        match Entries.find? last parent with
        | none => some (Entries.insert last (.tables [inner]) parent)
        | some (.tables all) => some (Entries.insert last (.tables (all ++ [inner])) parent)
        | some _ => none) key.dropLast .header contents

end Contents

/-- The pairs up to the next header, and what follows them. -/
def leadingPairs : List Line → List (List String × Value) × List Line
  | .pair key v :: rest =>
    let (pairs, rest) := leadingPairs rest
    ((key, v) :: pairs, rest)
  | rest => ([], rest)

/-- Go through the lines from a header on. The number bounds the headers. -/
def sections : Nat → List Line → Contents → Option Contents
  | 0, _, contents => some contents
  | n + 1, lines, contents =>
    match lines with
    | .header key :: rest =>
      let (pairs, rest) := leadingPairs rest
      (Contents.addTable key pairs contents).bind (sections n rest)
    | .arrayHeader key :: rest =>
      let (pairs, rest) := leadingPairs rest
      (Contents.addToArray key pairs contents).bind (sections n rest)
    | _ => some contents

/-- The table that some lines make. -/
def assemble (lines : List Line) : Option Contents :=
  let (pairs, rest) := leadingPairs lines
  (Contents.assignAll pairs []).bind (sections rest.length rest)

end Toml

end BudgetedRun
