import BudgetedRun.Toml.Assembly
import BudgetedRun.Toml.Quoted
import BudgetedRun.Toml.Scalar

/-!
# Reading TOML

From a text to its lines, and from there to one table. Arrays and tables in braces may go over
several lines, with comments, and may have a comma after the last item. At most `maxLevels` of them
lie within each other, and a key has at most so many parts. A number `bound` is more than the length
of the text that is still to read, and so ends no reading early.
-/

namespace BudgetedRun

namespace Toml

/-- How many arrays and tables in braces may lie within each other, and how many parts a key may
have. -/
def maxLevels : Nat := 80

namespace Read

/-- What follows spaces and tabs. -/
def skipSpaces (cs : List Char) : List Char := cs.dropWhile Quoted.isSpace

/-- What follows a comment, up to the end of its line. A comment has no control characters but
tabs. -/
def comment? (cs : List Char) : Option (List Char) :=
  let isBreak (c : Char) : Bool := c == '\n' || c == '\r'
  if (cs.takeWhile fun c => !isBreak c).any Quoted.isControl then none
  else some (cs.dropWhile fun c => !isBreak c)

/-- What follows spaces, line breaks and comments, from within a comment or from outside one. -/
def gap? (inComment : Bool) : List Char → Option (List Char)
  | [] => some []
  | '\n' :: rest => gap? false rest
  | '\r' :: '\n' :: rest => gap? false rest
  | c :: rest =>
    if inComment then if Quoted.isControl c then none else gap? true rest
    else if Quoted.isSpace c then gap? false rest
    else if c = '#' then gap? true rest
    else some (c :: rest)

/-- What follows spaces, line breaks and comments. -/
def skipGap? (cs : List Char) : Option (List Char) := gap? false cs

/-- What follows the rest of a line, which may hold a comment. -/
def lineEnd? (cs : List Char) : Option (List Char) := do
  let cs ← match skipSpaces cs with
    | '#' :: rest => comment? rest
    | cs => some cs
  match cs with
  | [] => some []
  | '\n' :: rest => some rest
  | '\r' :: '\n' :: rest => some rest
  | _ => none

/-- A character of a key without quotes. -/
def isBare (c : Char) : Bool := c.isAlphanum || c == '_' || c == '-'

/-- One part of a key. -/
def part? (bound : Nat) (cs : List Char) : Option (String × List Char) :=
  match cs with
  | '"' :: rest => (Quoted.basic? bound rest).map fun (s, rest) => (String.ofList s, rest)
  | '\'' :: rest => (Quoted.literal? rest).map fun (s, rest) => (String.ofList s, rest)
  | _ =>
    match cs.takeWhile isBare with
    | [] => none
    | s => some (String.ofList s, cs.dropWhile isBare)

/-- A key with the spaces around it, of at most `parts` parts. -/
def keyFrom? (bound : Nat) : (parts : Nat) → List Char → Option (List String × List Char)
  | 0, _ => none
  | parts + 1, cs => do
    let (s, cs) ← part? bound (skipSpaces cs)
    match skipSpaces cs with
    | '.' :: cs => (keyFrom? bound parts cs).map fun (ss, cs) => (s :: ss, cs)
    | cs => some ([s], cs)

/-- A key with the spaces around it. -/
def key? (bound : Nat) (cs : List Char) : Option (List String × List Char) :=
  keyFrom? bound maxLevels cs

/-- What follows a mark. -/
def mark? (c : Char) : List Char → Option (List Char)
  | d :: rest => if d = c then some rest else none
  | [] => none

mutual

/-- A value in which at most `levels` arrays and tables lie within each other. The first number
bounds the calls within each other, of which there are at most two for a character. -/
def value? : (fuel levels : Nat) → List Char → Option (Value × List Char)
  | 0, _, _ => none
  | n + 1, levels, cs =>
    match cs with
    | '[' :: rest =>
      if levels = 0 then none
      else (items? n (levels - 1) rest).map fun (vs, rest) => (.array vs, rest)
    | '\x7b' :: rest =>
      if levels = 0 then none
      else do
        let (pairs, rest) ← pairs? n (levels - 1) rest
        let contents ← Contents.assignAll pairs []
        some (.table .inline contents, rest)
    | '"' :: _ => (Quoted.read? n cs).map fun (s, rest) => (.string s, rest)
    | '\'' :: _ => (Quoted.read? n cs).map fun (s, rest) => (.string s, rest)
    | _ =>
      let (word, rest) := Scalar.split cs
      (Scalar.read? word).map fun v => (v, rest)

def items? : (fuel levels : Nat) → List Char → Option (List Value × List Char)
  | 0, _, _ => none
  | n + 1, levels, cs => do
    match ← skipGap? cs with
    | ']' :: rest => some ([], rest)
    | cs =>
      let (v, cs) ← value? n levels cs
      match ← skipGap? cs with
      | ']' :: rest => some ([v], rest)
      | ',' :: rest => (items? n levels rest).map fun (vs, rest) => (v :: vs, rest)
      | _ => none

/-- The keys and values of a table in braces, up to its end. -/
def pairs? : (fuel levels : Nat) → List Char → Option (List (List String × Value) × List Char)
  | 0, _, _ => none
  | n + 1, levels, cs => do
    match ← skipGap? cs with
    | '\x7d' :: rest => some ([], rest)
    | cs =>
      let (key, cs) ← key? n cs
      let cs ← mark? '=' (← skipGap? cs)
      let (v, cs) ← value? n levels (← skipGap? cs)
      match ← skipGap? cs with
      | '\x7d' :: rest => some ([(key, v)], rest)
      | ',' :: rest => (pairs? n levels rest).map fun (ps, rest) => ((key, v) :: ps, rest)
      | _ => none

end

/-- A header or a pair at the front of a text, and what follows its line. -/
def line? (bound : Nat) (cs : List Char) : Option (Line × List Char) :=
  match cs with
  | '[' :: '[' :: rest => do
    let (key, rest) ← key? bound rest
    let rest ← mark? ']' rest
    let rest ← mark? ']' rest
    let rest ← lineEnd? rest
    some (.arrayHeader key, rest)
  | '[' :: rest => do
    let (key, rest) ← key? bound rest
    let rest ← mark? ']' rest
    let rest ← lineEnd? rest
    some (.header key, rest)
  | _ => do
    let (key, rest) ← key? bound cs
    let rest ← mark? '=' rest
    let (v, rest) ← value? (2 * bound) maxLevels (skipSpaces rest)
    let rest ← lineEnd? rest
    some (.pair key v, rest)

/-- The lines of a text. -/
def lines? : (bound : Nat) → List Char → Option (List Line)
  | 0, _ => none
  | n + 1, cs => do
    match ← skipGap? cs with
    | [] => some []
    | cs =>
      let (line, rest) ← line? (n + 1) cs
      (lines? n rest).map (line :: ·)

/-- A text without a byte order mark. -/
def skipMark : List Char → List Char
  | '\ufeff' :: rest => rest
  | cs => cs

end Read

/-- The table that a text holds. -/
def Contents.parse? (text : String) : Option Contents :=
  let cs := Read.skipMark text.toList
  (Read.lines? (cs.length + 1) cs).bind assemble

end Toml

end BudgetedRun
