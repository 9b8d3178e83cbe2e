import BudgetedRun.Json.Number
import BudgetedRun.Json.Quoted

/-!
# JSON tokens

The words of a JSON text. `Token.scan?` splits a text into them and skips the blanks between them;
which sequences of tokens are documents is a question for `Json/Reader`.
-/

namespace BudgetedRun

namespace Json

/-- A word of a JSON text. The inner `none` of a number or string marks one without a value. -/
inductive Token where
  | openArray
  | closeArray
  | openObject
  | closeObject
  | colon
  | comma
  | null
  | bool (b : Bool)
  | number (n : Option Number)
  | string (s : Option String)

namespace Token

/-- The four characters that may stand between tokens. -/
def isBlank (c : Char) : Bool := c == ' ' || c == '\n' || c == '\t' || c == '\r'

/-- The characters of which numbers consist. -/
def isNumeric (c : Char) : Bool :=
  c.isDigit || c == '-' || c == '+' || c == '.' || c == 'e' || c == 'E'

/-- A token of one character. -/
def ofPunctuation? : Char → Option Token
  | '[' => some .openArray
  | ']' => some .closeArray
  | '\x7b' => some .openObject
  | '\x7d' => some .closeObject
  | ':' => some .colon
  | ',' => some .comma
  | _ => none

/-- A word of letters. -/
def ofWord? (cs : List Char) : Option Token :=
  if cs = ['n', 'u', 'l', 'l'] then some .null
  else if cs = ['t', 'r', 'u', 'e'] then some (.bool true)
  else if cs = ['f', 'a', 'l', 's', 'e'] then some (.bool false)
  else none

/-- The first token of a text that does not start with a blank, and what follows it. -/
def first? (c : Char) (rest : List Char) : Option (Token × List Char) :=
  match ofPunctuation? c with
  | some t => some (t, rest)
  | none =>
    if c = '"' then
      (Quoted.pieces? rest).map fun (ps, rest) =>
        (.string ((Quoted.join? ps).map String.ofList), rest)
    else if c.isDigit || c == '-' then
      (Number.read? (c :: rest.takeWhile isNumeric)).map fun n =>
        (.number n, rest.dropWhile isNumeric)
    else
      (ofWord? (c :: rest.takeWhile Char.isAlpha)).map fun t => (t, rest.dropWhile Char.isAlpha)

/-- The tokens of a text of at most as many characters as the first number says. -/
def scanFrom? : Nat → List Char → Option (List Token)
  | _, [] => some []
  | 0, _ :: _ => none
  | fuel + 1, c :: rest =>
    if isBlank c then scanFrom? fuel rest
    else do
      let (t, rest) ← first? c rest
      let ts ← scanFrom? fuel rest
      some (t :: ts)

/-- The tokens of a text. -/
def scan? (cs : List Char) : Option (List Token) := scanFrom? cs.length cs

end Token

end Json

end BudgetedRun
