/-!
# Quoted strings

The text of a string between quotes. Reading happens in two steps: `pieces?` takes the text apart
up to the closing quote, and `join?` puts the pieces together, where the two halves of a character
above `U+FFFF` must follow one another. `encode` writes the contents of a string: quote, backslash
and the characters below the space are escaped and all else stands as it is.
-/

namespace BudgetedRun

namespace Json

namespace Quoted

/-- A part of a quoted text: a character, or the sixteen bits of a `\u` escape. -/
inductive Piece where
  | scalar (c : Char)
  | unit (code : Nat)

def hexValue? (c : Char) : Option Nat :=
  if c.isDigit then some (c.toNat - '0'.toNat)
  else if 'a' ≤ c ∧ c ≤ 'f' then some (c.toNat - 'a'.toNat + 10)
  else if 'A' ≤ c ∧ c ≤ 'F' then some (c.toNat - 'A'.toNat + 10)
  else none

def hex4? (a b c d : Char) : Option Nat := do
  let a ← hexValue? a
  let b ← hexValue? b
  let c ← hexValue? c
  let d ← hexValue? d
  some (((a * 16 + b) * 16 + c) * 16 + d)

/-- What a letter after a backslash stands for. -/
def escape? : Char → Option Char
  | '"' => some '"'
  | '\\' => some '\\'
  | '/' => some '/'
  | 'b' => some '\x08'
  | 'f' => some '\x0c'
  | 'n' => some '\n'
  | 'r' => some '\r'
  | 't' => some '\t'
  | _ => none

/-- Put a piece in front of what was read. -/
def push (p : Piece) (r : List Piece × List Char) : List Piece × List Char := (p :: r.1, r.2)

/-- Take a text apart up to its closing quote, and give what follows the quote. Characters below the
space must be escaped. -/
def pieces? : List Char → Option (List Piece × List Char)
  | [] => none
  | '"' :: rest => some ([], rest)
  | '\\' :: 'u' :: a :: b :: c :: d :: rest => do
    let code ← hex4? a b c d
    (pieces? rest).map (push (.unit code))
  | '\\' :: e :: rest => do
    let c ← escape? e
    (pieces? rest).map (push (.scalar c))
  | c :: rest => if c.toNat < 0x20 ∨ c = '\\' then none else (pieces? rest).map (push (.scalar c))

/-- The first half of a character above `U+FFFF`. -/
def isHigh (code : Nat) : Bool := 0xD800 ≤ code && code < 0xDC00

/-- The second half of a character above `U+FFFF`. -/
def isLow (code : Nat) : Bool := 0xDC00 ≤ code && code < 0xE000

/-- The characters of the pieces, unless a half is without its other half. -/
def join? : List Piece → Option (List Char)
  | [] => some []
  | .scalar c :: rest => (join? rest).map (c :: ·)
  | .unit high :: .unit low :: rest =>
    if isHigh high && isLow low then
      (join? rest).map (Char.ofNat (0x10000 + (high - 0xD800) * 0x400 + (low - 0xDC00)) :: ·)
    else if isHigh high || isLow high then none
    else (join? (.unit low :: rest)).map (Char.ofNat high :: ·)
  | .unit code :: rest =>
    if isHigh code || isLow code then none else (join? rest).map (Char.ofNat code :: ·)

/-- A hexadecimal digit in lower case. -/
def hexDigit (n : Nat) : Char :=
  if n < 10 then Char.ofNat ('0'.toNat + n) else Char.ofNat ('a'.toNat + n - 10)

/-- A character as it is written between quotes, in front of a text. -/
def encodeChar (c : Char) (rest : List Char) : List Char :=
  if c = '"' then '\\' :: '"' :: rest
  else if c = '\\' then '\\' :: '\\' :: rest
  else if c = '\n' then '\\' :: 'n' :: rest
  else if c = '\r' then '\\' :: 'r' :: rest
  else if c = '\t' then '\\' :: 't' :: rest
  else if c = '\x08' then '\\' :: 'b' :: rest
  else if c = '\x0c' then '\\' :: 'f' :: rest
  else if c.toNat < 0x20 then
    '\\' :: 'u' :: '0' :: '0' :: hexDigit (c.toNat / 16) :: hexDigit (c.toNat % 16) :: rest
  else c :: rest

/-- The contents of a string as they are written between quotes, in front of a text. -/
def encode (cs rest : List Char) : List Char := cs.foldr encodeChar rest

/-- A string between quotes, in front of a text. -/
def render (s : String) (rest : List Char) : List Char := '"' :: encode s.toList ('"' :: rest)

/-- What follows a character is written after it unchanged. -/
theorem encodeChar_append (c : Char) (rest more : List Char) :
    encodeChar c (rest ++ more) = encodeChar c rest ++ more := by
  grind [encodeChar]

/-- What follows some characters is written after them unchanged. -/
theorem encode_append (cs rest more : List Char) :
    encode cs (rest ++ more) = encode cs rest ++ more := by
  induction cs with
  | nil => rfl
  | cons c cs ih => exact (congrArg (encodeChar c) ih).trans (encodeChar_append c _ _)

/-- What a string is written as does not depend on what follows it. -/
theorem render_append (s : String) (rest more : List Char) :
    render s (rest ++ more) = render s rest ++ more :=
  congrArg ('"' :: ·) (encode_append s.toList ('"' :: rest) more)

end Quoted

end Json

end BudgetedRun
