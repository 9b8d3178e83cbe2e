import BudgetedRun.Json.Quoted

/-!
# Strings in TOML

A string is written in one of four styles: basic, with escapes, or literal, without any, each on one
line or on several. `read?` reads all four. `render` takes the first style that shows the text as it
is, basic before literal and one line before several, and falls back to escapes.
-/

namespace BudgetedRun

namespace Toml

namespace Quoted

/-- A control character that cannot stand in a string as it is. The tab can. -/
def isControl (c : Char) : Bool := (c.toNat < 0x20 && c != '\t') || c.toNat == 0x7F

/-- A space or a tab. -/
def isSpace (c : Char) : Bool := c == ' ' || c == '\t'

def hex? (n : Nat) : List Char → Option Nat
  | [] => some n
  | c :: rest => (Json.Quoted.hexValue? c).bind fun d => hex? (16 * n + d) rest

/-- A character by the hexadecimal digits of its number, of which there are `count`, and what
follows them. -/
def byNumber? (count : Nat) (cs : List Char) : Option (Char × List Char) :=
  let digits := cs.take count
  if digits.length < count then none
  else
    match hex? 0 digits with
    | some n => if n.isValidChar then some (Char.ofNat n, cs.drop count) else none
    | none => none

/-- The character of an escape, after its backslash. -/
def escape? : List Char → Option (Char × List Char)
  | [] => none
  | c :: rest =>
    if c = '"' then some ('"', rest)
    else if c = '\\' then some ('\\', rest)
    else if c = 'b' then some ('\x08', rest)
    else if c = 't' then some ('\t', rest)
    else if c = 'n' then some ('\n', rest)
    else if c = 'f' then some ('\x0c', rest)
    else if c = 'r' then some ('\r', rest)
    else if c = 'e' then some ('\x1b', rest)
    else if c = 'x' then byNumber? 2 rest
    else if c = 'u' then byNumber? 4 rest
    else if c = 'U' then byNumber? 8 rest
    else none

/-- Put a character in front of what was read. -/
def push (c : Char) (r : List Char × List Char) : List Char × List Char := (c :: r.1, r.2)

/-- A basic string on one line, after its quote. The number bounds its length. -/
def basic? : Nat → List Char → Option (List Char × List Char)
  | 0, _ => none
  | _ + 1, [] => none
  | n + 1, c :: rest =>
    if c = '"' then some ([], rest)
    else if c = '\\' then
      (escape? rest).bind fun (e, rest) => (basic? n rest).map (push e)
    else if isControl c then none
    else (basic? n rest).map (push c)

/-- A literal string on one line, after its quote. -/
def literal? : List Char → Option (List Char × List Char)
  | [] => none
  | c :: rest =>
    if c = '\'' then some ([], rest)
    else if isControl c then none
    else (literal? rest).map (push c)

/-- The end of a string on several lines, at three quotes: up to two quotes before the last three
belong to the string. -/
def close? (quote : Char) (cs : List Char) : Option (List Char × List Char) :=
  let run := (cs.takeWhile (· == quote)).length
  if run < 3 then none
  else some (List.replicate (min run 5 - 3) quote, cs.drop (min run 5))

/-- The line break at which a text starts, and what follows it. -/
def lineBreak? : List Char → Option (List Char × List Char)
  | '\n' :: rest => some (['\n'], rest)
  | '\r' :: '\n' :: rest => some (['\r', '\n'], rest)
  | _ => none

/-- What follows spaces, tabs and line breaks. -/
def skipGap : List Char → List Char
  | '\r' :: '\n' :: rest => skipGap rest
  | c :: rest => if isSpace c || c == '\n' then skipGap rest else c :: rest
  | [] => []

/-- What follows a backslash at the end of a line, with all the blanks after it. -/
def joinLine? (cs : List Char) : Option (List Char) :=
  (lineBreak? (cs.dropWhile isSpace)).map fun (_, rest) => skipGap rest

/-- A basic string on several lines, after its quotes and a first line break. The number bounds its
length. -/
def basicLines? : Nat → List Char → Option (List Char × List Char)
  | 0, _ => none
  | n + 1, cs =>
    match close? '"' cs with
    | some r => some r
    | none =>
      match cs with
      | [] => none
      | c :: rest =>
        if c = '\\' then
          match joinLine? rest with
          | some rest => basicLines? n rest
          | none => (escape? rest).bind fun (e, rest) => (basicLines? n rest).map (push e)
        else
          match lineBreak? (c :: rest) with
          | some (line, rest) => (basicLines? n rest).map fun r => (line ++ r.1, r.2)
          | none => if isControl c then none else (basicLines? n rest).map (push c)

/-- A literal string on several lines, after its quotes and a first line break. The number bounds
its length. -/
def literalLines? : Nat → List Char → Option (List Char × List Char)
  | 0, _ => none
  | n + 1, cs =>
    match close? '\'' cs with
    | some r => some r
    | none =>
      match cs with
      | [] => none
      | c :: rest =>
        match lineBreak? (c :: rest) with
        | some (line, rest) => (literalLines? n rest).map fun r => (line ++ r.1, r.2)
        | none => if isControl c then none else (literalLines? n rest).map (push c)

/-- What follows a line break at the front, if there is one. -/
def skipLineBreak (cs : List Char) : List Char :=
  match lineBreak? cs with
  | some (_, rest) => rest
  | none => cs

/-- A string of any style, and what follows it. The number bounds its length. -/
def read? (n : Nat) (cs : List Char) : Option (String × List Char) :=
  let contents := match cs with
    | '"' :: '"' :: '"' :: rest => basicLines? n (skipLineBreak rest)
    | '"' :: rest => basic? n rest
    | '\'' :: '\'' :: '\'' :: rest => literalLines? n (skipLineBreak rest)
    | '\'' :: rest => literal? rest
    | _ => none
  contents.map fun (s, rest) => (String.ofList s, rest)

/-- The greatest number of times that a character follows itself. -/
def longestRun (quote : Char) : List Char → (run : Nat) → Nat
  | [], run => run
  | c :: rest, run => if c = quote then longestRun quote rest (run + 1)
    else max run (longestRun quote rest 0)

/-- The styles of a string. -/
inductive Style where
  | basic
  | literal
  | basicLines
  | literalLines
deriving DecidableEq

/-- The style in which a text is written. -/
def style (cs : List Char) : Style :=
  let control := cs.any fun c => c != '\n' && isControl c
  let newline := '\n' ∈ cs
  let backslash := '\\' ∈ cs
  let doubles := longestRun '"' cs 0
  let singles := longestRun '\'' cs 0
  if !control && !backslash && doubles == 0 && !newline then .basic
  else if !control && singles == 0 && !newline then .literal
  else if !control && !backslash && doubles ≤ 2 then .basicLines
  else if !control && singles ≤ 2 then .literalLines
  else if newline then .basicLines
  else .basic

/-- A hexadecimal digit in upper case. -/
def hexDigit (n : Nat) : Char := (Json.Quoted.hexDigit n).toUpper

/-- An escaped character. -/
def encodeControl (c : Char) : List Char :=
  if c = '\x08' then ['\\', 'b']
  else if c = '\t' then ['\\', 't']
  else if c = '\n' then ['\\', 'n']
  else if c = '\x0c' then ['\\', 'f']
  else if c = '\r' then ['\\', 'r']
  else if c = '"' then ['\\', '"']
  else if c = '\\' then ['\\', '\\']
  else if c.toNat < 0x20 ∨ c.toNat = 0x7F then
    ['\\', 'u', '0', '0', hexDigit (c.toNat / 16), hexDigit (c.toNat % 16)]
  else [c]

/-- The contents of a basic string on several lines: line breaks stand as they are, and so do
quotes, but for every third one. `quotes` is the number of quotes just before. -/
def encodeLines (quotes : Nat) : List Char → List Char
  | [] => []
  | c :: rest =>
    if c = '\n' then '\n' :: encodeLines 0 rest
    else if c = '"' then
      if quotes < 2 then '"' :: encodeLines (quotes + 1) rest
      else '\\' :: '"' :: encodeLines 0 rest
    else encodeControl c ++ encodeLines 0 rest

/-- The characters of a string in its style. On several lines the text starts on a line of its own,
if it has more than one. -/
def chars (cs : List Char) : List Char :=
  let start := if '\n' ∈ cs then ['\n'] else []
  match style cs with
  | .basic => '"' :: cs.flatMap encodeControl ++ ['"']
  | .literal => '\'' :: cs ++ ['\'']
  | .basicLines => ['"', '"', '"'] ++ start ++ encodeLines 0 cs ++ ['"', '"', '"']
  | .literalLines => ['\'', '\'', '\''] ++ start ++ cs ++ ['\'', '\'', '\'']

def render (s : String) : String := String.ofList (chars s.toList)

end Quoted

end Toml

end BudgetedRun
