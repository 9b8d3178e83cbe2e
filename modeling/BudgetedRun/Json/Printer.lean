import BudgetedRun.Json.Quoted
import BudgetedRun.Json.Value

/-!
# Writing JSON

A value is written compactly, without any blanks, or indented by two spaces a level with each item
and each member on its own line. The two differ in a `Layout` only. Each part is written in front of
what follows it, so that a text is written once however deep its parts lie.
-/

namespace BudgetedRun

namespace Json

/-- Where blanks are put. -/
structure Layout where
  /-- What stands before an item at some depth, and before the bracket that closes that depth. -/
  lineBreak : Nat → List Char
  afterColon : List Char

namespace Layout

/-- No blanks at all. -/
def compact : Layout := ⟨fun _ => [], []⟩

/-- Each item on its own line, two spaces a level. -/
def indented : Layout := ⟨fun depth => '\n' :: List.replicate (2 * depth) ' ', [' ']⟩

end Layout

namespace Value

def keyChars (l : Layout) (key : String) (rest : List Char) : List Char :=
  Quoted.render key (':' :: (l.afterColon ++ rest))

mutual

/-- The characters of a value at some depth, in front of a text. -/
def chars (l : Layout) (depth : Nat) : Value → List Char → List Char
  | .null, rest => 'n' :: 'u' :: 'l' :: 'l' :: rest
  | .bool true, rest => 't' :: 'r' :: 'u' :: 'e' :: rest
  | .bool false, rest => 'f' :: 'a' :: 'l' :: 's' :: 'e' :: rest
  | .number n, rest => n.render ++ rest
  | .string s, rest => Quoted.render s rest
  | .array [], rest => '[' :: ']' :: rest
  | .array (v :: vs), rest =>
    '[' :: (l.lineBreak (depth + 1) ++ chars l (depth + 1) v
      (moreItems l (depth + 1) vs (l.lineBreak depth ++ ']' :: rest)))
  | .object [], rest => '\x7b' :: '\x7d' :: rest
  | .object ((key, v) :: ms), rest =>
    '\x7b' :: (l.lineBreak (depth + 1) ++ keyChars l key (chars l (depth + 1) v
      (moreMembers l (depth + 1) ms (l.lineBreak depth ++ '\x7d' :: rest))))

/-- The items of an array after the first one, each with a comma in front. -/
def moreItems (l : Layout) (depth : Nat) : List Value → List Char → List Char
  | [], rest => rest
  | v :: vs, rest => ',' :: (l.lineBreak depth ++ chars l depth v (moreItems l depth vs rest))

/-- The members of an object after the first one, each with a comma in front. -/
def moreMembers (l : Layout) (depth : Nat) : List (String × Value) → List Char → List Char
  | [], rest => rest
  | (key, v) :: ms, rest =>
    ',' :: (l.lineBreak depth ++ keyChars l key (chars l depth v (moreMembers l depth ms rest)))

end

/-- What follows a key is written after it unchanged. -/
theorem keyChars_append (l : Layout) (key : String) (rest more : List Char) :
    keyChars l key (rest ++ more) = keyChars l key rest ++ more := by
  simp only [keyChars, ← Quoted.render_append, List.cons_append, List.append_assoc]

mutual

/-- What a value is written as does not depend on what follows it. -/
theorem chars_append (l : Layout) (depth : Nat) (rest more : List Char) :
    (v : Value) → chars l depth v (rest ++ more) = chars l depth v rest ++ more
  | .null => by simp [chars]
  | .bool true => by simp [chars]
  | .bool false => by simp [chars]
  | .number _ => by simp [chars]
  | .string s => by simp [chars, Quoted.render_append]
  | .array [] => by simp [chars]
  | .array (v :: vs) => by
    simp only [chars, ← chars_append l (depth + 1) _ more v,
      ← moreItems_append l (depth + 1) _ more vs, List.cons_append, List.append_assoc]
  | .object [] => by simp [chars]
  | .object ((key, v) :: ms) => by
    simp only [chars, ← keyChars_append, ← chars_append l (depth + 1) _ more v,
      ← moreMembers_append l (depth + 1) _ more ms, List.cons_append, List.append_assoc]

/-- What follows the items of an array is written after them unchanged. -/
theorem moreItems_append (l : Layout) (depth : Nat) (rest more : List Char) :
    (vs : List Value) → moreItems l depth vs (rest ++ more) = moreItems l depth vs rest ++ more
  | [] => by simp [moreItems]
  | v :: vs => by
    simp only [moreItems, ← chars_append l depth _ more v, ← moreItems_append l depth _ more vs,
      List.cons_append, List.append_assoc]

/-- What follows the members of an object is written after them unchanged. -/
theorem moreMembers_append (l : Layout) (depth : Nat) (rest more : List Char) :
    (ms : List (String × Value)) →
      moreMembers l depth ms (rest ++ more) = moreMembers l depth ms rest ++ more
  | [] => by simp [moreMembers]
  | (key, v) :: ms => by
    simp only [moreMembers, ← keyChars_append, ← chars_append l depth _ more v,
      ← moreMembers_append l depth _ more ms, List.cons_append, List.append_assoc]

end

def compact (v : Value) : String := String.ofList (v.chars .compact 0 [])

/-- The text of a value with each item and member on its own line. -/
def indented (v : Value) : String := String.ofList (v.chars .indented 0 [])

end Value

end Json

end BudgetedRun
