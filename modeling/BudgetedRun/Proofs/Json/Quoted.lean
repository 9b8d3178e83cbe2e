import BudgetedRun.Json.Quoted

/-!
# Reading strings back

Every character is written between quotes as one piece. So what a string is written as is taken
apart into as many pieces as there are characters (`Quoted.pieces?_encode`), which put together are
the same characters (`Quoted.join?_map_piece`).
-/

namespace BudgetedRun

namespace Json

namespace Quoted

variable {c : Char} {cs rest : List Char}

/-- The characters that are escaped by a letter. -/
def isShort (c : Char) : Bool := c == '\n' || c == '\r' || c == '\t' || c == '\x08' || c == '\x0c'

/-- The piece as which a character is written. -/
def piece (c : Char) : Piece :=
  if c.toNat < 0x20 ∧ isShort c = false then .unit c.toNat else .scalar c

/-- The number of a control character is read back from the four digits it is escaped with. -/
theorem hex4?_hexDigit {n : Nat} (below : n < 0x20) :
    hex4? '0' '0' (hexDigit (n / 16)) (hexDigit (n % 16)) = some n := by
  have all : ∀ n : Fin 0x20,
      hex4? '0' '0' (hexDigit (n / 16)) (hexDigit (n % 16)) = some n.val := by decide
  exact all ⟨n, below⟩

/-- What follows a character that stands for itself is taken apart behind it. -/
theorem pieces?_cons (quote : c ≠ '"') (backslash : c ≠ '\\') (printed : ¬c.toNat < 0x20) :
    pieces? (c :: rest) = (pieces? rest).map (push (.scalar c)) := by
  rw [pieces?]
  · rw [if_neg]
    rintro (control | same)
    · exact printed control
    · exact backslash same
  · exact quote
  · intro a b c d rest same
    exact absurd same backslash
  · intro e rest same
    exact absurd same backslash

/-- A character is read back from what it is written as, in front of any text. -/
theorem pieces?_encodeChar (c : Char) (rest : List Char) :
    pieces? (encodeChar c rest) = (pieces? rest).map (push (piece c)) := by
  by_cases quote : c = '"'
  · subst quote
    rfl
  by_cases backslash : c = '\\'
  · subst backslash
    rfl
  by_cases newline : c = '\n'
  · subst newline
    rfl
  by_cases carriageReturn : c = '\r'
  · subst carriageReturn
    rfl
  by_cases tab : c = '\t'
  · subst tab
    rfl
  by_cases backspace : c = '\x08'
  · subst backspace
    rfl
  by_cases formFeed : c = '\x0c'
  · subst formFeed
    rfl
  have long : isShort c = false := by
    simp [isShort, newline, carriageReturn, tab, backspace, formFeed]
  simp only [encodeChar, quote, backslash, newline, carriageReturn, tab, backspace, formFeed,
    ↓reduceIte]
  by_cases control : c.toNat < 0x20
  · rw [if_pos control, pieces?, hex4?_hexDigit control, piece, if_pos ⟨control, long⟩]
    rfl
  · rw [if_neg control, pieces?_cons quote backslash control, piece,
      if_neg fun both => control both.1]

/-- What a string is written as is taken apart into a piece for each character. -/
theorem pieces?_encode (cs rest : List Char) :
    pieces? (encode cs ('"' :: rest)) = some (cs.map piece, rest) := by
  induction cs with
  | nil => rfl
  | cons c cs ih =>
      rw [encode, List.foldr_cons, pieces?_encodeChar]
      change (pieces? (encode cs ('"' :: rest))).map (push (piece c)) = _
      rw [ih]
      rfl

/-- A control character is no half of another one. -/
theorem join?_unit {code : Nat} (below : code < 0x20) (pieces : List Piece) :
    join? (.unit code :: pieces) = (join? pieces).map (Char.ofNat code :: ·) := by
  have high : isHigh code = false := by
    simp [isHigh]
    omega
  have low : isLow code = false := by
    simp [isLow]
    omega
  rcases pieces with _ | ⟨_ | _, _⟩ <;> simp [join?, high, low]

/-- The pieces of a string are put together to its characters. -/
theorem join?_map_piece (cs : List Char) : join? (cs.map piece) = some cs := by
  induction cs with
  | nil => rfl
  | cons c cs ih =>
      rw [List.map_cons, piece]
      split
      · rename_i control
        rw [join?_unit control.1, ih, Char.ofNat_toNat]
        rfl
      · rw [join?, ih]
        rfl

end Quoted

end Json

end BudgetedRun
