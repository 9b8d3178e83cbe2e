/-!
# White space

The characters that Unicode calls white space, and cutting them from both ends of a text. Ids are
checked and prompts are laid out after such a cut.
-/

namespace BudgetedRun

namespace Text

/-- The twenty-five characters with the Unicode property `White_Space`. -/
def isBlank (c : Char) : Bool :=
  let n := c.toNat
  (0x09 ≤ n && n ≤ 0x0D) || n == 0x20 || n == 0x85 || n == 0xA0 || n == 0x1680 ||
    (0x2000 ≤ n && n ≤ 0x200A) || n == 0x2028 || n == 0x2029 || n == 0x202F || n == 0x205F ||
    n == 0x3000

/-- A list of characters without the blanks at its two ends. -/
def trimChars (cs : List Char) : List Char :=
  ((cs.dropWhile isBlank).reverse.dropWhile isBlank).reverse

/-- A text without the blanks at its two ends. -/
def trim (s : String) : String :=
  String.ofList (trimChars s.toList)

/-- A text of blanks only, the empty text included. -/
def isAllBlank (s : String) : Bool :=
  s.toList.all isBlank

/-- Dropping the blanks in front leaves nothing exactly when there is nothing else. -/
theorem dropWhile_isBlank_eq_nil {cs : List Char} :
    cs.dropWhile isBlank = [] ↔ cs.all isBlank = true := by
  induction cs with
  | nil => simp
  | cons c cs ih => by_cases h : isBlank c = true <;> simp [h, ih]

/-- What stays after the cut in front does not start with a blank, so it is blank only if empty. -/
theorem all_isBlank_dropWhile {cs : List Char} :
    (cs.dropWhile isBlank).all isBlank = true ↔ cs.dropWhile isBlank = [] := by
  induction cs with
  | nil => simp
  | cons c cs ih =>
    by_cases hc : isBlank c = true
    · simpa [List.dropWhile_cons, hc] using ih
    · simp [hc]

/-- The cut leaves nothing exactly of a text that is all blank. -/
theorem trimChars_eq_nil_iff {cs : List Char} : trimChars cs = [] ↔ cs.all isBlank = true := by
  rw [trimChars, List.reverse_eq_nil_iff, dropWhile_isBlank_eq_nil, List.all_reverse,
    all_isBlank_dropWhile, dropWhile_isBlank_eq_nil]

end Text

end BudgetedRun
