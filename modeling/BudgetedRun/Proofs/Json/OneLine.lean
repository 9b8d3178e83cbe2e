import BudgetedRun.Json.Printer
import BudgetedRun.Proofs.Json.RoundTrip

/-!
# Values on one line

Control characters are escaped between quotes (`Quoted.printable_encode`), and the compact layout
puts nothing between tokens. So the compact text of a value has no control character in it
(`Value.printable_compact`), and in particular no line break.
-/

namespace BudgetedRun

namespace Json

/-- There are no control characters among some characters. -/
def Printable (cs : List Char) : Prop := ∀ c ∈ cs, 0x20 ≤ c.toNat

variable {c : Char} {cs rest : List Char}

theorem printable_cons : Printable (c :: cs) ↔ 0x20 ≤ c.toNat ∧ Printable cs :=
  List.forall_mem_cons

/-- Two texts without control characters make one. -/
theorem printable_append : Printable (cs ++ rest) ↔ Printable cs ∧ Printable rest :=
  List.forall_mem_append

namespace Quoted

/-- The digits of an escape are no control characters. -/
theorem printable_hexDigit {n : Nat} (below : n < 16) : 0x20 ≤ (hexDigit n).toNat := by
  have all : ∀ n : Fin 16, 0x20 ≤ (hexDigit n).toNat := by decide
  exact all ⟨n, below⟩

/-- A character is written without control characters, even if it is one. -/
theorem printable_encodeChar (c : Char) (printable : Printable rest) :
    Printable (encodeChar c rest) := by
  have letter (e : Char) (printed : 0x20 ≤ e.toNat) : Printable ('\\' :: e :: rest) :=
    printable_cons.mpr ⟨by decide, printable_cons.mpr ⟨printed, printable⟩⟩
  rw [encodeChar]
  split
  · exact letter '"' (by decide)
  split
  · exact letter '\\' (by decide)
  split
  · exact letter 'n' (by decide)
  split
  · exact letter 'r' (by decide)
  split
  · exact letter 't' (by decide)
  split
  · exact letter 'b' (by decide)
  split
  · exact letter 'f' (by decide)
  split
  · rename_i control
    have high : 0x20 ≤ (hexDigit (c.toNat / 16)).toNat := printable_hexDigit (by omega)
    have low : 0x20 ≤ (hexDigit (c.toNat % 16)).toNat := printable_hexDigit (by omega)
    simp only [printable_cons, high, low, printable, and_true]
    decide
  · rename_i printed
    exact printable_cons.mpr ⟨Nat.not_lt.mp printed, printable⟩

/-- Whatever a string consists of, it is written without control characters. -/
theorem printable_encode (cs : List Char) (printable : Printable rest) :
    Printable (encode cs rest) := by
  induction cs with
  | nil => exact printable
  | cons c cs ih => exact printable_encodeChar c ih

/-- A quoted text has no control characters in it. -/
theorem printable_render (s : String) (printable : Printable rest) : Printable (render s rest) :=
  printable_cons.mpr ⟨by decide,
    printable_encode s.toList (printable_cons.mpr ⟨by decide, printable⟩)⟩

end Quoted

/-- What numbers are written with is no control character. -/
theorem Token.printed_of_isNumeric (numeric : isNumeric c = true) : 0x20 ≤ c.toNat := by
  simp only [isNumeric, Bool.or_eq_true, beq_iff_eq] at numeric
  rcases numeric with ((((digit | rfl) | rfl) | rfl) | rfl) | rfl
  · rw [Char.isDigit, Bool.and_eq_true, decide_eq_true_eq] at digit
    have low : 48 ≤ c.toNat := digit.1
    omega
  all_goals decide

/-- A whole number is written without control characters. -/
theorem Number.printable_render {n : Number} (whole : n.Whole) : Printable n.render := by
  obtain ⟨first, others, render, lead, numeric⟩ := Number.exists_render whole
  have start : Token.isNumeric first = true := by
    rcases Bool.or_eq_true_iff.mp lead with digit | sign
    · simp [Token.isNumeric, digit]
    · simp [Token.isNumeric, beq_iff_eq.mp sign]
  rw [render, printable_cons]
  exact ⟨Token.printed_of_isNumeric start, fun c member =>
    Token.printed_of_isNumeric (numeric c member)⟩

namespace Value

/-- In the compact layout no control character stands around a key. -/
theorem printable_keyChars (key : String) (printable : Printable rest) :
    Printable (keyChars .compact key rest) :=
  Quoted.printable_render key (printable_cons.mpr ⟨by decide, printable⟩)

mutual

/-- A value with whole numbers only is written without control characters. -/
theorem printable_chars {rest : List Char} (depth : Nat) (printable : Printable rest) :
    (v : Value) → v.Whole → Printable (chars .compact depth v rest)
  | .null, _ => by
    simp only [chars, printable_cons, printable, and_true]
    decide
  | .bool true, _ => by
    simp only [chars, printable_cons, printable, and_true]
    decide
  | .bool false, _ => by
    simp only [chars, printable_cons, printable, and_true]
    decide
  | .number n, whole => printable_append.mpr ⟨n.printable_render whole, printable⟩
  | .string s, _ => Quoted.printable_render s printable
  | .array [], _ => by
    simp only [chars, printable_cons, printable, and_true]
    decide
  | .array (v :: vs), whole => by
    obtain ⟨first, others⟩ := whole
    have close : Printable (']' :: rest) := printable_cons.mpr ⟨by decide, printable⟩
    have more := printable_moreItems (depth + 1) close vs others
    exact printable_cons.mpr ⟨by decide, printable_chars (depth + 1) more v first⟩
  | .object [], _ => by
    simp only [chars, printable_cons, printable, and_true]
    decide
  | .object ((key, v) :: ms), whole => by
    obtain ⟨first, others⟩ := whole
    have close : Printable ('\x7d' :: rest) := printable_cons.mpr ⟨by decide, printable⟩
    have more := printable_moreMembers (depth + 1) close ms others
    have member := printable_keyChars key (printable_chars (depth + 1) more v first)
    exact printable_cons.mpr ⟨by decide, member⟩

/-- In the compact layout an array has no control characters in it. -/
theorem printable_moreItems {rest : List Char} (depth : Nat) (printable : Printable rest) :
    (vs : List Value) → WholeItems vs → Printable (moreItems .compact depth vs rest)
  | [], _ => printable
  | v :: vs, whole => by
    obtain ⟨first, others⟩ := whole
    have more := printable_moreItems depth printable vs others
    exact printable_cons.mpr ⟨by decide, printable_chars depth more v first⟩

/-- In the compact layout an object has no control characters in it. -/
theorem printable_moreMembers {rest : List Char} (depth : Nat) (printable : Printable rest) :
    (ms : List (String × Value)) → WholeMembers ms → Printable (moreMembers .compact depth ms rest)
  | [], _ => printable
  | (key, v) :: ms, whole => by
    obtain ⟨first, others⟩ := whole
    have more := printable_moreMembers depth printable ms others
    have member := printable_keyChars key (printable_chars depth more v first)
    exact printable_cons.mpr ⟨by decide, member⟩

end

/-- The compact text of a value is one line. -/
theorem printable_compact {v : Value} (whole : v.Whole) : Printable v.compact.toList := by
  rw [compact, String.toList_ofList]
  exact printable_chars 0 (List.forall_mem_nil _) v whole

end Value

end Json

end BudgetedRun
