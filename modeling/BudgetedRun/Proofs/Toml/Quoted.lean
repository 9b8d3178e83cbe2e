import BudgetedRun.Proofs.Text.Digits
import BudgetedRun.Toml.Quoted

/-!
# Reading TOML strings back

A text is read back from the style in which it is written (`Quoted.read?_chars`), in front of
anything but a further quote. In the styles on several lines this takes an account of the quotes in
a row: a string is over at the first three, so the quotes that belong to it come in rows of two at
most, or in one row with the three that end it (`Quoted.row_encodeLines`, `Quoted.row_literal`).
-/

namespace BudgetedRun

namespace Toml

namespace Quoted

open Text

variable {c quote : Char} {cs rest : List Char} {n before : Nat}

/-- How a character can stand in a basic string: by the marks of an escape, the first of which keeps
the backslash from joining lines, or as it is. -/
inductive Written (c : Char) : List Char → Prop where
  | escaped (mark : Char) (marks : List Char)
      (read : ∀ rest, escape? (mark :: (marks ++ rest)) = some (c, rest))
      (solid : isSpace mark = false ∧ mark ≠ '\n' ∧ mark ≠ '\r') :
      Written c ('\\' :: mark :: marks)
  | plain (special : c ≠ '"' ∧ c ≠ '\\' ∧ c ≠ '\n' ∧ c ≠ '\r') (printed : isControl c = false) :
      Written c [c]

/-- The number of a character is read back from its four digits. -/
theorem hex?_hexDigit {n : Nat} (below : n < 0x80) :
    hex? 0 ['0', '0', hexDigit (n / 16), hexDigit (n % 16)] = some n := by
  have all (n : Fin 0x80) :
      hex? 0 ['0', '0', hexDigit (n / 16), hexDigit (n % 16)] = some n.val := by
    decide +revert +kernel
  exact all ⟨n, below⟩

/-- A character is read back from the four digits of its number. -/
theorem byNumber?_hexDigit (below : c.toNat < 0x80) (rest : List Char) :
    byNumber? 4 ('0' :: '0' :: hexDigit (c.toNat / 16) :: hexDigit (c.toNat % 16) :: rest) =
      some (c, rest) := by
  have digits := hex?_hexDigit below
  have valid : c.toNat.isValidChar := c.valid
  simp only [byNumber?, List.take_succ_cons, List.take_zero, List.length_cons, List.length_nil,
    digits, valid, List.drop_succ_cons, List.drop_zero, Char.ofNat_toNat]
  rfl

/-- Each character stands in a basic string as it is escaped. -/
theorem written_encodeControl (c : Char) : Written c (encodeControl c) := by
  by_cases backspace : c = '\x08'
  · subst backspace
    exact .escaped 'b' [] (fun _ => rfl) (by decide)
  by_cases tab : c = '\t'
  · subst tab
    exact .escaped 't' [] (fun _ => rfl) (by decide)
  by_cases newline : c = '\n'
  · subst newline
    exact .escaped 'n' [] (fun _ => rfl) (by decide)
  by_cases formFeed : c = '\x0c'
  · subst formFeed
    exact .escaped 'f' [] (fun _ => rfl) (by decide)
  by_cases carriageReturn : c = '\r'
  · subst carriageReturn
    exact .escaped 'r' [] (fun _ => rfl) (by decide)
  by_cases double : c = '"'
  · subst double
    exact .escaped '"' [] (fun _ => rfl) (by decide)
  by_cases backslash : c = '\\'
  · subst backslash
    exact .escaped '\\' [] (fun _ => rfl) (by decide)
  simp only [encodeControl, backspace, tab, newline, formFeed, carriageReturn, double, backslash,
    ↓reduceIte]
  split
  · rename_i control
    exact .escaped 'u' _ (fun rest => byNumber?_hexDigit (by omega) rest) (by decide)
  · rename_i printed
    rw [not_or] at printed
    refine .plain ⟨double, backslash, newline, carriageReturn⟩ ?_
    simp [isControl, printed.1, printed.2]

/-- No character is written as nothing. -/
theorem Written.length_pos {written : List Char} (of : Written c written) :
    0 < written.length := by
  cases of <;> exact Nat.succ_pos _

/-! ### Strings on one line -/

/-- A character that is written in a basic string on one line is read back. -/
theorem Written.basic? {written : List Char} (of : Written c written) (n : Nat)
    (rest : List Char) :
    Quoted.basic? (n + 1) (written ++ rest) = (Quoted.basic? n rest).map (push c) := by
  cases of with
  | escaped mark marks read solid =>
      rw [List.cons_append, List.cons_append, Quoted.basic?, if_neg (by decide), if_pos rfl, read,
        Option.bind_some]
  | plain special printed =>
      rw [List.singleton_append, Quoted.basic?, if_neg special.1, if_neg special.2.1, if_neg]
      rw [printed]
      exact Bool.false_ne_true

/-- A text is read back from a basic string on one line. -/
theorem basic?_encoded (bound : cs.length < n) :
    basic? n (cs.flatMap encodeControl ++ '"' :: rest) = some (cs, rest) := by
  induction cs generalizing n with
  | nil =>
      obtain ⟨n, rfl⟩ := Nat.exists_eq_add_one.mpr bound
      rfl
  | cons c cs ih =>
      obtain ⟨n, rfl⟩ := Nat.exists_eq_add_one.mpr (Nat.zero_lt_of_lt bound)
      rw [List.flatMap_cons, List.append_assoc, (written_encodeControl c).basic?,
        ih (Nat.lt_of_succ_lt_succ bound)]
      rfl

/-- A text without quotes and control characters is read back from a literal string. -/
theorem literal?_append (unquoted : '\'' ∉ cs) (printed : ∀ c ∈ cs, isControl c = false) :
    literal? (cs ++ '\'' :: rest) = some (cs, rest) := by
  induction cs with
  | nil => rfl
  | cons c cs ih =>
      obtain ⟨other, unquoted⟩ := not_or.mp (mt List.mem_cons.mpr unquoted)
      obtain ⟨here, printed⟩ := List.forall_mem_cons.mp printed
      rw [List.cons_append, literal?, if_neg (Ne.symm other), here, ih unquoted printed]
      rfl

/-! ### Quotes in a row -/

/-- How many quotes a text starts with. -/
def row (quote : Char) (cs : List Char) : Nat := (cs.takeWhile (· == quote)).length

@[simp] theorem row_cons_self : row quote (quote :: cs) = row quote cs + 1 := by
  simp only [row, List.takeWhile_cons, beq_self_eq_true, ↓reduceIte, List.length_cons]

theorem row_cons_of_ne (other : c ≠ quote) : row quote (c :: cs) = 0 := by
  simp only [row, List.takeWhile_cons, beq_eq_false_iff_ne.mpr other, Bool.false_eq_true,
    ↓reduceIte, List.length_nil]

/-- A text that starts with another character does not close a string on several lines. -/
theorem row_lt_of_ne (other : c ≠ quote) : row quote (c :: cs) < 3 := by
  rw [row_cons_of_ne other]
  decide

/-- Some quotes in front of anything else are a row of so many. -/
theorem row_replicate (stops : Stops (· == quote) rest) :
    row quote (List.replicate n quote ++ rest) = n := by
  rw [row, takeWhile_append (by simp) stops, List.length_replicate]

/-- Fewer than three quotes in a row do not close a string on several lines. -/
theorem close?_eq_none (few : row quote cs < 3) : close? quote cs = none := if_pos few

/-- The end of a string, with the quotes in front of it. -/
theorem close?_replicate (few : n ≤ 2) (stops : Stops (· == quote) rest) :
    close? quote (List.replicate n quote ++ (quote :: quote :: quote :: rest)) =
      some (List.replicate n quote, rest) := by
  have whole : List.replicate n quote ++ (quote :: quote :: quote :: rest) =
      List.replicate (n + 3) quote ++ rest := by
    rw [← List.replicate_append_replicate, List.append_assoc]
    rfl
  have counted : (List.takeWhile (· == quote) (List.replicate (n + 3) quote ++ rest)).length =
      n + 3 := row_replicate stops
  have least : min (n + 3) 5 = n + 3 := by omega
  simp only [close?, whole, counted]
  rw [if_neg (by omega), least, List.drop_left' List.length_replicate]
  rfl

/-- What a character is written as does not start with a quote. -/
theorem Written.row_eq_zero {written : List Char} (of : Written c written) :
    row '"' (written ++ rest) = 0 := by
  cases of with
  | escaped => exact row_cons_of_ne (by decide)
  | plain special => exact row_cons_of_ne special.1

/-- In a string that has to be read on, a row of quotes is either the rest of the text, or it ends
before three of them are there. -/
theorem row_encodeLines (few : before ≤ 2) (cs rest : List Char) :
    (∃ k, before + k ≤ 2 ∧ cs = List.replicate k '"') ∨
      before + row '"' (encodeLines before cs ++ rest) ≤ 2 := by
  induction cs generalizing before with
  | nil => exact .inl ⟨0, few, rfl⟩
  | cons c cs ih =>
      by_cases newline : c = '\n'
      · subst newline
        refine .inr ?_
        simpa only [encodeLines, ↓reduceIte, List.cons_append, Nat.add_zero,
          row_cons_of_ne (by decide : '\n' ≠ '"')] using few
      by_cases double : c = '"'
      · subst double
        by_cases room : before < 2
        · simp only [encodeLines, if_neg newline, if_pos room, ↓reduceIte, List.cons_append,
            row_cons_self]
          rcases @ih (before + 1) room with ⟨k, total, rfl⟩ | total
          · exact .inl ⟨k + 1, by omega, List.replicate_succ.symm⟩
          · exact .inr (by omega)
        · refine .inr ?_
          simpa only [encodeLines, if_neg newline, if_neg room, ↓reduceIte, List.cons_append,
            Nat.add_zero, row_cons_of_ne (by decide : '\\' ≠ '"')] using few
      · refine .inr ?_
        rwa [encodeLines, if_neg newline, if_neg double, List.append_assoc,
          (written_encodeControl c).row_eq_zero]

/-- Up to two quotes in a row are written as they are. -/
theorem encodeLines_replicate (few : before + n ≤ 2) :
    encodeLines before (List.replicate n '"') = List.replicate n '"' := by
  induction n generalizing before with
  | zero => rfl
  | succ n ih =>
      rw [List.replicate_succ, encodeLines, if_neg (by decide), if_pos rfl, if_pos (by omega),
        ih (by omega)]

/-- The longest run is at least as long as the run before the text. -/
theorem le_longestRun (cs : List Char) (before : Nat) : before ≤ longestRun quote cs before := by
  induction cs generalizing before with
  | nil => exact Nat.le_refl _
  | cons c cs ih =>
      rw [longestRun]
      split
      · exact Nat.le_of_succ_le (ih (before + 1))
      · exact Nat.le_max_left ..

/-- A text with no run of a quote has no such quote. -/
theorem not_mem_of_longestRun (none : longestRun quote cs before = 0) : quote ∉ cs := by
  induction cs generalizing before with
  | nil => exact List.not_mem_nil
  | cons c cs ih =>
      rw [longestRun] at none
      split at none
      · have least : before + 1 ≤ longestRun quote cs (before + 1) := le_longestRun cs _
        omega
      · rename_i other
        have later : quote ∉ cs := @ih 0 (by omega)
        exact fun member => (List.mem_cons.mp member).elim (Ne.symm other) later

/-- The same for a text that is written as it is and has no three quotes in a row. -/
theorem row_literal (few : longestRun quote cs before ≤ 2) (rest : List Char) :
    (∃ k, before + k ≤ 2 ∧ cs = List.replicate k quote) ∨
      before + row quote (cs ++ rest) ≤ 2 := by
  induction cs generalizing before with
  | nil => exact .inl ⟨0, few, rfl⟩
  | cons c cs ih =>
      rw [longestRun] at few
      split at few
      · rename_i same
        subst same
        rw [List.cons_append, row_cons_self]
        rcases ih few with ⟨k, total, rfl⟩ | total
        · exact .inl ⟨k + 1, by omega, List.replicate_succ.symm⟩
        · exact .inr (by omega)
      · rename_i other
        rw [List.cons_append, row_cons_of_ne other]
        exact .inr (by omega)

/-! ### Strings on several lines -/

/-- No other character is a line break. -/
theorem lineBreak?_eq_none (newline : c ≠ '\n') (carriageReturn : c ≠ '\r') (rest : List Char) :
    lineBreak? (c :: rest) = none := by
  unfold lineBreak?
  split
  · rename_i same
    exact absurd (List.cons.inj same).1 newline
  · rename_i same
    exact absurd (List.cons.inj same).1 carriageReturn
  · rfl

/-- A basic string on several lines ends where its quotes close it. -/
theorem basicLines?_close (closed : close? '"' cs = some (before', rest)) :
    basicLines? (n + 1) cs = some (before', rest) := by
  cases cs <;> rw [basicLines?, closed]

/-- A line break in a basic string on several lines is read as it is. -/
theorem basicLines?_newline (n : Nat) (rest : List Char) :
    basicLines? (n + 1) ('\n' :: rest) = (basicLines? n rest).map (push '\n') := by
  rw [basicLines?, close?_eq_none]
  · rfl
  · exact row_lt_of_ne (by decide)

/-- Any other character in a basic string on several lines is read as it is. -/
theorem basicLines?_plain (few : row '"' (c :: rest) < 3) (backslash : c ≠ '\\')
    (newline : c ≠ '\n') (carriageReturn : c ≠ '\r') (printed : isControl c = false) :
    basicLines? (n + 1) (c :: rest) = (basicLines? n rest).map (push c) := by
  rw [basicLines?, close?_eq_none few, if_neg backslash,
    lineBreak?_eq_none newline carriageReturn, printed]
  rfl

/-- A character that is written in a basic string on several lines is read back. -/
theorem Written.basicLines? {written : List Char} (of : Written c written) (n : Nat)
    (rest : List Char) :
    Quoted.basicLines? (n + 1) (written ++ rest) = (Quoted.basicLines? n rest).map (push c) := by
  cases of with
  | escaped mark marks read solid =>
      have few : row '"' ('\\' :: mark :: (marks ++ rest)) < 3 := row_lt_of_ne (by decide)
      have alone : joinLine? (mark :: (marks ++ rest)) = none := by
        rw [joinLine?, List.dropWhile_cons_of_neg (by simp [solid.1]),
          lineBreak?_eq_none solid.2.1 solid.2.2]
        rfl
      rw [List.cons_append, List.cons_append, Quoted.basicLines?, close?_eq_none few, if_pos rfl,
        alone, read]
      rfl
  | plain special printed =>
      exact basicLines?_plain (row_lt_of_ne special.1) special.2.1 special.2.2.1 special.2.2.2
        printed

/-- A basic string on several lines is read to its end. The quotes just `before` have been read
already. -/
theorem basicLines?_encoded (few : before ≤ 2) (bound : cs.length < n)
    (stops : Stops (· == '"') rest) :
    basicLines? n (encodeLines before cs ++ '"' :: '"' :: '"' :: rest) = some (cs, rest) := by
  induction cs generalizing n before with
  | nil =>
      obtain ⟨n, rfl⟩ := Nat.exists_eq_add_one.mpr bound
      exact basicLines?_close (close?_replicate (n := 0) (by decide) stops)
  | cons c cs ih =>
      obtain ⟨n, rfl⟩ := Nat.exists_eq_add_one.mpr (Nat.zero_lt_of_lt bound)
      have shorter : cs.length < n := Nat.lt_of_succ_lt_succ bound
      rcases row_encodeLines few (c :: cs) ('"' :: '"' :: '"' :: rest) with
        ⟨k, total, same⟩ | going
      · rw [same, encodeLines_replicate total]
        exact basicLines?_close (close?_replicate (by omega) stops)
      by_cases newline : c = '\n'
      · subst newline
        rw [encodeLines, if_pos rfl, List.cons_append, basicLines?_newline, ih (by decide) shorter]
        rfl
      by_cases double : c = '"'
      · subst double
        simp only [encodeLines, if_neg newline, ↓reduceIte] at going ⊢
        split
        · rename_i room
          rw [if_pos room, List.cons_append] at going
          rw [List.cons_append, basicLines?_plain (by omega) (by decide) (by decide) (by decide)
            rfl, ih room shorter]
          rfl
        · have escaped : Written '"' ['\\', '"'] := .escaped '"' [] (fun _ => rfl) (by decide)
          exact (escaped.basicLines? n _).trans (congrArg _ (ih (Nat.zero_le 2) shorter))
      · rw [encodeLines, if_neg newline, if_neg double, List.append_assoc,
          (written_encodeControl c).basicLines?, ih (Nat.zero_le 2) shorter]
        rfl

/-- A literal string on several lines ends where its quotes close it. -/
theorem literalLines?_close (closed : close? '\'' cs = some r) :
    literalLines? (n + 1) cs = some r := by
  cases cs <;> rw [literalLines?, closed]

/-- A character in a literal string on several lines is read as it is. -/
theorem literalLines?_cons (few : row '\'' (c :: rest) < 3)
    (plain : c = '\n' ∨ isControl c = false) :
    literalLines? (n + 1) (c :: rest) = (literalLines? n rest).map (push c) := by
  rw [literalLines?, close?_eq_none few]
  rcases plain with rfl | printed
  · rfl
  · by_cases newline : c = '\n'
    · subst newline
      rfl
    · have carriageReturn : c ≠ '\r' := by
        rintro rfl
        cases printed
      rw [lineBreak?_eq_none newline carriageReturn, printed]
      rfl

/-- A literal string on several lines is read to its end. The quotes just `before` have been read
already. -/
theorem literalLines?_append (few : longestRun '\'' cs before ≤ 2) (bound : cs.length < n)
    (plain : ∀ c ∈ cs, c = '\n' ∨ isControl c = false) (stops : Stops (· == '\'') rest) :
    literalLines? n (cs ++ '\'' :: '\'' :: '\'' :: rest) = some (cs, rest) := by
  induction cs generalizing n before with
  | nil =>
      obtain ⟨n, rfl⟩ := Nat.exists_eq_add_one.mpr bound
      exact literalLines?_close (close?_replicate (n := 0) (by decide) stops)
  | cons c cs ih =>
      obtain ⟨n, rfl⟩ := Nat.exists_eq_add_one.mpr (Nat.zero_lt_of_lt bound)
      have shorter : cs.length < n := Nat.lt_of_succ_lt_succ bound
      obtain ⟨here, plain⟩ := List.forall_mem_cons.mp plain
      rcases row_literal few ('\'' :: '\'' :: '\'' :: rest) with ⟨k, total, same⟩ | going
      · rw [same]
        exact literalLines?_close (close?_replicate (by omega) stops)
      · have later : ∃ before, longestRun '\'' cs before ≤ 2 := by
          rw [longestRun] at few
          split at few
          · exact ⟨_, few⟩
          · exact ⟨0, Nat.le_trans (Nat.le_max_right ..) few⟩
        obtain ⟨before, few⟩ := later
        rw [List.cons_append] at going ⊢
        rw [literalLines?_cons (by omega) here, ih few shorter plain]
        rfl

/-! ### Strings of any style -/

/-- Nothing is skipped in front of a text that does not start with a line break. -/
theorem skipLineBreak_of_stops (stops : Stops (fun c => c == '\n' || c == '\r') cs) :
    skipLineBreak cs = cs := by
  cases cs with
  | nil => rfl
  | cons c cs =>
      have other := stops c rfl
      rw [Bool.or_eq_false_iff, beq_eq_false_iff_ne, beq_eq_false_iff_ne] at other
      rw [skipLineBreak, lineBreak?_eq_none other.1 other.2]

/-- The text of a string starts where it was put. -/
theorem skipLineBreak_start (stops : '\n' ∉ cs → Stops (fun c => c == '\n' || c == '\r') rest) :
    skipLineBreak ((if '\n' ∈ cs then ['\n'] else []) ++ rest) = rest := by
  split
  · rfl
  · rename_i none
    exact skipLineBreak_of_stops (stops none)

/-- A single line that is written between three quotes does not start with a line break. -/
theorem stops_encodeLines (single : '\n' ∉ cs) :
    Stops (fun c => c == '\n' || c == '\r') (encodeLines 0 cs ++ '"' :: rest) := by
  cases cs with
  | nil => exact stops_cons rfl
  | cons c cs =>
      have newline : c ≠ '\n' := fun same => single (same ▸ List.mem_cons_self)
      rw [encodeLines, if_neg newline]
      split
      · exact stops_cons rfl
      · generalize written : encodeControl c = marks
        cases written ▸ written_encodeControl c with
        | escaped => exact stops_cons rfl
        | plain special => exact stops_cons (by simp [special])

/-- A single line between three single quotes does not start with a line break. -/
theorem stops_literal (plain : ∀ c ∈ cs, c = '\n' ∨ isControl c = false) (single : '\n' ∉ cs) :
    Stops (fun c => c == '\n' || c == '\r') (cs ++ '\'' :: rest) := by
  cases cs with
  | nil => exact stops_cons rfl
  | cons c cs =>
      have newline : c ≠ '\n' := fun same => single (same ▸ List.mem_cons_self)
      have printed := (plain c List.mem_cons_self).resolve_left newline
      have carriageReturn : c ≠ '\r' := by
        rintro rfl
        cases printed
      exact stops_cons (by simp [newline, carriageReturn])

/-- Fewer than two quotes after the first make a basic string on one line. -/
theorem read?_basic (n : Nat) (few : row '"' cs < 2) :
    read? n ('"' :: cs) = (basic? n cs).map fun r => (String.ofList r.1, r.2) := by
  unfold read?
  split
  · rename_i same
    cases same
    rw [row_cons_self, row_cons_self] at few
    omega
  · rename_i same
    cases same
    rfl
  · rename_i same
    cases same
  · rename_i same
    cases same
  · rename_i none _ _
    exact absurd rfl (none cs)

/-- Fewer than two single quotes after the first make a literal string on one line. -/
theorem read?_literal (n : Nat) (few : row '\'' cs < 2) :
    read? n ('\'' :: cs) = (literal? cs).map fun r => (String.ofList r.1, r.2) := by
  unfold read?
  split
  · rename_i same
    cases same
  · rename_i same
    cases same
  · rename_i same
    cases same
    rw [row_cons_self, row_cons_self] at few
    omega
  · rename_i same
    cases same
    rfl
  · rename_i none
    exact absurd rfl (none cs)

/-- What a style asks of the texts that are read back from it. A basic string can hold any. -/
def Style.Holds (cs : List Char) : Style → Prop
  | .basic => True
  | .literal => '\'' ∉ cs ∧ ∀ c ∈ cs, isControl c = false
  | .basicLines => True
  | .literalLines => longestRun '\'' cs 0 ≤ 2 ∧ ∀ c ∈ cs, c = '\n' ∨ isControl c = false

/-- The style that is chosen for a text can hold it. -/
theorem holds_style (cs : List Char) : (style cs).Holds cs := by
  have plain : (cs.any fun c => c != '\n' && isControl c) = false →
      ∀ c ∈ cs, c = '\n' ∨ isControl c = false := by
    intro none c member
    rw [List.any_eq_false] at none
    by_cases newline : c = '\n'
    · exact .inl newline
    · simpa [newline] using none c member
  unfold style
  simp only [Bool.and_eq_true, beq_iff_eq, decide_eq_true_eq, Bool.not_eq_true',
    decide_eq_false_iff_not]
  split
  · trivial
  split
  · rename_i short
    refine ⟨not_mem_of_longestRun short.1.2, fun c member => ?_⟩
    exact (plain short.1.1 c member).resolve_left fun newline => short.2 (newline ▸ member)
  split
  · trivial
  split
  · rename_i long
    exact ⟨long.2, plain long.1⟩
  split <;> trivial

/-- A basic string on one line does not look like one on several lines. -/
theorem row_encoded (stops : Stops (· == '"') rest) :
    row '"' (cs.flatMap encodeControl ++ '"' :: rest) < 2 := by
  cases cs with
  | nil =>
      rw [List.flatMap_nil, List.nil_append, row_cons_self, row, stops.takeWhile]
      decide
  | cons c cs =>
      rw [List.flatMap_cons, List.append_assoc, (written_encodeControl c).row_eq_zero]
      decide

/-- A literal string on one line does not look like one on several lines. -/
theorem row_unquoted (unquoted : '\'' ∉ cs) (stops : Stops (· == '\'') rest) :
    row '\'' (cs ++ '\'' :: rest) < 2 := by
  cases cs with
  | nil =>
      rw [List.nil_append, row_cons_self, row, stops.takeWhile]
      decide
  | cons c cs =>
      have other : c ≠ '\'' := fun same => unquoted (same ▸ List.mem_cons_self)
      rw [List.cons_append, row_cons_of_ne other]
      decide

/-- A text does not get shorter when its characters are escaped. -/
theorem length_le_flatMap (cs : List Char) : cs.length ≤ (cs.flatMap encodeControl).length := by
  induction cs with
  | nil => exact Nat.le_refl _
  | cons c cs ih =>
      have some := (written_encodeControl c).length_pos
      rw [List.flatMap_cons, List.length_append, List.length_cons]
      omega

/-- A text does not get shorter when it is written on several lines. -/
theorem length_le_encodeLines (cs : List Char) (before : Nat) :
    cs.length ≤ (encodeLines before cs).length := by
  induction cs generalizing before with
  | nil => exact Nat.le_refl _
  | cons c cs ih =>
      have some := (written_encodeControl c).length_pos
      have zero := ih 0
      have next := ih (before + 1)
      rw [encodeLines]
      split
      · simpa using zero
      split
      · split
        · simpa using next
        · simpa using Nat.le_succ_of_le zero
      · rw [List.length_append, List.length_cons]
        omega

/-- A string is longer than its text, and starts with a quote of either kind. -/
theorem exists_chars (cs : List Char) :
    ∃ first more, chars cs = first :: more ∧ cs.length ≤ more.length ∧
      (first = '"' ∨ first = '\'') := by
  have encoded := length_le_flatMap cs
  have lines := length_le_encodeLines cs 0
  unfold chars
  cases style cs with
  | basic =>
      refine ⟨'"', _, rfl, ?_, .inl rfl⟩
      simp only [List.append_eq, List.length_append]
      omega
  | literal =>
      refine ⟨'\'', _, rfl, ?_, .inr rfl⟩
      simp only [List.append_eq, List.length_append]
      omega
  | basicLines =>
      refine ⟨'"', _, rfl, ?_, .inl rfl⟩
      simp only [List.append_eq, List.length_append]
      omega
  | literalLines =>
      refine ⟨'\'', _, rfl, ?_, .inr rfl⟩
      simp only [List.append_eq, List.length_append]
      omega

/-- **A text is read back.** Whatever style it is written in, it is read from in front of anything
but a quote. -/
theorem read?_chars (bound : cs.length < n)
    (stops : Stops (fun c => c == '"' || c == '\'') rest) :
    read? n (chars cs ++ rest) = some (String.ofList cs, rest) := by
  have double : Stops (· == '"') rest := stops.of_imp fun c same => by simp_all
  have single : Stops (· == '\'') rest := stops.of_imp fun c same => by simp_all
  have holds := holds_style cs
  unfold chars
  cases chosen : style cs with
  | basic =>
      simp only [List.append_assoc, List.cons_append, List.nil_append]
      rw [read?_basic n (row_encoded double), basic?_encoded bound]
      rfl
  | literal =>
      rw [chosen] at holds
      obtain ⟨unquoted, printed⟩ := holds
      simp only [List.append_assoc, List.cons_append, List.nil_append]
      rw [read?_literal n (row_unquoted unquoted single), literal?_append unquoted printed]
      rfl
  | basicLines =>
      simp only [List.append_assoc, List.cons_append, List.nil_append]
      rw [read?, skipLineBreak_start stops_encodeLines,
        basicLines?_encoded (by decide) bound double]
      rfl
  | literalLines =>
      rw [chosen] at holds
      obtain ⟨few, plain⟩ := holds
      simp only [List.append_assoc, List.cons_append, List.nil_append]
      rw [read?, skipLineBreak_start (stops_literal plain),
        literalLines?_append few bound plain single]
      rfl

end Quoted

end Toml

end BudgetedRun
