import BudgetedRun.Proofs.Toml.Quoted
import BudgetedRun.Toml.Reader

/-!
# Reading TOML lines back

A text of lines is read to these lines (`Read.Reads`, with one law for each kind of line), where a
line gives a number or a string to a key of bare characters, or is the header of a table.
-/

namespace BudgetedRun

namespace Toml

open Text

namespace Scalar

variable {cs rest : List Char} {n : Nat}

/-- Digits without underscores are read as they are. -/
theorem digits?_digits (digits : ∀ c ∈ cs, c.isDigit = true) (fresh : Bool)
    (nonempty : fresh = true → cs ≠ []) : digits? Char.isDigit fresh cs = some cs := by
  induction cs generalizing fresh with
  | nil =>
      cases fresh with
      | false => rfl
      | true => exact absurd rfl (nonempty rfl)
  | cons c cs ih =>
      obtain ⟨digit, digits⟩ := List.forall_mem_cons.mp digits
      rw [digits?, if_pos digit, ih digits false (fun fresh => by cases fresh)]
      rfl

/-- A number is read back from its decimal digits. -/
theorem decimal?_toDigits (n : Nat) : decimal? (Nat.toDigits 10 n) = some n := by
  have lead : (decide ((Nat.toDigits 10 n).length > 1) && (Nat.toDigits 10 n).head? == some '0') =
      false := by
    rw [Bool.and_eq_false_imp]
    intro long
    exact beq_eq_false_iff_ne.mpr (first_toDigits (of_decide_eq_true long))
  rw [decimal?, digits?_digits (isDigit_toDigits n) true fun _ => Nat.toDigits_ne_nil]
  simp only [lead, Bool.false_eq_true, ↓reduceIte, Nat.ofDigitChars_ten_toDigits]

/-- Digits are not taken for a number with a sign or in another base. -/
theorem integer?_toDigits (n : Nat) : integer? (Nat.toDigits 10 n) = some (n : Int) := by
  have digit := isDigit_toDigits n
  have back := decimal?_toDigits n
  generalize Nat.toDigits 10 n = ds at digit back
  unfold integer?
  split
  · exact absurd (digit 'x' (List.mem_cons_of_mem _ List.mem_cons_self)) (by decide)
  · exact absurd (digit 'o' (List.mem_cons_of_mem _ List.mem_cons_self)) (by decide)
  · exact absurd (digit 'b' (List.mem_cons_of_mem _ List.mem_cons_self)) (by decide)
  · have bare : unsigned ds = (false, ds) := by
      unfold unsigned
      split
      · exact absurd (digit '-' List.mem_cons_self) (by decide)
      · exact absurd (digit '+' List.mem_cons_self) (by decide)
      · rfl
    rw [bare]
    simp only [back, Bool.false_eq_true, ↓reduceIte]
    rfl

/-- A whole number is read back. -/
theorem read?_toDigits (below : n < UInt64.size) :
    read? (Nat.toDigits 10 n) = some (.integer n) := by
  have fits : fits n = true := by
    simp only [UInt64.size] at below
    simp only [Scalar.fits, Bool.and_eq_true, decide_eq_true_eq]
    omega
  have other (letter : Char) (more : List Char) (no : letter.isDigit = false) :
      Nat.toDigits 10 n ≠ letter :: more := by
    intro same
    have digit := isDigit_toDigits n letter (same ▸ List.mem_cons_self)
    exact absurd (no.symm.trans digit) (by decide)
  rw [read?, if_neg (other _ _ rfl), if_neg (other _ _ rfl), integer?_toDigits]
  simp only [fits, ↓reduceIte]

/-- No digit ends a word. -/
theorem isEnd_of_isDigit {c : Char} (digit : c.isDigit = true) : isEnd c = false := by
  rw [← Bool.not_eq_true]
  intro ending
  simp only [isEnd, Bool.or_eq_true, beq_iff_eq, or_assoc] at ending
  rcases ending with rfl | rfl | rfl | rfl | rfl | rfl | rfl | rfl | rfl | rfl | rfl <;>
    exact absurd digit (by decide)

/-- Digits are taken off up to the end of their line. -/
theorem split_digits (digits : ∀ c ∈ cs, c.isDigit = true) (rest : List Char) :
    split (cs ++ '\n' :: rest) = (cs, '\n' :: rest) := by
  have within : ∀ c ∈ cs, (!isEnd c) = true := fun c member => by
    rw [isEnd_of_isDigit (digits c member), Bool.not_false]
  have stops : Stops (fun c => !isEnd c) ('\n' :: rest) := stops_cons rfl
  simp only [split, takeWhile_append within stops, dropWhile_append within stops]
  split
  · rename_i space
    cases space
  · rfl

end Scalar

namespace Read

open Quoted (isSpace)

variable {cs key rest shown : List Char} {v : Value} {lines : List Line} {n : Nat}

/-- A text shows a value on the rest of a line. -/
structure Shows (shown : List Char) (v : Value) : Prop where
  solid : ∃ first more, shown = first :: more ∧ isSpace first = false
  read : ∀ n levels rest, shown.length < n →
    value? n levels (shown ++ '\n' :: rest) = some (v, '\n' :: rest)

/-- The decimal digits of a number are read as that number wherever a value can stand. -/
theorem shows_toDigits (below : n < UInt64.size) :
    Shows (Nat.toDigits 10 n) (.integer n) := by
  have digits := isDigit_toDigits n
  have back := Scalar.read?_toDigits below
  have nonempty := Nat.toDigits_ne_nil (b := 10) (n := n)
  generalize Nat.toDigits 10 n = ds at digits back nonempty
  cases ds with
  | nil => exact absurd rfl nonempty
  | cons d ds =>
      have digit := digits d List.mem_cons_self
      refine ⟨⟨d, ds, rfl, ?_⟩, fun n levels rest bound => ?_⟩
      · have among := Scalar.isEnd_of_isDigit digit
        simp only [Scalar.isEnd, Bool.or_eq_false_iff] at among
        simp only [isSpace, Bool.or_eq_false_iff, among, and_self]
      · obtain ⟨n, rfl⟩ := Nat.exists_eq_add_one.mpr (Nat.zero_lt_of_lt bound)
        have other (letter : Char) (no : letter.isDigit = false) (more : List Char)
            (same : d :: ds ++ '\n' :: rest = letter :: more) : False := by
          rw [(List.cons.inj same).1, no] at digit
          cases digit
        rw [value?, Scalar.split_digits digits rest]
        · simp only [back, Option.map_some]
        · exact other '[' rfl
        · exact other '\x7b' rfl
        · exact other '"' rfl
        · exact other '\'' rfl

/-- A quoted text is read as that text wherever a value can stand. -/
theorem shows_chars (cs : List Char) : Shows (Quoted.chars cs) (.string (String.ofList cs)) := by
  obtain ⟨first, more, same, length, quote⟩ := Quoted.exists_chars cs
  refine ⟨⟨first, more, same, ?_⟩, fun n levels rest bound => ?_⟩
  · rcases quote with rfl | rfl <;> rfl
  · obtain ⟨n, rfl⟩ := Nat.exists_eq_add_one.mpr (Nat.zero_lt_of_lt bound)
    rw [same, List.length_cons] at bound
    have back : Quoted.read? n (Quoted.chars cs ++ '\n' :: rest) =
        some (String.ofList cs, '\n' :: rest) :=
      Quoted.read?_chars (by omega) (stops_cons rfl)
    rw [same, List.cons_append] at back ⊢
    rcases quote with rfl | rfl <;> rw [value?, back] <;> rfl

/-- A key that stands in a text without quotes. -/
structure IsBareKey (key : List Char) : Prop where
  nonempty : key ≠ []
  bare : ∀ c ∈ key, isBare c = true

/-- A bare character is none of those that have a meaning. -/
theorem ne_of_isBare {c mark : Char} (bare : isBare c = true) (other : isBare mark = false) :
    c ≠ mark := by
  rintro rfl
  exact absurd (bare.symm.trans other) (by decide)

/-- A bare key starts with a bare character. -/
theorem IsBareKey.exists_cons (of : IsBareKey key) :
    ∃ first more, key = first :: more ∧ isBare first = true := by
  cases key with
  | nil => exact absurd rfl of.nonempty
  | cons first more => exact ⟨first, more, rfl, of.bare first List.mem_cons_self⟩

/-- A key without quotes is read back. -/
theorem IsBareKey.part? (of : IsBareKey key) (stops : Stops isBare rest) (bound : Nat) :
    part? bound (key ++ rest) = some (String.ofList key, rest) := by
  have taken := takeWhile_append of.bare stops
  have left := dropWhile_append of.bare stops
  obtain ⟨first, more, rfl, bare⟩ := of.exists_cons
  rw [List.cons_append] at taken left ⊢
  rw [Read.part?]
  · simp only [taken, left]
  · intro _ same
    exact ne_of_isBare bare rfl (List.cons.inj same).1
  · intro _ same
    exact ne_of_isBare bare rfl (List.cons.inj same).1

/-- Nothing is skipped in front of anything but spaces. -/
theorem skipSpaces_cons {c : Char} (solid : isSpace c = false) :
    skipSpaces (c :: cs) = c :: cs :=
  List.dropWhile_cons_of_neg (Bool.not_eq_true _ ▸ solid)

/-- No character of a key without quotes is a space. -/
theorem isSpace_of_isBare {c : Char} (bare : isBare c = true) : isSpace c = false := by
  rw [isSpace, beq_eq_false_iff_ne.mpr (ne_of_isBare bare rfl),
    beq_eq_false_iff_ne.mpr (ne_of_isBare bare rfl), Bool.or_self]

/-- A bare key is read up to a mark that no key goes on with. -/
theorem IsBareKey.key? (of : IsBareKey key) {mark : Char} {more : List Char}
    (stops : Stops isBare rest) (last : skipSpaces rest = mark :: more) (single : mark ≠ '.')
    (bound : Nat) : key? bound (key ++ rest) = some ([String.ofList key], mark :: more) := by
  have part := of.part? stops bound
  obtain ⟨first, tail, rfl, bare⟩ := of.exists_cons
  rw [List.cons_append] at part ⊢
  rw [Read.key?, maxLevels, keyFrom?, skipSpaces_cons (isSpace_of_isBare bare), part]
  simp only [Option.bind_eq_bind, Option.bind_some, last]
  split
  · rename_i same
    exact absurd (List.cons.inj same).1 single
  · rfl

/-! ### Lines -/

/-- A text consists of lines. -/
def Reads (cs : List Char) (lines : List Line) : Prop :=
  ∀ bound, cs.length < bound → lines? bound cs = some lines

/-- An empty text has no lines. -/
theorem reads_nil : Reads [] [] := by
  intro bound room
  obtain ⟨bound, rfl⟩ := Nat.exists_eq_add_one.mpr room
  rfl

/-- A blank line is passed over. -/
theorem Reads.blank (reads : Reads cs lines) : Reads ('\n' :: cs) lines := by
  intro bound room
  obtain ⟨bound, rfl⟩ := Nat.exists_eq_add_one.mpr (Nat.zero_lt_of_lt room)
  exact reads (bound + 1) (Nat.lt_of_succ_lt room)

/-- The characters that may stand between lines. -/
def isGap (c : Char) : Bool := c == '\n' || c == '\r' || isSpace c || c == '#'

/-- Nothing is skipped in front of a text that does not start with a gap. -/
theorem skipGap?_of_stops (solid : Stops isGap cs) : skipGap? cs = some cs := by
  cases cs with
  | nil => rfl
  | cons c cs =>
      have other := solid c rfl
      simp only [isGap, Bool.or_eq_false_iff, beq_eq_false_iff_ne] at other
      obtain ⟨⟨⟨newline, carriageReturn⟩, space⟩, comment⟩ := other
      rw [skipGap?, gap?]
      · rw [space, if_neg Bool.false_ne_true, if_neg Bool.false_ne_true, if_neg comment]
      · exact newline
      · intro _ same
        exact absurd same carriageReturn

/-- No character of a key without quotes is in a gap. -/
theorem isGap_of_isBare {c : Char} (bare : isBare c = true) : isGap c = false := by
  have other (mark : Char) (no : isBare mark = false) : (c == mark) = false :=
    beq_eq_false_iff_ne.mpr (ne_of_isBare bare no)
  rw [isGap, isSpace_of_isBare bare, other _ rfl, other _ rfl, other _ rfl]
  rfl

/-- A line in front of others. -/
theorem Reads.cons {line : Line} (reads : Reads rest lines) (solid : Stops isGap cs)
    (shorter : rest.length < cs.length)
    (first : ∀ bound, cs.length < bound → line? bound cs = some (line, rest)) :
    Reads cs (line :: lines) := by
  intro bound room
  obtain ⟨bound, rfl⟩ := Nat.exists_eq_add_one.mpr (Nat.zero_lt_of_lt room)
  rw [lines?, skipGap?_of_stops solid]
  simp only [Option.bind_eq_bind, Option.bind_some]
  split
  · exact absurd shorter (Nat.not_lt_zero _)
  · rw [first _ room, Option.bind_some, reads bound (by omega)]
    rfl

/-- A line may end at once. -/
theorem lineEnd?_newline (rest : List Char) : lineEnd? ('\n' :: rest) = some rest := rfl

/-- A key with a value. -/
theorem Reads.pair (of : IsBareKey key) (shows : Shows shown v) (reads : Reads rest lines) :
    Reads (key ++ ' ' :: '=' :: ' ' :: (shown ++ '\n' :: rest))
      (.pair [String.ofList key] v :: lines) := by
  obtain ⟨first, tail, begins, bare⟩ := of.exists_cons
  refine reads.cons ?_ ?_ fun bound room => ?_
  · rw [begins]
    exact stops_cons (isGap_of_isBare bare)
  · simp only [List.length_append, List.length_cons]
    omega
  · have value : value? (2 * bound) maxLevels (skipSpaces (' ' :: (shown ++ '\n' :: rest))) =
        some (v, '\n' :: rest) := by
      obtain ⟨c, more, same, solid⟩ := shows.solid
      have skipped : skipSpaces (' ' :: (shown ++ '\n' :: rest)) = shown ++ '\n' :: rest := by
        rw [same]
        exact skipSpaces_cons solid
      rw [skipped]
      simp only [List.length_append, List.length_cons] at room
      exact shows.read _ _ _ (by omega)
    have named : key? bound (key ++ ' ' :: '=' :: ' ' :: (shown ++ '\n' :: rest)) =
        some ([String.ofList key], '=' :: ' ' :: (shown ++ '\n' :: rest)) :=
      of.key? (stops_cons rfl) rfl (by decide) bound
    have other (more : List Char) :
        key ++ ' ' :: '=' :: ' ' :: (shown ++ '\n' :: rest) ≠ '[' :: more := by
      rw [begins]
      exact fun same => ne_of_isBare bare rfl (List.cons.inj same).1
    rw [line?]
    · simp only [named, mark?, ↓reduceIte, value, lineEnd?_newline, Option.bind_eq_bind,
        Option.bind_some]
    · exact fun more => other _
    · exact other

/-- The header of a table. -/
theorem Reads.header (of : IsBareKey key) (reads : Reads rest lines) :
    Reads ('[' :: (key ++ ']' :: '\n' :: rest)) (.header [String.ofList key] :: lines) := by
  obtain ⟨first, tail, begins, bare⟩ := of.exists_cons
  refine reads.cons (stops_cons rfl) ?_ fun bound room => ?_
  · simp only [List.length_append, List.length_cons]
    omega
  · have named : key? bound (key ++ ']' :: '\n' :: rest) =
        some ([String.ofList key], ']' :: '\n' :: rest) :=
      of.key? (stops_cons rfl) rfl (by decide) bound
    rw [line?]
    · simp only [named, mark?, ↓reduceIte, lineEnd?_newline, Option.bind_eq_bind, Option.bind_some]
    · rw [begins]
      exact fun _ same => ne_of_isBare bare rfl (List.cons.inj same).1

end Read

end Toml

end BudgetedRun
