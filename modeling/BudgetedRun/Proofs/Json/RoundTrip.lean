import BudgetedRun.Json.Printer
import BudgetedRun.Json.Record
import BudgetedRun.Proofs.Json.Quoted
import BudgetedRun.Proofs.Text.Digits

/-!
# Reading values back

A value all of whose numbers are whole ones is read back from what it is written as, compactly or
indented (`Document.parse?_compact`, `Document.parse?_indented`). Reading is followed in its two
steps: the text is split into the tokens of the value (`Value.scans_chars`), and these make up the
document that shows it (`Document.read_tokens`).
-/

namespace BudgetedRun

namespace Json

open Text

namespace Numeral

variable {ds : List Char}

/-- A run of digits is read to its end. -/
theorem digits1?_digits (digits : ∀ c ∈ ds, c.isDigit = true) (nonempty : ds ≠ []) :
    digits1? ds = some (ds, []) := by
  have taken := takeWhile_append digits stops_nil
  have dropped := dropWhile_append digits stops_nil
  rw [List.append_nil] at taken dropped
  rw [digits1?, taken, dropped]
  cases ds with
  | nil => exact absurd rfl nonempty
  | cons d ds => rfl

/-- Digits are a numeral, also with a sign, unless there is a zero in front of others. -/
theorem read?_digits (digits : ∀ c ∈ ds, c.isDigit = true) (nonempty : ds ≠ [])
    (first : 1 < ds.length → ds.head? ≠ some '0') :
    read? ds = some ⟨false, ds, none, none⟩ ∧
      read? ('-' :: ds) = some ⟨true, ds, none, none⟩ := by
  have lead : (decide (1 < ds.length) && ds.head? == some '0') = false := by
    rw [Bool.and_eq_false_imp]
    intro long
    exact beq_eq_false_iff_ne.mpr (first (of_decide_eq_true long))
  have unsigned : ∀ rest, ds = '-' :: rest → False := by
    rintro rest rfl
    exact absurd (digits '-' List.mem_cons_self) (by decide)
  constructor
  · rw [read?]
    · simp only [digits1?_digits digits nonempty, lead]
      rfl
    · exact unsigned
  · rw [read?]
    simp only [digits1?_digits digits nonempty, lead]
    rfl

end Numeral

namespace Number

/-- A whole number. -/
def Whole : Number → Prop
  | natural _ => True
  | negative _ => True
  | float _ => False

/-- Digits that make up a number of 64 bits are read as this number. -/
theorem ofNumeral?_natural {ds : List Char} {n : UInt64} (value : Numeral.value ds = n.toNat) :
    ofNumeral? ⟨false, ds, none, none⟩ = some (natural n) := by
  have fits : Numeral.value ds < UInt64.size := value ▸ n.toNat_lt
  have same : UInt64.ofNatLT (Numeral.value ds) fits = n := UInt64.toNat_inj.mp value
  simp only [ofNumeral?]
  rw [if_neg Bool.false_ne_true, dif_pos fits, same]

/-- Digits with a sign in front are read as a negative number, if it has 64 bits. -/
theorem ofNumeral?_negative {ds : List Char} {below : Fin 0x8000000000000000}
    (value : Numeral.value ds = below.val + 1) :
    ofNumeral? ⟨true, ds, none, none⟩ = some (negative below) := by
  have fits : 0 < Numeral.value ds ∧ Numeral.value ds ≤ 0x8000000000000000 := by omega
  have same : Fin.mk (Numeral.value ds - 1) (by omega) = below :=
    Fin.ext (Nat.sub_eq_of_eq_add value)
  simp only [ofNumeral?, ↓reduceIte]
  rw [dif_pos fits, same]

/-- A whole number is read back. -/
theorem read?_render {n : Number} (whole : n.Whole) : read? n.render = some (some n) := by
  have numeral (n : Nat) := Numeral.read?_digits (isDigit_toDigits n) Nat.toDigits_ne_nil
    first_toDigits
  cases n with
  | natural n =>
      rw [read?, render, (numeral n.toNat).1, Option.map_some,
        ofNumeral?_natural Nat.ofDigitChars_ten_toDigits]
  | negative below =>
      rw [read?, render, (numeral (below + 1)).2, Option.map_some,
        ofNumeral?_negative Nat.ofDigitChars_ten_toDigits]
  | float x => exact whole.elim

/-- A whole number starts with a digit or a sign, and consists of nothing but numeric characters. -/
theorem exists_render {n : Number} (whole : n.Whole) :
    ∃ c cs, n.render = c :: cs ∧ (c.isDigit || c == '-') = true ∧
      ∀ d ∈ cs, Token.isNumeric d = true := by
  have numeric : ∀ n, ∀ d ∈ Nat.toDigits 10 n, Token.isNumeric d = true := by
    intro n d member
    simp [Token.isNumeric, isDigit_toDigits n d member]
  cases n with
  | natural n =>
      rw [render]
      cases digits : Nat.toDigits 10 n.toNat with
      | nil => exact absurd digits Nat.toDigits_ne_nil
      | cons d ds =>
          have digit := isDigit_toDigits n.toNat
          have all := numeric n.toNat
          rw [digits] at digit all
          exact ⟨d, ds, rfl, by rw [digit d List.mem_cons_self, Bool.true_or],
            (List.forall_mem_cons.mp all).2⟩
  | negative below => exact ⟨'-', _, rfl, rfl, numeric _⟩
  | float x => exact whole.elim

end Number

namespace Token

/-- Some characters are split into some tokens, however many more characters there may be. -/
def Scans (cs : List Char) (ts : List Token) : Prop :=
  ∀ fuel, cs.length ≤ fuel → scanFrom? fuel cs = some ts

namespace Scans

variable {c : Char} {cs rest rest' : List Char} {t : Token} {ts : List Token}

/-- A text with nothing in it has no tokens. -/
theorem nil : Scans [] [] := by
  intro fuel _
  rw [scanFrom?]

/-- A blank in front is skipped. -/
theorem blank (skipped : isBlank c = true) (scans : Scans rest ts) : Scans (c :: rest) ts := by
  intro fuel enough
  cases fuel with
  | zero => cases enough
  | succ fuel =>
      rw [scanFrom?, if_pos skipped]
      exact scans fuel (Nat.le_of_succ_le_succ enough)

/-- Blanks in front are skipped. -/
theorem blanks (skipped : ∀ c ∈ cs, isBlank c = true) (scans : Scans rest ts) :
    Scans (cs ++ rest) ts := by
  induction cs with
  | nil => exact scans
  | cons c cs ih =>
      obtain ⟨first, later⟩ := List.forall_mem_cons.mp skipped
      exact .blank first (ih later)

/-- A token is found where it starts, and the rest of the text after it. -/
theorem token (kept : isBlank c = false) (first : first? c rest = some (t, rest'))
    (shorter : rest'.length ≤ rest.length) (scans : Scans rest' ts) :
    Scans (c :: rest) (t :: ts) := by
  intro fuel enough
  cases fuel with
  | zero => cases enough
  | succ fuel =>
      have enough' := Nat.le_trans shorter (Nat.le_of_succ_le_succ enough)
      rw [scanFrom?, if_neg (Bool.not_eq_true _ ▸ kept), first]
      simp only [Option.bind_eq_bind, Option.bind_some, scans fuel enough']

/-- A mark is a token by itself. -/
theorem punctuation (kept : isBlank c = false) (mark : ofPunctuation? c = some t)
    (scans : Scans rest ts) : Scans (c :: rest) (t :: ts) := by
  refine .token kept ?_ (Nat.le_refl _) scans
  rw [first?, mark]

/-- A quoted text is found as one token, with what is quoted. -/
theorem string (s : String) (scans : Scans rest ts) :
    Scans (Quoted.render s rest) (.string (some s) :: ts) := by
  have first :
      first? '"' (Quoted.encode s.toList ('"' :: rest)) = some (.string (some s), rest) := by
    have plain : ofPunctuation? '"' = none := rfl
    simp only [first?, plain, ↓reduceIte, Quoted.pieces?_encode, Option.map_some,
      Quoted.join?_map_piece, String.ofList_toList]
  refine .token rfl first ?_ scans
  have split := Quoted.encode_append s.toList ['"'] rest
  rw [List.singleton_append] at split
  rw [split, List.length_append]
  exact Nat.le_add_left _ _

/-- A whole number is found as one token, if the text does not go on as a number. -/
theorem number {n : Number} (whole : n.Whole) (stops : Stops isNumeric rest)
    (scans : Scans rest ts) : Scans (n.render ++ rest) (.number (some n) :: ts) := by
  obtain ⟨c, cs, render, lead, numeric⟩ := Number.exists_render whole
  rw [render, List.cons_append]
  have plain : ofPunctuation? c = none := by
    unfold ofPunctuation?
    split <;> first | rfl | cases lead
  have kept : isBlank c = false := by
    rw [isBlank, Bool.eq_false_iff]
    intro blank
    simp only [Bool.or_eq_true, beq_iff_eq] at blank
    obtain ((rfl | rfl) | rfl) | rfl := blank <;> cases lead
  have quote : c ≠ '"' := by
    rintro rfl
    cases lead
  refine .token kept ?_ ?_ scans
  · rw [first?, plain]
    simp only
    rw [if_neg quote, if_pos lead, takeWhile_append numeric stops, dropWhile_append numeric stops,
      ← render, Number.read?_render whole]
    rfl
  · rw [List.length_append]
    exact Nat.le_add_left _ _

/-- A word is found as one token, if the text does not go on with a letter. -/
theorem word (c : Char) (cs : List Char) (first : c ∈ ['n', 't', 'f'])
    (letters : cs.all Char.isAlpha = true) (known : ofWord? (c :: cs) = some t)
    (stops : Stops Char.isAlpha rest) (scans : Scans rest ts) :
    Scans (c :: (cs ++ rest)) (t :: ts) := by
  have letters := List.all_eq_true.mp letters
  obtain ⟨kept, plain, quote, lead⟩ : isBlank c = false ∧ ofPunctuation? c = none ∧ c ≠ '"' ∧
      (c.isDigit || c == '-') = false := by
    simp only [List.mem_cons, List.not_mem_nil, or_false] at first
    rcases first with rfl | rfl | rfl <;> decide
  refine .token kept ?_ ?_ scans
  · rw [first?, plain]
    simp only
    rw [if_neg quote, if_neg (Bool.not_eq_true _ ▸ lead), takeWhile_append letters stops,
      dropWhile_append letters stops, known]
    rfl
  · rw [List.length_append]
    exact Nat.le_add_left _ _

end Scans

end Token

namespace Layout

/-- A layout puts nothing but blanks between the tokens. -/
structure Blank (l : Layout) : Prop where
  lineBreak : ∀ depth, ∀ c ∈ l.lineBreak depth, Token.isBlank c = true
  afterColon : ∀ c ∈ l.afterColon, Token.isBlank c = true

theorem blank_compact : compact.Blank := ⟨fun _ => List.forall_mem_nil _, List.forall_mem_nil _⟩

/-- The indented layout puts nothing but blanks between tokens. -/
theorem blank_indented : indented.Blank := by
  constructor
  · intro depth c member
    rcases List.mem_cons.mp member with rfl | member
    · rfl
    · rw [List.eq_of_mem_replicate member]
      rfl
  · exact List.forall_mem_singleton.mpr rfl

end Layout

namespace Value

mutual

/-- All numbers in a value are whole. -/
def Whole : Value → Prop
  | .null => True
  | .bool _ => True
  | .number n => n.Whole
  | .string _ => True
  | .array items => WholeItems items
  | .object members => WholeMembers members

def WholeItems : List Value → Prop
  | [] => True
  | v :: vs => v.Whole ∧ WholeItems vs

def WholeMembers : List (String × Value) → Prop
  | [] => True
  | (_, v) :: ms => v.Whole ∧ WholeMembers ms

end

mutual

def decideWhole : (v : Value) → Decidable v.Whole
  | .null => isTrue trivial
  | .bool _ => isTrue trivial
  | .number (.natural _) => isTrue trivial
  | .number (.negative _) => isTrue trivial
  | .number (.float _) => isFalse id
  | .string _ => isTrue trivial
  | .array items => decideWholeItems items
  | .object members => decideWholeMembers members

def decideWholeItems : (items : List Value) → Decidable (WholeItems items)
  | [] => isTrue trivial
  | v :: vs => @instDecidableAnd _ _ (decideWhole v) (decideWholeItems vs)

def decideWholeMembers : (members : List (String × Value)) → Decidable (WholeMembers members)
  | [] => isTrue trivial
  | (_, v) :: ms => @instDecidableAnd _ _ (decideWhole v) (decideWholeMembers ms)

end

instance : DecidablePred Whole := decideWhole

/-- The numbers in an array are whole if those of its items are. -/
theorem wholeItems_of_forall {items : List Value} (whole : ∀ v ∈ items, v.Whole) :
    WholeItems items := by
  induction items with
  | nil => exact trivial
  | cons v vs ih =>
      obtain ⟨first, others⟩ := List.forall_mem_cons.mp whole
      exact ⟨first, ih others⟩

/-- The numbers in an object are whole if those of its members are. -/
theorem wholeMembers_of_forall {members : List (String × Value)}
    (whole : ∀ m ∈ members, m.2.Whole) : WholeMembers members := by
  induction members with
  | nil => exact trivial
  | cons m ms ih =>
      obtain ⟨first, others⟩ := List.forall_mem_cons.mp whole
      exact ⟨first, ih others⟩

/-- An option is written without broken numbers if its value is. -/
theorem whole_ofOption {α : Type} (write : α → Value) (whole : ∀ a, (write a).Whole)
    (option : Option α) : (ofOption write option).Whole := by
  cases option with
  | none => exact trivial
  | some a => exact whole a

mutual

/-- The tokens of a value, in front of others. -/
def tokens : Value → List Token → List Token
  | .null, rest => .null :: rest
  | .bool b, rest => .bool b :: rest
  | .number n, rest => .number (some n) :: rest
  | .string s, rest => .string (some s) :: rest
  | .array [], rest => .openArray :: .closeArray :: rest
  | .array (v :: vs), rest => .openArray :: tokens v (itemTokens vs (.closeArray :: rest))
  | .object [], rest => .openObject :: .closeObject :: rest
  | .object ((key, v) :: ms), rest =>
    .openObject :: .string (some key) :: .colon ::
      tokens v (memberTokens ms (.closeObject :: rest))

/-- The tokens of the items after the first one. -/
def itemTokens : List Value → List Token → List Token
  | [], rest => rest
  | v :: vs, rest => .comma :: tokens v (itemTokens vs rest)

/-- The tokens of the members after the first one. -/
def memberTokens : List (String × Value) → List Token → List Token
  | [], rest => rest
  | (key, v) :: ms, rest =>
    .comma :: .string (some key) :: .colon :: tokens v (memberTokens ms rest)

end

section scans

variable {l : Layout} {depth : Nat} {rest : List Char} {ts : List Token}

/-- A character that stands neither in a number nor in a word. -/
def isInner (c : Char) : Bool := Token.isNumeric c || c.isAlpha

/-- Blanks do not go on as a number or a word does. -/
theorem stops_blanks {blanks : List Char} (skipped : ∀ c ∈ blanks, Token.isBlank c = true)
    (stops : Stops isInner rest) : Stops isInner (blanks ++ rest) := by
  cases blanks with
  | nil => exact stops
  | cons c cs =>
      have skipped := skipped c List.mem_cons_self
      apply stops_cons
      simp only [Token.isBlank, Bool.or_eq_true, beq_iff_eq] at skipped
      obtain ((rfl | rfl) | rfl) | rfl := skipped <;> rfl

/-- The end of an array does not go on as a number or a word does. -/
theorem stops_moreItems (vs : List Value) (stops : Stops isInner rest) :
    Stops isInner (moreItems l depth vs rest) := by
  cases vs with
  | nil => exact stops
  | cons v vs => exact stops_cons rfl

/-- The end of an object does not go on as a number or a word does. -/
theorem stops_moreMembers (ms : List (String × Value)) (stops : Stops isInner rest) :
    Stops isInner (moreMembers l depth ms rest) := by
  cases ms with
  | nil => exact stops
  | cons m ms => exact stops_cons rfl

/-- A key is found as two tokens, its text and a colon. -/
theorem scans_keyChars (blank : l.Blank) (key : String) (scans : Token.Scans rest ts) :
    Token.Scans (keyChars l key rest) (.string (some key) :: .colon :: ts) :=
  .string key (.punctuation rfl rfl (.blanks blank.afterColon scans))

/-- What is no inner part of a token does not go on as a number. -/
theorem stops_numeric (stops : Stops isInner rest) : Stops Token.isNumeric rest :=
  stops.of_imp fun c numeric => by rw [isInner, numeric, Bool.true_or]

/-- What is no inner part of a token does not go on as a word. -/
theorem stops_alpha (stops : Stops isInner rest) : Stops Char.isAlpha rest :=
  stops.of_imp fun c letter => by rw [isInner, letter, Bool.or_true]

mutual

/-- What a value is written as is split into its tokens. -/
theorem scans_chars (blank : l.Blank) (depth : Nat) (rest : List Char) (ts : List Token)
    (stops : Stops isInner rest) (scans : Token.Scans rest ts) :
    (v : Value) → v.Whole → Token.Scans (v.chars l depth rest) (v.tokens ts)
  | .null, _ =>
    .word 'n' ['u', 'l', 'l'] (by decide) (by decide) rfl (stops_alpha stops) scans
  | .bool true, _ =>
    .word 't' ['r', 'u', 'e'] (by decide) (by decide) rfl (stops_alpha stops) scans
  | .bool false, _ =>
    .word 'f' ['a', 'l', 's', 'e'] (by decide) (by decide) rfl (stops_alpha stops) scans
  | .number n, whole => .number whole (stops_numeric stops) scans
  | .string s, _ => .string s scans
  | .array [], _ => .punctuation rfl rfl (.punctuation rfl rfl scans)
  | .array (v :: vs), whole => by
    have close : Stops isInner (l.lineBreak depth ++ ']' :: rest) :=
      stops_blanks (blank.lineBreak depth) (stops_cons rfl)
    have closed : Token.Scans (l.lineBreak depth ++ ']' :: rest) (.closeArray :: ts) :=
      .blanks (blank.lineBreak depth) (.punctuation rfl rfl scans)
    have items := scans_moreItems blank (depth + 1) _ _ close closed vs whole.2
    have first := scans_chars blank (depth + 1) _ _ (stops_moreItems vs close) items v whole.1
    exact .punctuation rfl rfl (.blanks (blank.lineBreak (depth + 1)) first)
  | .object [], _ => .punctuation rfl rfl (.punctuation rfl rfl scans)
  | .object ((key, v) :: ms), whole => by
    have close : Stops isInner (l.lineBreak depth ++ '\x7d' :: rest) :=
      stops_blanks (blank.lineBreak depth) (stops_cons rfl)
    have closed : Token.Scans (l.lineBreak depth ++ '\x7d' :: rest) (.closeObject :: ts) :=
      .blanks (blank.lineBreak depth) (.punctuation rfl rfl scans)
    have members := scans_moreMembers blank (depth + 1) _ _ close closed ms whole.2
    have first := scans_chars blank (depth + 1) _ _ (stops_moreMembers ms close) members v whole.1
    exact .punctuation rfl rfl
      (.blanks (blank.lineBreak (depth + 1)) (scans_keyChars blank key first))

/-- The rest of an array is found as the tokens of its items. -/
theorem scans_moreItems (blank : l.Blank) (depth : Nat) (rest : List Char) (ts : List Token)
    (stops : Stops isInner rest) (scans : Token.Scans rest ts) :
    (vs : List Value) → WholeItems vs →
      Token.Scans (moreItems l depth vs rest) (itemTokens vs ts)
  | [], _ => scans
  | v :: vs, whole => by
    have items := scans_moreItems blank depth rest ts stops scans vs whole.2
    have first := scans_chars blank depth _ _ (stops_moreItems vs stops) items v whole.1
    exact .punctuation rfl rfl (.blanks (blank.lineBreak depth) first)

/-- The rest of an object is found as the tokens of its members. -/
theorem scans_moreMembers (blank : l.Blank) (depth : Nat) (rest : List Char) (ts : List Token)
    (stops : Stops isInner rest) (scans : Token.Scans rest ts) :
    (ms : List (String × Value)) → WholeMembers ms →
      Token.Scans (moreMembers l depth ms rest) (memberTokens ms ts)
  | [], _ => scans
  | (key, v) :: ms, whole => by
    have members := scans_moreMembers blank depth rest ts stops scans ms whole.2
    have first := scans_chars blank depth _ _ (stops_moreMembers ms stops) members v whole.1
    exact .punctuation rfl rfl
      (.blanks (blank.lineBreak depth) (scans_keyChars blank key first))

end

end scans

mutual

/-- A value has at least one token. -/
theorem length_lt_tokens (rest : List Token) : (v : Value) → rest.length < (v.tokens rest).length
  | .null => Nat.lt_succ_self _
  | .bool _ => Nat.lt_succ_self _
  | .number _ => Nat.lt_succ_self _
  | .string _ => Nat.lt_succ_self _
  | .array [] => Nat.lt_add_of_pos_right Nat.two_pos
  | .array (v :: vs) => by
    have first := length_lt_tokens (itemTokens vs (.closeArray :: rest)) v
    have others := length_le_itemTokens (.closeArray :: rest) vs
    simp only [tokens, List.length_cons] at others ⊢
    omega
  | .object [] => Nat.lt_add_of_pos_right Nat.two_pos
  | .object ((key, v) :: ms) => by
    have first := length_lt_tokens (memberTokens ms (.closeObject :: rest)) v
    have others := length_le_memberTokens (.closeObject :: rest) ms
    simp only [tokens, List.length_cons] at others ⊢
    omega

/-- Items add to the tokens that follow them. -/
theorem length_le_itemTokens (rest : List Token) :
    (vs : List Value) → rest.length ≤ (itemTokens vs rest).length
  | [] => Nat.le_refl _
  | v :: vs => by
    have first := length_lt_tokens (itemTokens vs rest) v
    have others := length_le_itemTokens rest vs
    simp only [itemTokens, List.length_cons]
    omega

/-- Members add to the tokens that follow them. -/
theorem length_le_memberTokens (rest : List Token) :
    (ms : List (String × Value)) → rest.length ≤ (memberTokens ms rest).length
  | [] => Nat.le_refl _
  | (key, v) :: ms => by
    have first := length_lt_tokens (memberTokens ms rest) v
    have others := length_le_memberTokens rest ms
    simp only [memberTokens, List.length_cons]
    omega

end

end Value

namespace Document

open Value

/-- An item does not start with a bracket that closes an array. -/
theorem readArray? (v : Value) (ts : List Token) (fuel : Nat) :
    read? (fuel + 1) (.openArray :: v.tokens ts) =
      (readItems? fuel (v.tokens ts)).map fun r => (.array r.1, r.2) := by
  cases v with
  | null => rfl
  | bool b => rfl
  | number n => rfl
  | string s => rfl
  | array items => cases items <;> rfl
  | object members => cases members <;> rfl

/-- The tokens of a value make up the document that shows it, if there is room for two calls within
each other for every token; the tokens of items and members need one more. -/
theorem read_tokens (fuel : Nat) :
    (∀ v rest, 2 * (tokens v rest).length ≤ fuel →
      read? fuel (tokens v rest) = some (ofValue v, rest)) ∧
    (∀ v vs rest, 2 * (tokens v (itemTokens vs (.closeArray :: rest))).length < fuel →
      readItems? fuel (tokens v (itemTokens vs (.closeArray :: rest))) =
        some (ofItems (v :: vs), rest)) ∧
    (∀ key v ms rest, 2 * (tokens v (memberTokens ms (.closeObject :: rest))).length < fuel →
      readMembers? fuel
          (.string (some key) :: .colon :: tokens v (memberTokens ms (.closeObject :: rest))) =
        some (ofMembers ((key, v) :: ms), rest)) := by
  induction fuel with
  | zero =>
      refine ⟨?_, ?_, ?_⟩
      · intro v rest enough
        have := length_lt_tokens rest v
        omega
      · intro v vs rest enough
        omega
      · intro key v ms rest enough
        omega
  | succ fuel ih =>
      obtain ⟨values, items, members⟩ := ih
      refine ⟨?_, ?_, ?_⟩
      · intro v rest enough
        cases v with
        | null => rfl
        | bool b => rfl
        | number n => rfl
        | string s => rfl
        | array vs =>
            cases vs with
            | nil => rfl
            | cons v vs =>
                simp only [tokens, List.length_cons] at enough ⊢
                rw [readArray?, items v vs rest (by omega)]
                rfl
        | object ms =>
            cases ms with
            | nil => rfl
            | cons m ms =>
                obtain ⟨key, v⟩ := m
                simp only [tokens, List.length_cons] at enough ⊢
                rw [read?]
                · rw [members key v ms rest (by omega)]
                  rfl
                · intro rest' same
                  cases same
      · intro v vs rest enough
        rw [readItems?, values v _ (by omega)]
        cases vs with
        | nil => rfl
        | cons v' vs =>
            have shorter := length_lt_tokens (itemTokens (v' :: vs) (.closeArray :: rest)) v
            simp only [itemTokens, List.length_cons] at enough shorter ⊢
            rw [items v' vs rest (by omega)]
            rfl
      · intro key v ms rest enough
        rw [readMembers?, values v _ (by omega)]
        cases ms with
        | nil => rfl
        | cons m ms =>
            obtain ⟨key', v'⟩ := m
            have shorter :=
              length_lt_tokens (memberTokens ((key', v') :: ms) (.closeObject :: rest)) v
            simp only [memberTokens, List.length_cons] at enough shorter ⊢
            rw [members key' v' ms rest (by omega)]
            rfl

variable {l : Layout} {v : Value} {blanks : List Char}

/-- A value is read back from what it is written as, with blanks behind it. -/
theorem ofChars?_chars (blank : l.Blank) (behind : ∀ c ∈ blanks, Token.isBlank c = true)
    (whole : v.Whole) : ofChars? (v.chars l 0 blanks) = some (ofValue v) := by
  have stops := stops_blanks behind stops_nil
  rw [List.append_nil] at stops
  have scans : Token.Scans (v.chars l 0 blanks) (v.tokens []) := by
    refine scans_chars blank 0 blanks [] stops ?_ v whole
    have nothing := Token.Scans.blanks behind .nil
    rwa [List.append_nil] at nothing
  rw [ofChars?, Token.scan?, scans _ (Nat.le_refl _), Option.bind_some, ofTokens?,
    (read_tokens _).1 v [] (Nat.le_succ _)]

/-- **The compact text of a value is read as the document that shows it.** -/
theorem parse?_compact (whole : v.Whole) : parse? v.compact = some (ofValue v) := by
  rw [parse?, compact, String.toList_ofList]
  exact ofChars?_chars Layout.blank_compact (List.forall_mem_nil _) whole

/-- A value is read back from its lines, the last of which is ended. -/
theorem parse?_indented (whole : v.Whole) : parse? (v.indented ++ "\n") = some (ofValue v) := by
  have text : (v.indented ++ "\n").toList = v.chars .indented 0 ['\n'] := by
    rw [indented, String.toList_append, String.toList_ofList, ← chars_append]
    rfl
  rw [parse?, text]
  exact ofChars?_chars Layout.blank_indented (List.forall_mem_singleton.mpr rfl) whole

end Document

end Json

end BudgetedRun
