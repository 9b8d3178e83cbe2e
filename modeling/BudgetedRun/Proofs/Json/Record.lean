import Mathlib.Data.List.Forall2
import BudgetedRun.Json.Record
import BudgetedRun.Proofs.Table

/-!
# Reading records back

A record that is written as an object with distinct names is read as its members with known names
(`Document.record?_ofValue`), and each field as the member of its name. What is written as a list,
an option or a string is read as such.
-/

namespace BudgetedRun

namespace Json

namespace Document

variable {α : Type} {names : List String} {members : List (String × Value)} {fields : Fields}
  {name : String} {read : Document → Option α}

/-- Items are written one by one. -/
theorem ofItems_eq_map (items : List Value) : ofItems items = items.map ofValue := by
  induction items with
  | nil => rfl
  | cons v vs ih => rw [ofItems, ih, List.map_cons]

/-- The fields that the members of an object are. -/
def fieldsOf (members : List (String × Value)) : Fields := members.map fun m => (m.1, ofValue m.2)

/-- A field is what the member of its name is written as. -/
theorem find?_fieldsOf :
    Entries.find? name (fieldsOf members) = (Entries.find? name members).map ofValue :=
  Entries.find?_map ofValue members name

/-- The members with known names. -/
def among (names : List String) (members : List (String × Value)) : List (String × Value) :=
  members.filter fun m => m.1 ∈ names

/-- A known name has the same member among those with known names. -/
theorem find?_among (known : name ∈ names) :
    Entries.find? name (among names members) = Entries.find? name members :=
  (Entries.find?_filter (· ∈ names) members name).trans (if_pos (decide_eq_true known))

/-- If no two members have one name, those with known names are the fields. -/
theorem known?_ofMembers (distinct : (members.map (·.1)).Nodup) :
    known? names (ofMembers members) = some (fieldsOf (among names members)) := by
  induction members with
  | nil => rfl
  | cons m ms ih =>
      obtain ⟨key, v⟩ := m
      obtain ⟨fresh, distinct⟩ := List.nodup_cons.mp distinct
      rw [ofMembers, known?, ih distinct]
      simp only [Option.bind_eq_bind, Option.bind_some]
      by_cases known : key ∈ names
      · have first : Entries.find? key (fieldsOf (among names ms)) = none := by
          rw [find?_fieldsOf, find?_among known, Entries.find?_eq_none_iff.mpr fresh]
          rfl
        have kept : among names ((key, v) :: ms) = (key, v) :: among names ms :=
          List.filter_cons_of_pos (decide_eq_true known)
        rw [if_pos known, first, kept]
        rfl
      · have dropped : among names ((key, v) :: ms) = among names ms :=
          List.filter_cons_of_neg (mt of_decide_eq_true known)
        rw [if_neg known, dropped]

/-- An object with distinct names is read as the record of its members with known names. -/
theorem record?_ofValue (distinct : (members.map (·.1)).Nodup) :
    (ofValue (.object members)).record? names = some (fieldsOf (among names members)) := by
  rw [ofValue, record?, known?_ofMembers distinct]

/-- If all names of a record are known, all its members are fields. -/
theorem record?_of_forall (known : ∀ m ∈ members, m.1 ∈ names)
    (distinct : (members.map (·.1)).Nodup) :
    (ofValue (.object members)).record? names = some (fieldsOf members) := by
  have all : among names members = members :=
    List.filter_eq_self.mpr fun m member => decide_eq_true (known m member)
  rw [record?_ofValue distinct, all]

/-- A field is read from the member of its name. -/
theorem required_among (known : name ∈ names) :
    (fieldsOf (among names members)).required name read =
      ((Value.object members).member? name).bind fun v => read (ofValue v) := by
  rw [Fields.required, find?_fieldsOf, find?_among known, Value.member?]
  cases Entries.find? name members <;> rfl

/-- A field that may be absent is read as the member of its name, or as its default. -/
theorem withDefault_among (absent : α) (known : name ∈ names) :
    (fieldsOf (among names members)).withDefault name absent read =
      match (Value.object members).member? name with
      | none => some absent
      | some v => read (ofValue v) := by
  rw [Fields.withDefault, find?_fieldsOf, find?_among known, Value.member?]
  cases Entries.find? name members <;> rfl

/-- A list is read if its items are. -/
theorem list?_of_forall₂ {as : List α} {vs : List Value}
    (each : List.Forall₂ (fun a v => read (ofValue v) = some a) as vs) :
    list? read (ofValue (.array vs)) = some as := by
  rw [ofValue, ofItems_eq_map, list?]
  induction each with
  | nil => rfl
  | cons first _ ih =>
      rw [List.map_cons, List.mapM_cons, first, ih]
      rfl

/-- A list is read back if its items are. -/
theorem list?_map {write : α → Value} (back : ∀ a, read (ofValue (write a)) = some a)
    (items : List α) : list? read (ofValue (.array (items.map write))) = some items :=
  list?_of_forall₂ (List.forall₂_map_right_iff.mpr (List.forall₂_same.mpr fun a _ => back a))

/-- A field that may be missing is read back if its value is, and if that is never written as one
that is missing. -/
theorem optional_ofOption {write : α → Value} {option : Option α}
    (found : Entries.find? name fields = some (ofValue (.ofOption write option)))
    (back : ∀ a, read (ofValue (write a)) = some a) (present : ∀ a, ofValue (write a) ≠ .null) :
    fields.optional name read = some option := by
  cases option with
  | none => rw [Fields.optional, found, Value.ofOption, ofValue]
  | some a =>
      have back := back a
      have present := present a
      rw [Value.ofOption] at found
      generalize ofValue (write a) = d at found back present
      cases d with
      | null => exact absurd rfl present
      | _ =>
          rw [Fields.optional, found]
          simp only [back, Option.map_some]

/-- A number of 64 bits is read back from what it is written as. -/
theorem word64?_ofNat64 (n : UInt64) : word64? (ofValue (.ofNat64 n)) = some n := rfl

/-- A number of 32 bits is read back from what it is written as. -/
theorem word32?_ofNat32 (n : UInt32) : word32? (ofValue (.ofNat32 n)) = some n := by
  have fits : n.toUInt64.toNat < UInt32.size := n.toNat_lt
  exact dif_pos fits

theorem string?_string (s : String) : string? (ofValue (.string s)) = some s := rfl

/-- A text is not taken for something absent. -/
theorem ofValue_string_ne_null (s : String) : ofValue (.string s) ≠ .null := by
  rw [ofValue]
  intro same
  cases same

theorem bool?_bool (b : Bool) : bool? (ofValue (.bool b)) = some b := rfl

end Document

end Json

end BudgetedRun
