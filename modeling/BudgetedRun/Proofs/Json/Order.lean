import BudgetedRun.Json.Reader
import BudgetedRun.Proofs.Table

/-!
# Values in order

A value that was read has the members of all its objects in key order (`Value.ordered_of_ofText?`).
What a value is written as is read as this value in order (`Document.toValue?_ofValue`), and that is
the value itself if it is in order already (`Value.inOrder_eq`).
-/

namespace BudgetedRun

namespace Json

namespace Value

mutual

/-- The members of every object are in key order. -/
def Ordered : Value → Prop
  | .null => True
  | .bool _ => True
  | .number _ => True
  | .string _ => True
  | .array items => OrderedItems items
  | .object members => Entries.Ascending members ∧ OrderedMembers members

def OrderedItems : List Value → Prop
  | [] => True
  | v :: vs => v.Ordered ∧ OrderedItems vs

def OrderedMembers : List (String × Value) → Prop
  | [] => True
  | (_, v) :: ms => v.Ordered ∧ OrderedMembers ms

end

mutual

/-- A value with the members of every object in key order, of a repeated name the last one. -/
def inOrder : Value → Value
  | .null => .null
  | .bool b => .bool b
  | .number n => .number n
  | .string s => .string s
  | .array items => .array (inOrderItems items)
  | .object members => .object (Entries.sorted (inOrderMembers members))

def inOrderItems : List Value → List Value
  | [] => []
  | v :: vs => v.inOrder :: inOrderItems vs

def inOrderMembers : List (String × Value) → List (String × Value)
  | [] => []
  | (key, v) :: ms => (key, v.inOrder) :: inOrderMembers ms

end

variable {n : Nat} {key : String} {items : List Value} {members : List (String × Value)}

/-- The items of an array are in order if each of them is. -/
theorem orderedItems_iff : OrderedItems items ↔ ∀ v ∈ items, v.Ordered := by
  induction items with
  | nil => exact ⟨fun _ => List.forall_mem_nil _, fun _ => trivial⟩
  | cons v vs ih => rw [OrderedItems, List.forall_mem_cons, ih]

/-- The values of an object are in order if each of them is. -/
theorem orderedMembers_iff : OrderedMembers members ↔ ∀ m ∈ members, m.2.Ordered := by
  induction members with
  | nil => exact ⟨fun _ => List.forall_mem_nil _, fun _ => trivial⟩
  | cons m ms ih => rw [OrderedMembers, List.forall_mem_cons, ih]

/-- Items are nested so deep at most exactly if each of them is. -/
theorem itemLevels_le_iff : itemLevels items ≤ n ↔ ∀ v ∈ items, v.levels ≤ n := by
  induction items with
  | nil => exact ⟨fun _ => List.forall_mem_nil _, fun _ => Nat.zero_le n⟩
  | cons v vs ih => rw [itemLevels, Nat.max_le, List.forall_mem_cons, ih]

/-- Members are nested so deep at most exactly if each of them is. -/
theorem memberLevels_le_iff : memberLevels members ≤ n ↔ ∀ m ∈ members, m.2.levels ≤ n := by
  induction members with
  | nil => exact ⟨fun _ => List.forall_mem_nil _, fun _ => Nat.zero_le n⟩
  | cons m ms ih => rw [memberLevels, Nat.max_le, List.forall_mem_cons, ih]

/-- Items are put in order one by one. -/
theorem inOrderItems_eq_map : inOrderItems items = items.map inOrder := by
  induction items with
  | nil => rfl
  | cons v vs ih => rw [inOrderItems, ih, List.map_cons]

/-- The values of members are put in order one by one. -/
theorem inOrderMembers_eq_map :
    inOrderMembers members = members.map fun m => (m.1, m.2.inOrder) := by
  induction members with
  | nil => rfl
  | cons m ms ih => rw [inOrderMembers, ih, List.map_cons]

/-- Only objects have members. -/
theorem exists_eq_object {v u : Value} (found : v.member? key = some u) :
    ∃ members, v = .object members ∧ (key, u) ∈ members := by
  cases v with
  | object members => exact ⟨members, rfl, Entries.mem_of_find? found⟩
  | _ => cases found

/-- The members of a value in order are in order. -/
theorem Ordered.member {v u : Value} (ordered : v.Ordered) (found : v.member? key = some u) :
    u.Ordered := by
  obtain ⟨members, rfl, member⟩ := exists_eq_object found
  exact orderedMembers_iff.mp ordered.2 _ member

/-- A member of an object lies one level below it. -/
theorem levels_lt_of_member? {v u : Value} (found : v.member? key = some u) :
    u.levels < v.levels := by
  obtain ⟨members, rfl, member⟩ := exists_eq_object found
  exact Nat.lt_succ_of_le (memberLevels_le_iff.mp (Nat.le_refl _) _ member)

/-- A member of an object is put in order by itself. -/
theorem member?_inOrder (distinct : (members.map (·.1)).Nodup) :
    (object members).inOrder.member? key = ((object members).member? key).map inOrder := by
  have names : ((inOrderMembers members).map (·.1)).Nodup := by
    rwa [inOrderMembers_eq_map, List.map_map]
  rw [inOrder, member?, member?, Entries.find?_sorted names, inOrderMembers_eq_map,
    Entries.find?_map]

mutual

/-- Putting a value in order leaves one that is in order as it is. -/
theorem inOrder_eq : (v : Value) → v.Ordered → v.inOrder = v
  | .null, _ => rfl
  | .bool _, _ => rfl
  | .number _, _ => rfl
  | .string _, _ => rfl
  | .array items, ordered => by rw [inOrder, inOrderItems_eq items ordered]
  | .object members, ordered => by
    rw [inOrder, inOrderMembers_eq members ordered.2, ordered.1.sorted_eq]

/-- Items in order stay as they are. -/
theorem inOrderItems_eq : (items : List Value) → OrderedItems items → inOrderItems items = items
  | [], _ => rfl
  | v :: vs, ordered => by
    rw [inOrderItems, inOrder_eq v ordered.1, inOrderItems_eq vs ordered.2]

/-- Members in order stay as they are. -/
theorem inOrderMembers_eq : (members : List (String × Value)) → OrderedMembers members →
    inOrderMembers members = members
  | [], _ => rfl
  | (key, v) :: ms, ordered => by
    rw [inOrderMembers, inOrder_eq v ordered.1, inOrderMembers_eq ms ordered.2]

end

end Value

namespace Document

open Value

mutual

/-- Where there is room for all its levels, a value is read from the text that shows it, in
order. -/
theorem toValue?_ofValue (n : Nat) :
    (v : Value) → v.levels ≤ n → toValue? n (ofValue v) = some v.inOrder
  | .null, _ => rfl
  | .bool _, _ => rfl
  | .number _, _ => rfl
  | .string _, _ => rfl
  | .array items, room => by
    obtain ⟨n, rfl⟩ := Nat.exists_eq_add_of_le' (Nat.le_trans (Nat.le_add_left _ _) room)
    rw [ofValue, toValue?, toItems?_ofItems n items (Nat.le_of_succ_le_succ room)]
    rfl
  | .object members, room => by
    obtain ⟨n, rfl⟩ := Nat.exists_eq_add_of_le' (Nat.le_trans (Nat.le_add_left _ _) room)
    rw [ofValue, toValue?, toMembers?_ofMembers n members (Nat.le_of_succ_le_succ room)]
    rfl

/-- What items are written as is read as the items in order, if they are not nested too deep. -/
theorem toItems?_ofItems (n : Nat) : (items : List Value) → itemLevels items ≤ n →
    toItems? n (ofItems items) = some (inOrderItems items)
  | [], _ => rfl
  | v :: vs, room => by
    obtain ⟨first, others⟩ := Nat.max_le.mp room
    rw [ofItems, toItems?, toValue?_ofValue n v first, toItems?_ofItems n vs others]
    rfl

/-- What members are written as is read as the members in order, if they are not nested too deep. -/
theorem toMembers?_ofMembers (n : Nat) : (members : List (String × Value)) →
    memberLevels members ≤ n → toMembers? n (ofMembers members) = some (inOrderMembers members)
  | [], _ => rfl
  | (key, v) :: ms, room => by
    obtain ⟨first, others⟩ := Nat.max_le.mp room
    rw [ofMembers, toMembers?, toValue?_ofValue n v first, toMembers?_ofMembers n ms others]
    rfl

end

mutual

/-- A value that was read is in order and lies within the levels allowed. -/
theorem ordered_of_toValue? (n : Nat) :
    (d : Document) → {v : Value} → toValue? n d = some v → v.Ordered ∧ v.levels ≤ n
  | .null, _, read => by
    cases read
    exact ⟨trivial, Nat.zero_le n⟩
  | .bool _, _, read => by
    cases read
    exact ⟨trivial, Nat.zero_le n⟩
  | .number _, _, read => by
    obtain ⟨number, rfl, rfl⟩ := Option.map_eq_some_iff.mp read
    exact ⟨trivial, Nat.zero_le n⟩
  | .string _, _, read => by
    obtain ⟨s, rfl, rfl⟩ := Option.map_eq_some_iff.mp read
    exact ⟨trivial, Nat.zero_le n⟩
  | .array items, v, read => by
    cases n with
    | zero => cases read
    | succ n =>
        obtain ⟨vs, itemsRead, rfl⟩ := Option.map_eq_some_iff.mp read
        have each := ordered_of_toItems? n items itemsRead
        exact ⟨orderedItems_iff.mpr fun v member => (each v member).1,
          Nat.succ_le_succ (itemLevels_le_iff.mpr fun v member => (each v member).2)⟩
  | .object members, v, read => by
    cases n with
    | zero => cases read
    | succ n =>
        obtain ⟨ms, membersRead, rfl⟩ := Option.map_eq_some_iff.mp read
        have each := ordered_of_toMembers? n members membersRead
        refine ⟨⟨Entries.ascending_sorted ms, orderedMembers_iff.mpr ?_⟩,
          Nat.succ_le_succ (memberLevels_le_iff.mpr ?_)⟩
        · exact fun m member => (each m (Entries.mem_of_mem_sorted member)).1
        · exact fun m member => (each m (Entries.mem_of_mem_sorted member)).2

/-- Items that were read are in order and not nested too deep. -/
theorem ordered_of_toItems? (n : Nat) : (ds : List Document) → {vs : List Value} →
    toItems? n ds = some vs → ∀ v ∈ vs, v.Ordered ∧ v.levels ≤ n
  | [], _, read => by
    cases read
    exact List.forall_mem_nil _
  | d :: ds, _, read => by
    simp only [toItems?, Option.bind_eq_bind, Option.bind_eq_some_iff] at read
    obtain ⟨v, first, vs, others, same⟩ := read
    cases same
    exact List.forall_mem_cons.mpr
      ⟨ordered_of_toValue? n d first, ordered_of_toItems? n ds others⟩

/-- Members that were read are in order and not nested too deep. -/
theorem ordered_of_toMembers? (n : Nat) : (ds : List (Option String × Document)) →
    {ms : List (String × Value)} → toMembers? n ds = some ms →
      ∀ m ∈ ms, m.2.Ordered ∧ m.2.levels ≤ n
  | [], _, read => by
    cases read
    exact List.forall_mem_nil _
  | (key, d) :: ds, _, read => by
    simp only [toMembers?, Option.bind_eq_bind, Option.bind_eq_some_iff] at read
    obtain ⟨name, _, v, first, ms, others, same⟩ := read
    cases same
    exact List.forall_mem_cons.mpr
      ⟨ordered_of_toValue? n d first, ordered_of_toMembers? n ds others⟩

end

end Document

namespace Value

variable {text : String} {v : Value}

/-- A value that was read from a text is in order and no deeper than texts may be. -/
theorem ordered_of_ofText? (read : ofText? text = some v) : v.Ordered ∧ v.levels ≤ maxLevels := by
  obtain ⟨d, _, read⟩ := Option.bind_eq_some_iff.mp read
  exact Document.ordered_of_toValue? maxLevels d read

end Value

end Json

end BudgetedRun
