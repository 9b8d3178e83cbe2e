import BudgetedRun.Proofs.Text.Digits
import BudgetedRun.Text.Blank

/-!
# Texts without the blanks around them

`Text.Trims s t` says what is left of a text when the blanks at its two ends are cut off, and not
how they are. There is exactly one such text, the one that `Text.trim` gives (`Text.trims_trim`,
`Text.Trims.trim_eq`).
-/

namespace BudgetedRun

namespace Text

variable {p : Char → Bool} {s t : String} {cs rest : List Char}

/-- What is left after a run of characters does not go on with one. -/
theorem stops_dropWhile : Stops p (cs.dropWhile p) := by
  intro c first
  have stopped := List.head?_dropWhile_not p cs
  rwa [first] at stopped

/-- A longer text starts as its first part does. -/
theorem stops_append_iff (nonempty : cs ≠ []) : Stops p (cs ++ rest) ↔ Stops p cs := by
  obtain ⟨c, cs, rfl⟩ := List.exists_cons_of_ne_nil nonempty
  exact Iff.rfl

/-- There are only blanks around a text, and it neither starts nor ends with one. -/
structure Trims (s t : String) : Prop where
  around : ∃ front back : List Char, s.toList = front ++ t.toList ++ back ∧
    (∀ c ∈ front, isBlank c = true) ∧ ∀ c ∈ back, isBlank c = true
  first : Stops isBlank t.toList
  last : Stops isBlank t.toList.reverse

theorem toList_trim : (trim s).toList = trimChars s.toList := String.toList_ofList

/-- The cut takes nothing but the blanks at the two ends, and all of them. -/
theorem trims_trim (s : String) : Trims s (trim s) := by
  let kept := s.toList.dropWhile isBlank
  let front := s.toList.takeWhile isBlank
  let back := (kept.reverse.takeWhile isBlank).reverse
  have parted : kept = trimChars s.toList ++ back := by
    rw [trimChars, ← List.reverse_append, List.takeWhile_append_dropWhile, List.reverse_reverse]
  refine ⟨⟨front, back, ?_, ?_, ?_⟩, ?_, ?_⟩
  · rw [toList_trim, List.append_assoc, ← parted, List.takeWhile_append_dropWhile]
  · exact fun c member => List.all_eq_true.mp List.all_takeWhile c member
  · exact fun c member => List.all_eq_true.mp List.all_takeWhile c (List.mem_reverse.mp member)
  · rw [toList_trim]
    by_cases empty : trimChars s.toList = []
    · rw [empty]
      exact stops_nil
    · rw [← stops_append_iff empty, ← parted]
      exact stops_dropWhile
  · rw [toList_trim, trimChars, List.reverse_reverse]
    exact stops_dropWhile

/-- Whatever has only blanks around it is what the cut leaves. -/
theorem Trims.trim_eq (trims : Trims s t) : trim s = t := by
  obtain ⟨front, back, parted, blankFront, blankBack⟩ := trims.around
  apply String.toList_injective
  rw [toList_trim]
  by_cases empty : t.toList = []
  · rw [empty, trimChars_eq_nil_iff, parted, empty, List.append_nil, List.all_append,
      List.all_eq_true.mpr blankFront, List.all_eq_true.mpr blankBack, Bool.and_self]
  · have start : Stops isBlank (t.toList ++ back) := (stops_append_iff empty).mpr trims.first
    have blankBack : ∀ c ∈ back.reverse, isBlank c = true :=
      fun c member => blankBack c (List.mem_reverse.mp member)
    rw [trimChars, parted, List.append_assoc, dropWhile_append blankFront start,
      List.reverse_append, dropWhile_append blankBack trims.last, List.reverse_reverse]

/-- Nothing is left of a text exactly if it is all blank. -/
theorem trim_eq_empty_iff : trim s = "" ↔ isAllBlank s = true := by
  rw [isAllBlank, ← trimChars_eq_nil_iff, ← toList_trim, String.toList_eq_nil_iff]

/-- A text is not all blank exactly if something is left of it. -/
theorem isAllBlank_eq_false_iff : isAllBlank s = false ↔ trim s ≠ "" := by
  rw [ne_eq, trim_eq_empty_iff, Bool.not_eq_true]

end Text

end BudgetedRun
