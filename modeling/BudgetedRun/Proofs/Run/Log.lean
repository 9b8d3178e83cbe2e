import BudgetedRun.Proofs.Json.OneLine
import BudgetedRun.Proofs.Run.Snapshot
import BudgetedRun.Run.Log

/-!
# Reading logs back

Every entry of a log is read back from its text (`LogEntry.parse?_compactText`), which is one line
(`LogEntry.newline_not_mem_line`). So the text of a log falls into lines at its newline bytes, one
for each entry (`LogEntry.bytes_logText`), and each is read by itself (`LogEntry.ofLine?_line`).
-/

namespace BudgetedRun

open Json

namespace Text

/-- The byte that ends a line. -/
def newline : UInt8 := 10

/-- The bytes of a text. -/
def bytes (text : String) : List UInt8 := text.toUTF8.data.toList

/-- The bytes of a text are those of its characters. -/
theorem bytes_eq (text : String) : bytes text = text.toList.flatMap String.utf8EncodeChar := by
  rw [bytes, String.toUTF8_eq_toByteArray, ← String.utf8Encode_toList, List.utf8Encode,
    List.toList_data_toByteArray]

theorem bytes_append (first second : String) :
    bytes (first ++ second) = bytes first ++ bytes second := by
  rw [bytes_eq, bytes_eq, bytes_eq, String.toList_append, List.flatMap_append]

theorem bytes_join (texts : List String) : bytes (String.join texts) = texts.flatMap bytes := by
  rw [bytes_eq, String.toList_join, List.flatMap_assoc]
  exact congrArg texts.flatMap (funext fun text => (bytes_eq text).symm)

/-- Only a number that is ten modulo 256 gives the byte of a newline. -/
theorem mod_of_newline_eq {n : Nat} (same : newline = UInt8.ofNat n) : n % 256 = 10 := by
  have value := congrArg UInt8.toNat same
  rw [UInt8.toNat_ofNat'] at value
  exact value.symm

/-- Only a line break is encoded with a newline byte. -/
theorem eq_of_newline_mem {c : Char} (member : newline ∈ String.utf8EncodeChar c) : c = '\n' := by
  have value : c.val.toNat = 10 := by
    rw [String.utf8EncodeChar] at member
    split at member
    · have only := mod_of_newline_eq (List.mem_singleton.mp member)
      omega
    -- Each byte of a longer encoding is at least 128.
    split at member
    · simp only [List.mem_cons, List.not_mem_nil, or_false] at member
      rcases member with same | same <;> have part := mod_of_newline_eq same <;> omega
    split at member
    · simp only [List.mem_cons, List.not_mem_nil, or_false] at member
      rcases member with same | same | same <;> have part := mod_of_newline_eq same <;> omega
    · simp only [List.mem_cons, List.not_mem_nil, or_false] at member
      rcases member with same | same | same | same <;>
        have part := mod_of_newline_eq same <;> omega
  exact Char.ext (UInt32.toNat_inj.mp value)

/-- A text without line breaks has no newline byte. -/
theorem newline_not_mem_bytes {text : String} (plain : '\n' ∉ text.toList) :
    newline ∉ bytes text := by
  rw [bytes_eq]
  intro member
  obtain ⟨c, there, encoded⟩ := List.mem_flatMap.mp member
  exact plain (eq_of_newline_mem encoded ▸ there)

end Text

/-- A level is read back. -/
theorem LogLevel.ofDocument?_toJson (level : LogLevel) :
    ofDocument? (Document.ofValue level.toJson) = some level := by
  apply named?_name
  · cases level <;> decide
  · intro a b same
    cases a <;> cases b <;> first | rfl | exact absurd same (by decide)

namespace LogEntry

open Text

/-- An entry is read back from its members. -/
theorem ofDocument?_toJson (e : LogEntry) : ofDocument? (Document.ofValue e.toJson) = some e := by
  rw [toJson, ofDocument?, Document.record?_of_forall (by simp) (by simp)]
  simp [Document.fieldsOf, Fields.required, Entries.find?, Document.string?_string,
    LogLevel.ofDocument?_toJson, Timestamp.ofDocument?_toJson]

theorem whole_toJson (e : LogEntry) : e.toJson.Whole :=
  ⟨trivial, trivial, trivial, trivial, trivial, trivial, trivial⟩

/-- An entry is read back from its text. -/
theorem parse?_compactText (e : LogEntry) : parse? e.compactText = some e := by
  rw [parse?, compactText, Document.parse?_compact e.whole_toJson, Option.bind_some,
    e.ofDocument?_toJson]

/-- The line of an entry, without the newline byte at its end. -/
def line (e : LogEntry) : List UInt8 := bytes e.compactText

/-- The entry that a line is the text of. -/
def ofLine? (line : List UInt8) : Option LogEntry := (String.fromUTF8? ⟨line.toArray⟩).bind parse?

/-- An entry is read back from its line. -/
theorem ofLine?_line (e : LogEntry) : ofLine? e.line = some e := by
  have decoded : String.fromUTF8? e.compactText.toUTF8 = some e.compactText :=
    dif_pos e.compactText.isValidUTF8
  have whole : (⟨e.line.toArray⟩ : ByteArray) = e.compactText.toUTF8 := by
    rw [line, bytes, Array.toArray_toList]
  rw [ofLine?, whole, decoded, Option.bind_some, e.parse?_compactText]

/-- Entries are read back from their lines. -/
theorem mapM_ofLine?_line (entries : List LogEntry) :
    (entries.map line).mapM ofLine? = some entries := by
  induction entries with
  | nil => rfl
  | cons e entries ih =>
      rw [List.map_cons, List.mapM_cons, ofLine?_line, ih]
      rfl

/-- Whatever an entry says, its text is one line. -/
theorem newline_not_mem_line (e : LogEntry) : newline ∉ e.line := by
  apply newline_not_mem_bytes
  intro lineBreak
  exact absurd (Value.printable_compact e.whole_toJson '\n' lineBreak) (by decide)

/-- A log consists of the lines of its entries, each of which is ended by a newline byte. -/
theorem bytes_logText (entries : List LogEntry) :
    bytes (logText entries) = (entries.map line).flatMap (· ++ [newline]) := by
  rw [logText, bytes_join, List.flatMap_map, List.flatMap_map]
  exact congrArg entries.flatMap (funext fun e => bytes_append e.compactText "\n")

end LogEntry

end BudgetedRun
