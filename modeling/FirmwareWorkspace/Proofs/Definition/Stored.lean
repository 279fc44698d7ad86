import FirmwareWorkspace.Proofs.Definition.Agreement
import FirmwareWorkspace.Proofs.Text.Blank

/-!
# Stored values

Values are stored trimmed and truth values in capitals, so every value that a table holds is the
stored form of itself, whatever was bound in which order.
-/
namespace FirmwareWorkspace.DefinitionTable

section Stored

variable (value : String)

theorem stored_of_true (isTrue : Text.sameLetters (Text.trim value) "true" = true) :
    stored value = "TRUE" := by
  rw [stored, if_pos isTrue]

theorem stored_of_false (isFalse : Text.sameLetters (Text.trim value) "false" = true) :
    stored value = "FALSE" := by
  have other : ¬ Text.sameLetters (Text.trim value) "true" = true := by
    intro isTrue
    have same := (beq_iff_eq.mp isTrue).symm.trans (beq_iff_eq.mp isFalse)
    -- No text has the letters of both words.
    exact absurd same (by decide +kernel)
  rw [stored, if_neg other, if_pos isFalse]

theorem stored_of_foreign (noTrue : ¬ Text.sameLetters (Text.trim value) "true" = true)
    (noFalse : ¬ Text.sameLetters (Text.trim value) "false" = true) :
    stored value = Text.trim value := by
  rw [stored, if_neg noTrue, if_neg noFalse]

theorem stored_stored : stored (stored value) = stored value := by
  by_cases isTrue : Text.sameLetters (Text.trim value) "true" = true
  · rw [stored_of_true value isTrue]
    decide +kernel
  by_cases isFalse : Text.sameLetters (Text.trim value) "false" = true
  · rw [stored_of_false value isFalse]
    decide +kernel
  have trimmed : Text.trim (Text.trim value) = Text.trim value := by
    rw [Text.trim, Text.trim, String.toList_ofList, Chars.trim_trim]
  have again := stored_of_foreign (Text.trim value)
  rw [trimmed] at again
  rw [stored_of_foreign value isTrue isFalse, again isTrue isFalse]

/-- A value in its stored form is trimmed, and in capitals if it is a truth value. -/
theorem trim_of_stored (kept : stored value = value) : Text.trim value = value := by
  by_cases isTrue : Text.sameLetters (Text.trim value) "true" = true
  · rw [← kept, stored_of_true value isTrue]
    decide +kernel
  by_cases isFalse : Text.sameLetters (Text.trim value) "false" = true
  · rw [← kept, stored_of_false value isFalse]
    decide +kernel
  exact (stored_of_foreign value isTrue isFalse).symm.trans kept

end Stored

/-- Every value is the stored form of itself. -/
def HasStoredValues (table : DefinitionTable) : Prop :=
  ∀ name value, table.value? name = some value → stored value = value

theorem hasStoredValues_new (bound : Nat) : (new bound).HasStoredValues :=
  nofun

theorem HasStoredValues.set {table : DefinitionTable} (kept : table.HasStoredValues)
    (name value : String) (location : Option Location) :
    (table.set name value location).2.HasStoredValues := by
  intro wanted held found
  rw [value_set] at found
  split at found
  · rw [← Option.some.inj found]
    exact stored_stored value
  · exact kept wanted held found

theorem HasStoredValues.bindAll {table : DefinitionTable} (kept : table.HasStoredValues)
    (macros : List Definition) : (table.bindAll macros).HasStoredValues := by
  induction macros generalizing table with
  | nil => exact kept
  | cons first rest ih => exact ih (kept.set first.name first.value first.location)

/-- A value without bound references is what conditions see. -/
theorem macroText_of_closed (table : DefinitionTable) (name value : String)
    (held : table.value? name = some value)
    (closed : ∀ other ∈ referenceNames 0 value.toList, table.value? other = none) :
    table.macroText name = some value := by
  have same (count : Nat) : table.pass^[count] value.toList = value.toList :=
    Function.iterate_fixed (table.pass_eq_self _ closed) count
  have whole : table.replaceAll value = value := by
    rw [← String.toList_inj, toList_replaceAll, same]
  rw [macroText, held, Option.map_some, whole]

end FirmwareWorkspace.DefinitionTable
