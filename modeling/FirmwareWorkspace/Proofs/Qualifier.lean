import FirmwareWorkspace.Proofs.Text.Blank
import FirmwareWorkspace.Qualifier

/-!
# Stored qualifiers

A qualifier is stored in lower case, trimmed, and with the wildcard for whatever restricts
nothing. Storing a restriction that is stored already changes nothing. Every qualifier of a
section header is stored.
-/
namespace FirmwareWorkspace

namespace Chars

theorem toNat_toLower_of_capital (c : Char) (capital : 65 ≤ c.toNat ∧ c.toNat ≤ 90) :
    c.toLower.toNat = c.toNat + 32 := by
  have within : c.val ≥ 'A'.val ∧ c.val ≤ 'Z'.val :=
    capital.imp UInt32.le_iff_toNat_le.mpr UInt32.le_iff_toNat_le.mpr
  have raised : c.toLower.val = c.val + ('a'.val - 'A'.val) := congrArg Char.val (dif_pos within)
  have shift : ('a'.val - 'A'.val).toNat = 32 := by decide
  rw [Char.toNat, raised, UInt32.toNat_add, shift]
  exact Nat.mod_eq_of_lt (by simp only [Char.toNat] at capital; omega)

theorem toLower_of_other (c : Char) (other : ¬(65 ≤ c.toNat ∧ c.toNat ≤ 90)) : c.toLower = c :=
  dif_neg fun within => other (within.imp UInt32.le_iff_toNat_le.mp UInt32.le_iff_toNat_le.mp)

theorem toLower_toLower (c : Char) : c.toLower.toLower = c.toLower := by
  apply toLower_of_other
  by_cases capital : 65 ≤ c.toNat ∧ c.toNat ≤ 90
  · have lowered := toNat_toLower_of_capital c capital
    omega
  · rwa [toLower_of_other c capital]

theorem isBlank_toLower (c : Char) : isBlank c.toLower = isBlank c := by
  by_cases capital : 65 ≤ c.toNat ∧ c.toNat ≤ 90
  · have lowered := toNat_toLower_of_capital c capital
    rw [isBlank_of_visible c (by omega), isBlank_of_visible _ (by omega)]
  · rw [toLower_of_other c capital]

theorem lower_lower (cs : List Char) : lower (lower cs) = lower cs := by
  simp only [lower, List.map_map, Function.comp_def, toLower_toLower]

theorem trim_lower (cs : List Char) : trim (lower cs) = lower (trim cs) := by
  simp only [trim, trimEnd, trimStart, lower, List.dropWhile_map, Function.comp_def,
    isBlank_toLower, ← List.map_reverse]

end Chars

namespace Qualifier

/-- A qualifier in the form in which qualifiers are stored. -/
def IsStored (qualifier : Qualifier) : Prop :=
  ∃ sectionType arch moduleType, qualifier = .new sectionType arch moduleType

theorem restriction_wildcard : restriction wildcard = wildcard := by
  decide +kernel

theorem restriction_restriction (text : String) :
    restriction (restriction text) = restriction text := by
  by_cases common : Text.trim text = "" ∨ Text.sameLetters (Text.trim text) "common" = true
  · have stored : restriction text = wildcard := by
      rw [restriction, if_pos common]
    rw [stored, restriction_wildcard]
  · have stored : restriction text = Text.lower (Text.trim text) := by
      rw [restriction, if_neg common]
    rw [not_or] at common
    obtain ⟨visible, uncommon⟩ := common
    -- Trimming and lower case leave the stored text as it is.
    have trimmed : Text.trim (Text.lower (Text.trim text)) = Text.lower (Text.trim text) := by
      simp only [Text.trim, Text.lower, String.toList_ofList, Chars.trim_lower, Chars.trim_trim]
    have lowered : Text.lower (Text.lower (Text.trim text)) = Text.lower (Text.trim text) := by
      simp only [Text.lower, String.toList_ofList, Chars.lower_lower]
    have kept : ¬(Text.lower (Text.trim text) = "" ∨
        Text.sameLetters (Text.lower (Text.trim text)) "common" = true) := by
      rintro (empty | same)
      · rw [Text.lower, String.ofList_eq_empty_iff, Chars.lower, List.map_eq_nil_iff,
          String.toList_eq_nil_iff] at empty
        exact visible empty
      · rw [Text.sameLetters, Chars.sameLetters, Text.lower, String.toList_ofList,
          Chars.lower_lower] at same
        exact uncommon same
    rw [stored, restriction, trimmed, if_neg kept, lowered]

theorem IsStored.restriction_arch {qualifier : Qualifier} (stored : qualifier.IsStored) :
    restriction qualifier.arch = qualifier.arch := by
  obtain ⟨_, arch, _, rfl⟩ := stored
  rw [new, restriction_restriction]

theorem isStored_of_header (line : List Char) (qualifiers : List Qualifier)
    (header : ofHeader? line = some qualifiers) : ∀ qualifier ∈ qualifiers, qualifier.IsStored := by
  unfold ofHeader? at header
  split at header
  · cases header
  · dsimp only at header
    split at header
    · cases header
    · cases header
      exact List.forall_mem_map.mpr fun _ _ => ⟨_, _, _, rfl⟩

end Qualifier

end FirmwareWorkspace
