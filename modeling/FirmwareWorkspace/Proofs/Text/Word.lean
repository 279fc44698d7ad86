import FirmwareWorkspace.Text.Word
import FirmwareWorkspace.Proofs.Text.Blank

/-!
# Characters of names

Identifiers consist of visible ASCII characters, all of them word characters. No word character
is blank, so a name ends in front of a blank.
-/
namespace FirmwareWorkspace.Chars

theorem visible_of_isIdentPart (c : Char) (part : isIdentPart c = true) :
    0x21 ≤ c.toNat ∧ c.toNat < 0x7F := by
  have ranges : ((decide (c.val ≥ 'A'.val ∧ c.val ≤ 'Z'.val) ||
      decide (c.val ≥ 'a'.val) && decide (c.val ≤ 'z'.val)) ||
      decide (c.val ≥ '0'.val) && decide (c.val ≤ '9'.val) || c == '_') = true := part
  simp only [Bool.or_eq_true, Bool.and_eq_true, decide_eq_true_eq, beq_iff_eq, ge_iff_le,
    UInt32.le_iff_toNat_le] at ranges
  simp only [Char.toNat]
  have bounds : '0'.val.toNat = 48 ∧ '9'.val.toNat = 57 ∧ 'a'.val.toNat = 97 ∧
      'z'.val.toNat = 122 ∧ 'A'.val.toNat = 65 ∧ 'Z'.val.toNat = 90 := by decide
  rcases ranges with known | rfl
  · omega
  · decide

theorem isWord_of_isIdentPart (c : Char) (part : isIdentPart c = true) : isWord c = true := by
  have ⟨_, ascii⟩ := visible_of_isIdentPart c part
  rw [isWord, if_pos (by omega)]
  exact part

/-- Ranges of the blanks from U+0080 on. -/
def blankRanges : List (Nat × Nat) :=
  [(0x85, 0x85), (0xA0, 0xA0), (0x1680, 0x1680), (0x2000, 0x200A), (0x2028, 0x2029),
    (0x202F, 0x202F), (0x205F, 0x205F), (0x3000, 0x3000)]

theorem exists_range_of_isBlank (c : Char) (blank : isBlank c = true) (high : 0x80 ≤ c.toNat) :
    ∃ range ∈ blankRanges, range.1 ≤ c.toNat ∧ c.toNat ≤ range.2 := by
  simp only [isBlank, Bool.or_eq_true, Bool.and_eq_true, decide_eq_true_eq, beq_iff_eq] at blank
  simp only [blankRanges, List.exists_mem_cons_iff, List.not_mem_nil, false_and, exists_false,
    or_false]
  omega

theorem wordRanges_apart : ∀ word ∈ wordRanges, ∀ blank ∈ blankRanges,
    word.2 < blank.1 ∨ blank.2 < word.1 := by
  decide +kernel

theorem isBlank_of_isWord (c : Char) (word : isWord c = true) : isBlank c = false := by
  unfold isWord at word
  split at word
  · exact isBlank_of_visible c (visible_of_isIdentPart c word)
  next high =>
    apply eq_false_of_ne_true
    intro blank
    obtain ⟨⟨low, top⟩, inWords, within⟩ := List.any_eq_true.mp word
    obtain ⟨gap, inBlanks, above, below⟩ := exists_range_of_isBlank c blank (by omega)
    have apart := wordRanges_apart _ inWords gap inBlanks
    simp only [Bool.and_eq_true, decide_eq_true_eq] at within apart
    omega

end FirmwareWorkspace.Chars
