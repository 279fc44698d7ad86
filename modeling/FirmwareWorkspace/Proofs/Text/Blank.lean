import FirmwareWorkspace.Text.Cut
import FirmwareWorkspace.Text.Digit
import Mathlib.Data.List.DropRight

/-!
# Trimmed texts and words

Trimming leaves no blank at either end, whichever end comes first, so there is nothing to trim a
second time. A text without blanks is one word, and so is a number.
-/
namespace FirmwareWorkspace.Chars

theorem trimStart_cons {c : Char} (visible : isBlank c = false) (rest : List Char) :
    trimStart (c :: rest) = c :: rest :=
  List.dropWhile_cons_of_neg (ne_true_of_eq_false visible)

theorem trimStart_append_of_blank {blanks : List Char} (blank : ∀ c ∈ blanks, isBlank c = true)
    (rest : List Char) : trimStart (blanks ++ rest) = trimStart rest :=
  List.dropWhile_append_of_pos blank

theorem trimEnd_append_cons (front tail : List Char) {c : Char} (visible : isBlank c = false) :
    trimEnd (front ++ c :: tail) = front ++ c :: trimEnd tail := by
  have shown : ¬ isBlank c = true := ne_true_of_eq_false visible
  simp only [trimEnd, List.reverse_append, List.reverse_cons, List.append_assoc,
    List.dropWhile_append, List.dropWhile_cons_of_neg shown]
  split
  next emptied =>
    rw [List.isEmpty_iff.mp emptied]
    simp
  · simp

theorem exists_of_trimStart_cons {cs rest : List Char} {c : Char}
    (kept : trimStart cs = c :: rest) :
    ∃ blanks, cs = blanks ++ c :: rest ∧ (∀ d ∈ blanks, isBlank d = true) ∧ isBlank c = false := by
  refine ⟨cs.takeWhile isBlank, ?_, fun d member => List.mem_takeWhile_imp member, ?_⟩
  · rw [← kept]
    exact List.takeWhile_append_dropWhile.symm
  · have shown := List.head?_dropWhile_not isBlank cs
    rw [← trimStart, kept] at shown
    exact shown

/-- It makes no difference which end is trimmed first. -/
theorem trimStart_trimEnd (cs : List Char) : trimStart (trimEnd cs) = trim cs := by
  cases kept : trimStart cs with
  | nil =>
    -- Nothing but blanks: either end takes all of them.
    have blank : ∀ c ∈ cs.reverse, isBlank c = true := fun c member =>
      List.dropWhile_eq_nil_iff.mp kept c (List.mem_reverse.mp member)
    rw [trimEnd, List.dropWhile_eq_nil_iff.mpr blank, trim, kept]
    rfl
  | cons c rest =>
    obtain ⟨blanks, rfl, blank, visible⟩ := exists_of_trimStart_cons kept
    have ended : trimEnd (c :: rest) = c :: trimEnd rest := trimEnd_append_cons [] rest visible
    rw [trimEnd_append_cons blanks rest visible, trimStart_append_of_blank blank,
      trimStart_cons visible, trim, kept, ended]

theorem trim_trimStart (cs : List Char) : trim (trimStart cs) = trim cs :=
  congrArg trimEnd (List.dropWhile_idempotent isBlank cs)

theorem trim_trim (cs : List Char) : trim (trim cs) = trim cs := by
  calc trim (trim cs)
      = trimEnd (trimStart (trimEnd (trimStart cs))) := rfl
    _ = trimEnd (trim (trimStart cs)) := congrArg trimEnd (trimStart_trimEnd _)
    _ = trimEnd (trim cs) := congrArg trimEnd (trim_trimStart cs)
    _ = trim cs := List.rdropWhile_idempotent isBlank (trimStart cs)

theorem eq_append_of_dropFront (front cs rest : List Char)
    (dropped : dropFront? front cs = some rest) : cs = front ++ rest := by
  induction front generalizing cs with
  | nil => exact Option.some.inj dropped
  | cons f front ih =>
    cases cs with
    | nil => cases dropped
    | cons c cs =>
      rw [dropFront?] at dropped
      split at dropped
      next same => rw [same, ih cs dropped, List.cons_append]
      · cases dropped

theorem fields_of_solid (separator : Char → Bool) (cs : List Char)
    (solid : ∀ c ∈ cs, separator c = false) : fields separator cs = [cs] := by
  induction cs with
  | nil => rfl
  | cons c rest ih =>
    have ⟨first, others⟩ := List.forall_mem_cons.mp solid
    rw [fields, first, if_neg Bool.false_ne_true, ih others]

/-- A text of one word. -/
def IsWord (cs : List Char) : Prop :=
  cs ≠ [] ∧ ∀ c ∈ cs, isBlank c = false

theorem IsWord.words_eq {cs : List Char} (isWord : IsWord cs) : words cs = [cs] := by
  rw [words, fields_of_solid isBlank cs isWord.2]
  simp [isWord.1]

theorem IsWord.cons {c : Char} {cs : List Char} (isWord : IsWord cs) (visible : isBlank c = false) :
    IsWord (c :: cs) :=
  ⟨List.cons_ne_nil c cs, List.forall_mem_cons.mpr ⟨visible, isWord.2⟩⟩

theorem isBlank_of_visible (c : Char) (visible : 0x21 ≤ c.toNat ∧ c.toNat < 0x7F) :
    isBlank c = false := by
  simp only [isBlank, Bool.or_eq_false_iff, Bool.and_eq_false_iff, decide_eq_false_iff_not,
    beq_eq_false_iff_ne]
  omega

theorem isBlank_of_isHexDigit (c : Char) (digit : isHexDigit c = true) : isBlank c = false := by
  apply isBlank_of_visible
  simp only [isHexDigit, Char.isDigit, Bool.or_eq_true, Bool.and_eq_true, decide_eq_true_eq,
    Char.le_def, ge_iff_le, UInt32.le_iff_toNat_le] at digit
  simp only [Char.toNat]
  have bounds : '0'.val.toNat = 48 ∧ '9'.val.toNat = 57 ∧ 'a'.val.toNat = 97 ∧
      'f'.val.toNat = 102 ∧ 'A'.val.toNat = 65 ∧ 'F'.val.toNat = 70 := by decide
  omega

theorem isHexDigit_of_isDigit (c : Char) (digit : c.isDigit = true) : isHexDigit c = true := by
  simp only [isHexDigit, digit, Bool.true_or]

end FirmwareWorkspace.Chars
