import FirmwareWorkspace.Expression.Value
import FirmwareWorkspace.Proofs.Text.Blank

/-!
# Numbers in texts

A text that reads as an integer is a run of digits behind the marks of its sign and base. The
integer is in range, and the text is a single word, as is the decimal form of any integer.
-/
namespace FirmwareWorkspace.Expression

/-- What a sign and a base are marked by. -/
def marks : List Char :=
  ['+', '-', '0', 'x', 'X']

/-- Digits of an integer in range, with marks of the sign and the base in front. -/
def IsNumeral (cs : List Char) (n : Int) : Prop :=
  ∃ front digits, cs = front ++ digits ∧ front ⊆ marks ∧ digits ≠ [] ∧
    (∀ c ∈ digits, Chars.isHexDigit c = true) ∧ Integer.InRange n

theorem IsNumeral.inRange {cs : List Char} {n : Int} (numeral : IsNumeral cs n) :
    Integer.InRange n := by
  obtain ⟨_, _, _, _, _, _, inRange⟩ := numeral
  exact inRange

theorem IsNumeral.isWord {cs : List Char} {n : Int} (numeral : IsNumeral cs n) :
    Chars.IsWord cs := by
  obtain ⟨front, digits, rfl, marked, some, hex, _⟩ := numeral
  have visible : marks.all (!Chars.isBlank ·) = true := rfl
  refine ⟨List.append_ne_nil_of_right_ne_nil front some, fun c member => ?_⟩
  rcases List.mem_append.mp member with mark | digit
  · exact (Bool.not_eq_true' _).mp (List.all_eq_true.mp visible c (marked mark))
  · exact Chars.isBlank_of_isHexDigit c (hex c digit)

theorem IsNumeral.append {cs : List Char} {n : Int} (numeral : IsNumeral cs n) (front : List Char)
    (marked : front ⊆ marks) : IsNumeral (front ++ cs) n := by
  obtain ⟨others, digits, rfl, markedToo, rest⟩ := numeral
  exact ⟨front ++ others, digits, (List.append_assoc _ _ _).symm,
    List.append_subset.mpr ⟨marked, markedToo⟩, rest⟩

theorem isNumeral_of_ofDigits (base : Nat) (isDigit : Char → Bool) (cs : List Char) (n : Int)
    (hex : ∀ c, isDigit c = true → Chars.isHexDigit c = true)
    (read : Integer.ofDigits? base isDigit cs = some n) : IsNumeral cs n := by
  have checked (digits : List Char) (sign : Int → Int)
      (read : Integer.ofDigits?.magnitude base isDigit digits sign = some n) :
      IsNumeral digits n := by
    unfold Integer.ofDigits?.magnitude at read
    dsimp only at read
    split at read
    next valid =>
      cases read
      exact ⟨[], digits, rfl, List.nil_subset _, valid.1,
        fun c member => hex c (List.all_eq_true.mp valid.2.1 c member), valid.2.2⟩
    · cases read
  unfold Integer.ofDigits? at read
  split at read
  · exact (checked _ _ read).append ['+'] (by decide)
  · exact (checked _ _ read).append ['-'] (by decide)
  · exact checked _ _ read

theorem isNumeral_of_integer (cs : List Char) (n : Int) (read : Value.integer? cs = some n) :
    IsNumeral cs n := by
  rcases Option.or_eq_some_iff.mp read with hex | ⟨_, decimal⟩
  · obtain ⟨digits, marked, read⟩ := Option.bind_eq_some_iff.mp hex
    have numeral := isNumeral_of_ofDigits 16 Chars.isHexDigit digits n (fun _ digit => digit) read
    rcases Option.or_eq_some_iff.mp marked with small | ⟨_, capital⟩
    · rw [Chars.eq_append_of_dropFront _ _ _ small]
      exact numeral.append _ (by decide)
    · rw [Chars.eq_append_of_dropFront _ _ _ capital]
      exact numeral.append _ (by decide)
  · exact isNumeral_of_ofDigits 10 Char.isDigit cs n Chars.isHexDigit_of_isDigit decimal

theorem isWord_toString (n : Int) : Chars.IsWord (toString n).toList := by
  have decimal (value : Nat) : Chars.IsWord (toString value).toList := by
    rw [Nat.toString_eq_ofList_toDigits, String.toList_ofList]
    exact ⟨Nat.toDigits_ne_nil, fun c member => Chars.isBlank_of_isHexDigit c
      (Chars.isHexDigit_of_isDigit c (Nat.isDigit_of_mem_toDigits (by decide) (by decide) member))⟩
  cases n with
  | ofNat value => exact decimal value
  | negSucc value =>
    have signed : (toString (Int.negSucc value)).toList = '-' :: (toString (value + 1)).toList := by
      change ("-" ++ _ : String).toList = _
      rw [String.toList_append]
      rfl
    rw [signed]
    exact (decimal (value + 1)).cons (by decide)

end FirmwareWorkspace.Expression
