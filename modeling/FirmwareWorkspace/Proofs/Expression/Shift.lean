import FirmwareWorkspace.Proofs.Expression.Arithmetic

/-!
# Shifts

A shift to the left by `n` multiplies by `2 ^ n` and reduces to two's complement, whatever the
amount: from the width on, the product is a multiple of `2 ^ 128`. A shift to the right divides by
`2 ^ n` and rounds down as long as the amount lies below the width. From the width on it leaves
zero, which is the rounded quotient of natural numbers; that of a negative number is `-1`.

Main result: `shifts_by_powers`.
-/
namespace FirmwareWorkspace.Expression

namespace Integer

variable (a : Int) (n : Nat)

theorem isShift_iff : isShift n = true ↔ n < 128 := by
  simp only [isShift, Bool.and_eq_true, decide_eq_true_eq]
  omega

theorem coe_shiftLeft : ((1 <<< n : Nat) : Int) = 2 ^ n := by
  rw [Nat.one_shiftLeft]
  exact_mod_cast rfl

/-- Division by a power of two rounds down. -/
theorem fdiv_two_pow : a.fdiv (2 ^ n) = a / 2 ^ n :=
  Int.fdiv_eq_ediv_of_nonneg a (Int.pow_nonneg (by decide))

/-! ### Left -/

theorem isReduced_shl : IsReduced (a * 2 ^ n) (shl a n) := by
  by_cases near : n < 128
  · have moved : shl a n = wrap (a * 2 ^ n) := by
      rw [shl, if_pos ((isShift_iff n).mpr near), Int.toNat_natCast, coe_shiftLeft]
    rw [moved]
    exact isReduced_wrap _
  · have emptied : shl a n = 0 := by
      rw [shl, if_neg fun shift => near ((isShift_iff n).mp shift)]
    -- Nothing is left of the number, and the modulus divides the product.
    have multiple : (2 ^ 128 : Int) ∣ a * 2 ^ n :=
      Dvd.dvd.mul_left (pow_dvd_pow 2 (not_lt.mp near)) a
    rw [emptied]
    exact ⟨by decide, (Int.modEq_zero_iff_dvd.mpr multiple).symm⟩

/-! ### Right -/

theorem shr_of_near (near : n < 128) : shr a n = a.fdiv (2 ^ n) := by
  rw [shr, if_pos ((isShift_iff n).mpr near), Int.toNat_natCast, coe_shiftLeft, fdiv_two_pow]

theorem shr_of_far (far : ¬ n < 128) : shr a n = 0 := by
  rw [shr, if_neg fun shift => far ((isShift_iff n).mp shift)]

theorem fdiv_of_far (inRange : InRange a) (far : ¬ n < 128) :
    a.fdiv (2 ^ n) = if 0 ≤ a then 0 else -1 := by
  have ⟨low, high⟩ := (inRange_iff a).mp inRange
  -- The divisor exceeds every number in range, so that only the sign is left.
  have wide : (2 : Int) ^ 128 ≤ 2 ^ n := by
    exact_mod_cast Nat.pow_le_pow_right Nat.two_pos (not_lt.mp far)
  rw [fdiv_two_pow]
  split
  next natural => exact Int.ediv_eq_zero_of_lt natural (by omega)
  next negative => exact Int.ediv_eq_neg_one_of_neg_of_le (by omega) (by omega)

/-- A shift to the right rounds the quotient down, but for a negative number that is shifted by
the width or more. -/
theorem shr_eq_fdiv_iff (inRange : InRange a) :
    shr a n = a.fdiv (2 ^ n) ↔ 0 ≤ a ∨ n < 128 := by
  by_cases near : n < 128
  · simp only [shr_of_near a n near, near, or_true]
  · rw [shr_of_far a n near, fdiv_of_far a n inRange near]
    split
    next natural => simp [natural]
    next negative => simp [negative, near]

end Integer

/-- Shifts agree with powers of two: a shift to the left by any amount is the product with the
power, reduced to two's complement, and a shift to the right is the quotient rounded down exactly
if the number is natural or the amount lies below the width. Otherwise it gives `0` where the
quotient is `-1`. The same holds of trees with such values. -/
theorem shifts_by_powers (left right : Value) (a : Int) (n : Nat) (leftInt : left.asInt = some a)
    (rightInt : right.asInt = some (n : Int)) (inRange : Integer.InRange a) :
    ∃ up down, applyBinary .shl left right = .ok (.int up) ∧
      applyBinary .shr left right = .ok (.int down) ∧
      Integer.IsReduced (a * 2 ^ n) up ∧
      (down = a.fdiv (2 ^ n) ↔ 0 ≤ a ∨ n < 128) ∧
      (¬(0 ≤ a ∨ n < 128) → down = 0 ∧ a.fdiv (2 ^ n) = -1) ∧
      ∀ scope first second, evaluate scope first = .ok left → evaluate scope second = .ok right →
        evaluate scope (.binary .shl first second) = .ok (.int up) ∧
          evaluate scope (.binary .shr first second) = .ok (.int down) := by
  have raised := applyBinary_views .shl left right a n _ leftInt rightInt rfl
  have lowered := applyBinary_views .shr left right a n _ leftInt rightInt rfl
  refine ⟨Integer.shl a n, Integer.shr a n, raised, lowered, Integer.isReduced_shl a n,
    Integer.shr_eq_fdiv_iff a n inRange, fun outside => ?_,
    fun scope first second firstValue secondValue => ?_⟩
  · obtain ⟨negative, far⟩ := not_or.mp outside
    rw [Integer.fdiv_of_far a n inRange far, if_neg negative]
    exact ⟨Integer.shr_of_far a n far, rfl⟩
  · rw [evaluate_binary scope .shl first second left right firstValue secondValue rfl,
      evaluate_binary scope .shr first second left right firstValue secondValue rfl]
    exact ⟨raised, lowered⟩

def emptyScope : Scope :=
  ⟨fun _ => none, fun _ _ => none⟩

/-- Minus one shifted to the right by the width of the integers becomes zero, not minus one. -/
theorem minusOne_shifts :
    (Value.int (-1)).asInt = some (-1) ∧ (Value.int 128).asInt = some ((128 : Nat) : Int) ∧
      Integer.InRange (-1) ∧
      evaluateText emptyScope "(-1) >> 128" = .ok (.int 0) ∧ (-1 : Int).fdiv (2 ^ 128) = -1 := by
  have inRange : Integer.InRange (-1) := by decide
  have parsed : parse "(-1) >> 128" =
      .ok (.binary .shr (.unary .negate (.number 1)) (.number 128)) := by
    decide +kernel
  have minus : evaluate emptyScope (.unary .negate (.number 1)) = .ok (.int (-1)) := rfl
  obtain ⟨_, down, _, _, _, _, lost, trees⟩ :=
    shifts_by_powers (.int (-1)) (.int 128) (-1) 128 rfl rfl inRange
  obtain ⟨rfl, quotient⟩ := lost (by decide)
  have ⟨_, lowered⟩ := trees emptyScope _ (.number 128) minus rfl
  refine ⟨rfl, rfl, inRange, ?_, quotient⟩
  rw [evaluateText, parsed]
  exact lowered

end FirmwareWorkspace.Expression
