import FirmwareWorkspace.Proofs.Expression.Comparison
import FirmwareWorkspace.Proofs.Expression.Numeral
import FirmwareWorkspace.Proofs.Expression.Writing
import Mathlib.Algebra.Order.Group.Abs
import Mathlib.Algebra.Order.Group.Int
import Mathlib.Data.Int.Bitwise
import Mathlib.Data.Int.ModEq

/-!
# Integers of 128 bits

Sums, differences and products are the mathematical ones up to multiples of `2 ^ 128`, quotients
are rounded toward zero, and bitwise operations work on two's complement, whose bits go on with the
sign without end. The results lie in range again, and so does every integer that the evaluation of
a condition comes to.

Main result: `arithmetic_exact`.
-/
namespace FirmwareWorkspace.Expression

namespace Integer

/-- `r` is what `n` is reduced to in two's complement. -/
def IsReduced (n r : Int) : Prop :=
  InRange r ∧ r ≡ n [ZMOD 2 ^ 128]

theorem inRange_iff (n : Int) : InRange n ↔ -2 ^ 127 ≤ n ∧ n < 2 ^ 127 := by
  have bound : (largest : Int) = 2 ^ 127 - 1 := by decide
  rw [InRange, bound]
  omega

theorem coe_modulus : (modulus : Int) = 2 ^ 128 := by
  decide

/-! ### Reduction -/

theorem wrap_of_inRange (n : Int) (inside : InRange n) : wrap n = n := by
  have ⟨low, high⟩ := (inRange_iff n).mp inside
  apply Int.bmod_eq_of_le <;> rw [coe_modulus] <;> omega

theorem inRange_wrap (n : Int) : InRange (wrap n) := by
  have positive : 0 < modulus := by decide
  have low := Int.le_bmod (x := n) positive
  have high := Int.bmod_lt (x := n) positive
  rw [coe_modulus] at low high
  rw [inRange_iff, wrap]
  omega

theorem isReduced_wrap (n : Int) : IsReduced n (wrap n) := by
  refine ⟨inRange_wrap n, (Int.modEq_iff_dvd.mpr ?_)⟩
  rw [← coe_modulus]
  exact Int.dvd_self_sub_bmod

/-! ### Division -/

section Division

variable (a b : Int) (inRange : InRange a) (inRangeToo : InRange b) (nonzero : b ≠ 0)

include nonzero

theorem abs_tmod_lt : |a.tmod b| < |b| := by
  rw [Int.abs_eq_natAbs, Int.abs_eq_natAbs, Int.natAbs_tmod]
  have positive := Int.natAbs_pos.mpr nonzero
  exact_mod_cast Nat.mod_lt a.natAbs positive

include inRangeToo

/-- A remainder needs no reduction. -/
theorem rem_eq : rem a b = a.tmod b := by
  have ⟨low, high⟩ := (inRange_iff b).mp inRangeToo
  have ⟨above, below⟩ := abs_lt.mp (abs_tmod_lt a b nonzero)
  have bound : |b| ≤ 2 ^ 127 := abs_le.mpr ⟨low, high.le⟩
  -- The remainder is smaller than the divisor, which lies in range.
  refine wrap_of_inRange _ ((inRange_iff _).mpr ⟨?_, ?_⟩) <;> omega

theorem div_mul_add_rem : div a b * b + rem a b ≡ a [ZMOD 2 ^ 128] := by
  have product := (isReduced_wrap (a.tdiv b)).2.mul_right b
  rw [rem_eq a b inRangeToo nonzero]
  have sum := product.add_right (a.tmod b)
  rwa [Int.tdiv_mul_add_tmod] at sum

end Division

/-! ### Bits -/

/-- Above the width, two's complement goes on with the sign. -/
theorem testBit_toInt (x : BitVec 128) (i : Nat) :
    x.toInt.testBit i = if i < 128 then x.getLsbD i else x.msb := by
  have small := x.isLt
  have above (far : ¬ i < 128) (n : Nat) (less : n < 2 ^ 128) : n.testBit i = false :=
    Nat.testBit_lt_two_pow (less.trans_le (Nat.pow_le_pow_right (by decide) (not_lt.mp far)))
  rw [BitVec.toInt_eq_msb_cond]
  cases sign : x.msb with
  | false =>
    rw [if_neg Bool.false_ne_true]
    change x.toNat.testBit i = _
    split
    · rfl
    next far => exact above far _ small
  | true =>
    -- A negative number is the complement of a natural one, so its bits are turned over.
    have complement : (x.toNat : Int) - (2 ^ 128 : Nat) = .negSucc (2 ^ 128 - (x.toNat + 1)) := by
      omega
    rw [if_pos rfl, complement]
    change (!(2 ^ 128 - (x.toNat + 1)).testBit i) = _
    rw [Nat.testBit_two_pow_sub_succ small]
    split
    next near => simp [near, BitVec.getLsbD]
    next far => simp [far]

theorem inRange_toInt (x : BitVec 128) : InRange x.toInt :=
  (inRange_iff _).mpr ⟨x.le_toInt, x.toInt_lt⟩

theorem toInt_bits (a : Int) (inRange : InRange a) : (bits a).toInt = a := by
  have ⟨low, high⟩ := (inRange_iff a).mp inRange
  exact BitVec.toInt_ofInt_eq_self (by decide) low high

theorem testBit_eq (a : Int) (inRange : InRange a) (i : Nat) :
    a.testBit i = if i < 128 then (bits a).getLsbD i else (bits a).msb := by
  rw [← testBit_toInt, toInt_bits a inRange]

section Bitwise

variable (a b : Int) (inRange : InRange a) (inRangeToo : InRange b) (i : Nat)

include inRange

theorem testBit_complement : (complement a).testBit i = !a.testBit i := by
  rw [complement, testBit_toInt, testBit_eq a inRange]
  split
  next near => simp [near]
  · simp

include inRangeToo

theorem testBit_bitAnd : (bitAnd a b).testBit i = (a.testBit i && b.testBit i) := by
  rw [bitAnd, testBit_toInt, testBit_eq a inRange, testBit_eq b inRangeToo]
  split <;> simp

theorem testBit_bitOr : (bitOr a b).testBit i = (a.testBit i || b.testBit i) := by
  rw [bitOr, testBit_toInt, testBit_eq a inRange, testBit_eq b inRangeToo]
  split <;> simp

theorem testBit_bitXor : (bitXor a b).testBit i = (a.testBit i ^^ b.testBit i) := by
  rw [bitXor, testBit_toInt, testBit_eq a inRange, testBit_eq b inRangeToo]
  split <;> simp

end Bitwise

/-! ### Range -/

theorem inRange_shl (a n : Int) : InRange (shl a n) := by
  unfold shl
  split
  · exact inRange_wrap _
  · decide

theorem inRange_shr (a n : Int) (inRange : InRange a) : InRange (shr a n) := by
  unfold shr
  split
  · have ⟨low, high⟩ := (inRange_iff a).mp inRange
    have divisor : 1 ≤ ((1 <<< n.toNat : Nat) : Int) := by
      rw [Nat.one_shiftLeft]
      exact_mod_cast Nat.one_le_two_pow
    -- A divisor of at least one brings a number no further from zero.
    refine (inRange_iff _).mpr ⟨Int.le_ediv_of_mul_le (by omega) ?_,
      Int.ediv_lt_of_lt_mul (by omega) ?_⟩ <;> omega
  · decide

end Integer

/-! ### Operands -/

theorem applyPrefix_views (op : PrefixOp) (value : Value) (n : Int) (view : value.asInt = some n)
    (integral : op ≠ .not) :
    applyPrefix op value =
      .ok (.int (if op = .complement then Integer.complement n else Integer.neg n)) := by
  unfold applyPrefix
  split
  · exact absurd rfl integral
  · cases view
  · rw [view]

theorem evaluate_unary (scope : Scope) (op : PrefixOp) (operand : Expr) (value : Value)
    (inner : evaluate scope operand = .ok value) :
    evaluate scope (.unary op operand) = applyPrefix op value := by
  simp only [evaluate, inner]

/-! ### Values in range -/

/-- If a value counts as an integer, then as one in range. -/
def Value.IsInRange (value : Value) : Prop :=
  ∀ n, value.asInt = some n → Integer.InRange n

namespace Value

theorem isInRange_bool (value : Bool) : (bool value).IsInRange := by
  rintro n ⟨⟩
  cases value <;> decide

theorem isInRange_int (n : Int) (inRange : Integer.InRange n) : (int n).IsInRange := by
  rintro _ ⟨⟩
  exact inRange

theorem isInRange_undefined : undefined.IsInRange :=
  nofun

theorem inRange_of_ofText (text : String) (n : Int) (read : ofText text = int n) :
    Integer.InRange n := by
  unfold ofText ofChars at read
  split at read
  · cases read
  split at read
  · cases read
  split at read
  next found =>
    cases read
    exact (isNumeral_of_integer _ _ found).inRange
  · cases read

theorem isInRange_str (text : String) : (str text).IsInRange := by
  intro n view
  unfold asInt at view
  dsimp only at view
  split at view
  next read =>
    cases view
    exact inRange_of_ofText text _ read
  · cases view

theorem isInRange_ofText (text : String) : (ofText text).IsInRange := by
  cases read : ofText text with
  | bool value => exact isInRange_bool value
  | int n => exact isInRange_int n (inRange_of_ofText text n read)
  | str other => exact isInRange_str other
  | undefined => exact isInRange_undefined

end Value

theorem integerResult_inRange (op : BinaryOp) (a b n : Int) (inRange : Integer.InRange a)
    (calculated : integerResult op a b = some (.ok n)) : Integer.InRange n := by
  cases op with
  | and | or | eq | ne | lt | gt | le | ge | isIn => cases calculated
  | bitOr | bitXor | bitAnd =>
    cases calculated
    exact Integer.inRange_toInt _
  | add | sub | mul =>
    cases calculated
    exact Integer.inRange_wrap _
  | div | rem =>
    simp only [integerResult, Option.some.injEq] at calculated
    split at calculated
    · cases calculated
    · cases calculated
      exact Integer.inRange_wrap _
  | shl =>
    cases calculated
    exact Integer.inRange_shl a b
  | shr =>
    cases calculated
    exact Integer.inRange_shr a b inRange

theorem applyPrefix_isInRange (op : PrefixOp) (value result : Value)
    (applied : applyPrefix op value = .ok result) : result.IsInRange := by
  unfold applyPrefix at applied
  split at applied
  · cases applied
    exact Value.isInRange_bool _
  · cases applied
    exact Value.isInRange_undefined
  · split at applied
    · cases applied
    · cases applied
      apply Value.isInRange_int
      split
      · exact Integer.inRange_toInt _
      · exact Integer.inRange_wrap _

theorem arithmetic_isInRange (op : BinaryOp) (left right result : Value)
    (inRange : left.IsInRange) (applied : arithmetic op left right = .ok result) :
    result.IsInRange := by
  unfold arithmetic at applied
  split at applied
  · cases applied
    exact Value.isInRange_str _
  split at applied
  next a b leftInt _ =>
    split at applied
    next outcome calculated =>
      cases outcome with
      | error => cases applied
      | ok n =>
        cases applied
        exact Value.isInRange_int n (integerResult_inRange op a b n (inRange a leftInt) calculated)
    · cases applied
  · cases applied

theorem applyBinary_isInRange (op : BinaryOp) (left right result : Value)
    (inRange : left.IsInRange) (applied : applyBinary op left right = .ok result) :
    result.IsInRange := by
  -- An undefined operand decides the answer in front of all arithmetic.
  by_cases absorbed : left = .undefined ∨ right = .undefined
  · cases op with
    | and | or =>
      cases applied
      exact Value.isInRange_bool _
    | eq | ne | lt | gt | le | ge | isIn =>
      simp only [applyBinary, if_pos absorbed] at applied
      cases applied
      exact Value.isInRange_bool false
    | _ =>
      simp only [applyBinary, if_pos absorbed] at applied
      cases applied
      exact Value.isInRange_undefined
  · cases op with
    | and | or =>
      cases applied
      exact Value.isInRange_bool _
    | eq | ne | isIn =>
      simp only [applyBinary, if_neg absorbed] at applied
      cases applied
      exact Value.isInRange_bool _
    | lt | gt | le | ge =>
      simp only [applyBinary, if_neg absorbed, compared] at applied
      split at applied
      · cases applied
      · cases applied
        exact Value.isInRange_bool _
    | _ =>
      simp only [applyBinary, if_neg absorbed] at applied
      exact arithmetic_isInRange _ left right result inRange applied

/-! ### Conditions in range -/

/-- Every number in a tree is one that a token may hold. -/
def Expr.IsBounded : Expr → Prop
  | number value => value ≤ Integer.largest
  | unary _ operand => operand.IsBounded
  | binary _ left right => left.IsBounded ∧ right.IsBounded
  | _ => True

theorem Phrase.isBounded_tree (phrase : Phrase)
    (written : ∀ token ∈ phrase.tokens, token.IsWritten) : phrase.tree.IsBounded := by
  induction phrase with
  | leaf leaf =>
    cases leaf with
    | number value => exact written _ (.head _)
    | truth | quoted | reference | word => trivial
  | prefixed op operand ih => exact ih fun token member => written token (.tail _ member)
  | joined left op right leftIH rightIH =>
    have ⟨first, others⟩ := List.forall_mem_append.mp written
    exact ⟨leftIH first, rightIH fun token member => others token (.tail _ member)⟩
  | enclosed inner ih =>
    have ⟨_, others⟩ := List.forall_mem_cons.mp written
    exact ih (List.forall_mem_append.mp others).1

theorem isBounded_of_parse (text : String) (tree : Expr) (parsed : parse text = .ok tree) :
    tree.IsBounded := by
  obtain ⟨placed, tokenized, read⟩ := (parse_eq_ok_iff text tree).mp parsed
  obtain ⟨phrase, _, rfl, same⟩ := exists_grouped_of_readFrom _ placed tree read
  apply phrase.isBounded_tree
  rw [same]
  exact List.forall_mem_map.mpr (isWritten_of_tokensFrom 0 0 text.toList placed tokenized)

theorem isInRange_wordValue (scope : Scope) (word : String) :
    (wordValue scope word).IsInRange := by
  unfold wordValue
  split
  · exact Value.isInRange_str _
  · split
    · exact Value.isInRange_str _
    · exact Value.isInRange_ofText _

theorem evaluate_isInRange (scope : Scope) (tree : Expr) (bounded : tree.IsBounded)
    (value : Value) (evaluated : evaluate scope tree = .ok value) : value.IsInRange := by
  induction tree generalizing value with
  | truth truth =>
    cases evaluated
    exact Value.isInRange_bool truth
  | number number =>
    cases evaluated
    have bound : (number : Int) ≤ Integer.largest := Int.ofNat_le.mpr bounded
    refine Value.isInRange_int _ ⟨?_, bound⟩
    omega
  | quoted text =>
    cases evaluated
    exact Value.isInRange_str text
  | reference name =>
    cases evaluated
    split
    · exact Value.isInRange_undefined
    · exact Value.isInRange_ofText _
  | word text =>
    cases evaluated
    exact isInRange_wordValue scope text
  | unary op operand =>
    rw [evaluate] at evaluated
    split at evaluated
    · cases evaluated
    · exact applyPrefix_isInRange op _ value evaluated
  | binary op left right leftIH _ =>
    -- Only a shift to the right is not reduced, and it lies in range with its left operand.
    rw [evaluate] at evaluated
    split at evaluated
    · cases evaluated
    next leftValue first =>
      split at evaluated
      · cases evaluated
        exact Value.isInRange_bool _
      · split at evaluated
        · cases evaluated
        · exact applyBinary_isInRange op _ _ value (leftIH bounded.1 leftValue first) evaluated

/-! ### Exact operators -/

/-- What the operators of integers have to give for two operands that count as `a` and `b`:
`applied` are the answers of the binary operators to both, `prefixed` those of the prefix
operators to the first. -/
structure IsExact (a b : Int) (applied : BinaryOp → Except EvalError Value)
    (prefixed : PrefixOp → Except EvalError Value) : Prop where
  sum : ∃ r, applied .add = .ok (.int r) ∧ Integer.IsReduced (a + b) r
  difference : ∃ r, applied .sub = .ok (.int r) ∧ Integer.IsReduced (a - b) r
  product : ∃ r, applied .mul = .ok (.int r) ∧ Integer.IsReduced (a * b) r
  negative : ∃ r, prefixed .negate = .ok (.int r) ∧ Integer.IsReduced (-a) r
  conjunction : ∃ r, applied .bitAnd = .ok (.int r) ∧ Integer.InRange r ∧
    ∀ i, r.testBit i = (a.testBit i && b.testBit i)
  disjunction : ∃ r, applied .bitOr = .ok (.int r) ∧ Integer.InRange r ∧
    ∀ i, r.testBit i = (a.testBit i || b.testBit i)
  exclusion : ∃ r, applied .bitXor = .ok (.int r) ∧ Integer.InRange r ∧
    ∀ i, r.testBit i = (a.testBit i ^^ b.testBit i)
  complement : ∃ r, prefixed .complement = .ok (.int r) ∧ Integer.InRange r ∧
    ∀ i, r.testBit i = !a.testBit i
  /-- Division fails by zero only. -/
  undivided : (applied .div = .error .divisionByZero ↔ b = 0) ∧
    (applied .rem = .error .moduloByZero ↔ b = 0)
  /-- The quotient is rounded toward zero, and only `-2 ^ 127` by `-1` needs its reduction. -/
  division : b ≠ 0 → ∃ q r, applied .div = .ok (.int q) ∧ applied .rem = .ok (.int r) ∧
    Integer.IsReduced (a.tdiv b) q ∧ Integer.InRange r ∧ r = a.tmod b ∧
    q * b + r ≡ a [ZMOD 2 ^ 128] ∧ |r| < |b|

/-- It is enough that every operator does what it does to the integer views. -/
theorem isExact_of_views (a b : Int) (inRange : Integer.InRange a) (inRangeToo : Integer.InRange b)
    (applied : BinaryOp → Except EvalError Value) (prefixed : PrefixOp → Except EvalError Value)
    (views : ∀ op result, integerResult op a b = some result → applied op = result.map .int)
    (complement : prefixed .complement = .ok (.int (Integer.complement a)))
    (negative : prefixed .negate = .ok (.int (Integer.neg a))) :
    IsExact a b applied prefixed where
  sum := ⟨_, views .add _ rfl, Integer.isReduced_wrap _⟩
  difference := ⟨_, views .sub _ rfl, Integer.isReduced_wrap _⟩
  product := ⟨_, views .mul _ rfl, Integer.isReduced_wrap _⟩
  negative := ⟨_, negative, Integer.isReduced_wrap _⟩
  conjunction := ⟨_, views .bitAnd _ rfl, Integer.inRange_toInt _,
    Integer.testBit_bitAnd a b inRange inRangeToo⟩
  disjunction := ⟨_, views .bitOr _ rfl, Integer.inRange_toInt _,
    Integer.testBit_bitOr a b inRange inRangeToo⟩
  exclusion := ⟨_, views .bitXor _ rfl, Integer.inRange_toInt _,
    Integer.testBit_bitXor a b inRange inRangeToo⟩
  complement := ⟨_, complement, Integer.inRange_toInt _, Integer.testBit_complement a inRange⟩
  undivided := by
    rw [views .div _ rfl, views .rem _ rfl]
    by_cases zero : b = 0
    · simp [zero, Except.map]
    · simp [zero, Except.map]
  division nonzero := by
    refine ⟨Integer.div a b, Integer.rem a b, ?_, ?_, Integer.isReduced_wrap _,
      Integer.inRange_wrap _, Integer.rem_eq a b inRangeToo nonzero,
      Integer.div_mul_add_rem a b inRangeToo nonzero, ?_⟩
    · rw [views .div _ rfl, if_neg nonzero]
      rfl
    · rw [views .rem _ rfl, if_neg nonzero]
      rfl
    · rw [Integer.rem_eq a b inRangeToo nonzero]
      exact Integer.abs_tmod_lt a b nonzero

/-- Arithmetic is exact modulo `2 ^ 128` on all operands that count as integers in range: sums,
differences, products and negatives are the mathematical ones brought back into the range, bitwise
operators work on each bit of two's complement, and division fails exactly by zero and rounds
toward zero, with the remainder that belongs to the quotient. The same holds of trees with such
values; and what a condition evaluates to counts as no integer out of range. -/
theorem arithmetic_exact (left right : Value) (a b : Int) (leftInt : left.asInt = some a)
    (rightInt : right.asInt = some b) (inRange : Integer.InRange a)
    (inRangeToo : Integer.InRange b) :
    IsExact a b (applyBinary · left right) (applyPrefix · left) ∧
      (∀ scope first second, evaluate scope first = .ok left → evaluate scope second = .ok right →
        IsExact a b (fun op => evaluate scope (.binary op first second))
          (fun op => evaluate scope (.unary op first))) ∧
      ∀ scope text value, evaluateText scope text = .ok value →
        ∀ n, value.asInt = some n → Integer.InRange n := by
  have views (op : BinaryOp) (result : Except EvalError Int)
      (calculated : integerResult op a b = some result) :
      applyBinary op left right = result.map .int :=
    applyBinary_views op left right a b result leftInt rightInt calculated
  have complement := applyPrefix_views .complement left a leftInt (by decide)
  have negative := applyPrefix_views .negate left a leftInt (by decide)
  refine ⟨isExact_of_views a b inRange inRangeToo _ _ views complement negative,
    fun scope first second firstValue secondValue =>
      isExact_of_views a b inRange inRangeToo _ _ (fun op result calculated => ?_)
        ((evaluate_unary scope _ first left firstValue).trans complement)
        ((evaluate_unary scope _ first left firstValue).trans negative),
    fun scope text value evaluated => ?_⟩
  · -- The operators of integers evaluate both operands.
    have strict : shortcut? op left = none := by
      cases op with
      | and | or => cases calculated
      | _ => rfl
    rw [evaluate_binary scope op first second left right firstValue secondValue strict]
    exact views op result calculated
  · rw [evaluateText] at evaluated
    split at evaluated
    · cases evaluated
    next tree parsed =>
      exact evaluate_isInRange scope tree (isBounded_of_parse text tree parsed) value evaluated

def lowScope : Scope :=
  ⟨fun name => if name = "LOW" then some "-170141183460469231731687303715884105728" else none,
    fun _ _ => none⟩

/-- The most negative integer, divided by minus one, is itself again and leaves nothing. -/
theorem lowScope_exact :
    (Value.int (-2 ^ 127)).asInt = some (-2 ^ 127) ∧ (Value.int (-1)).asInt = some (-1) ∧
      Integer.InRange (-2 ^ 127) ∧ Integer.InRange (-1) ∧
      evaluate lowScope (.reference "LOW") = .ok (.int (-2 ^ 127)) ∧
      evaluate lowScope (.unary .negate (.number 1)) = .ok (.int (-1)) ∧
      IsExact (-2 ^ 127) (-1)
        (fun op => evaluate lowScope
          (.binary op (.reference "LOW") (.unary .negate (.number 1))))
        (fun op => evaluate lowScope (.unary op (.reference "LOW"))) ∧
      Integer.div (-2 ^ 127) (-1) = -2 ^ 127 ∧ Integer.rem (-2 ^ 127) (-1) = 0 := by
  have low : evaluate lowScope (.reference "LOW") = .ok (.int (-2 ^ 127)) := by
    have read : Value.ofText "-170141183460469231731687303715884105728" = .int (-2 ^ 127) := by
      decide +kernel
    exact congrArg Except.ok read
  have minus : evaluate lowScope (.unary .negate (.number 1)) = .ok (.int (-1)) := rfl
  have inRange : Integer.InRange (-2 ^ 127) ∧ Integer.InRange (-1) := by decide
  obtain ⟨_, trees, _⟩ :=
    arithmetic_exact (.int (-2 ^ 127)) (.int (-1)) _ _ rfl rfl inRange.1 inRange.2
  exact ⟨rfl, rfl, inRange.1, inRange.2, low, minus, trees lowScope _ _ low minus,
    by decide, by decide⟩

end FirmwareWorkspace.Expression
